import Afhttp.Lib.Run
import Afhttp.Shared.Error
import Mathlib.Data.Finset.Basic
import Mathlib.Logic.Function.Basic

/-!
# The profile lock

`sdk/profile/lock.rs` and `remove_profile_dir` of `sdk/profile/mod.rs`, by any number of
parties on one profile directory.  The lock is a `flock` on the lockfile's inode; the
lockfile is found by its path.  Every system call is a step of its own; what the system
answers where the code asks it (a failure, a file kind, the next directory entry) is part
of the event.

    Guard::acquire       openLockfile, tryLock, writePid
    Drop for Guard       removePid, unlock
    remove_profile_dir   symlinkMetadata, Guard::acquire, removeEntry .., Drop, unlinkLockfile, removeDir
-/

namespace Afhttp.Profile

abbrev Inode := ℕ

def lockfile (profileDir : String) : String := profileDir ++ "/afhttp-profile.lock"

/-- The name of the PID file in the profile directory. -/
def pidfileName : String := "afhttp-profile.pid"

/-- A directory: the inode its lockfile's name stands for, and its other entries. -/
structure ProfileDir where
  lock : Option Inode
  entries : Finset String
  deriving DecidableEq

/-- Who calls `Guard::acquire`: a host, or `remove_profile_dir`. -/
inductive Caller where
  | host | remover
  deriving DecidableEq, Repr

/-- What follows the drop of a guard: the call returns, or goes on to the lockfile. -/
inductive AfterDrop where
  | returns (r : Except Error Unit)
  | removeLockfile
  deriving DecidableEq

/-- Where a party stands. -/
inductive LockPhase where
  /-- In no call; the last one returned `r`. -/
  | idle (r : Except Error Unit)
  /-- In `remove_profile_dir`, which has found a directory. -/
  | isDir
  /-- In `Guard::acquire`, with the lockfile open. -/
  | opened (caller : Caller) (i : Inode)
  /-- In `Guard::acquire`, with the lock taken. -/
  | locked (caller : Caller) (i : Inode)
  /-- A host that has its guard. -/
  | hosting (i : Inode)
  /-- `remove_profile_dir`, with its guard, removing the entries. -/
  | clearing (i : Inode)
  /-- In the guard's drop, the PID file still to remove. -/
  | dropping (i : Inode) (next : AfterDrop)
  /-- In the guard's drop, the lock still to release. -/
  | unlocking (i : Inode) (next : AfterDrop)
  /-- `remove_profile_dir`, without its guard, the lockfile still to remove. -/
  | unlinking
  /-- `remove_profile_dir`, the directory still to remove. -/
  | removingDir
  deriving DecidableEq

namespace LockPhase

/-- The inode of the lockfile the party has open. -/
def handle : LockPhase → Option Inode
  | opened _ i | locked _ i | hosting i | clearing i | dropping i _ | unlocking i _ => some i
  | _ => none

/-- The inode the party has locked. -/
def flock : LockPhase → Option Inode
  | locked _ i | hosting i | clearing i | dropping i _ | unlocking i _ => some i
  | _ => none

/-- The party has a live `Guard`. -/
def guard : LockPhase → Bool
  | hosting _ | clearing _ | dropping _ _ | unlocking _ _ => true
  | _ => false

theorem handle_of_flock {φ : LockPhase} {i : Inode} (h : φ.flock = some i) :
    φ.handle = some i := by
  cases φ <;> first | exact h | cases h

theorem flock_of_guard {φ : LockPhase} (h : φ.guard = true) : ∃ i, φ.flock = some i := by
  cases φ <;> first | exact ⟨_, rfl⟩ | cases h

/-- Whether the caller may be at the start of `Guard::acquire`. -/
def mayAcquire : LockPhase → Caller → Bool
  | idle _, .host | isDir, .remover => true
  | _, _ => false

/-- The phase a guard's owner is in once `Guard::acquire` has returned it. -/
def acquired : Caller → Inode → LockPhase
  | .host, i => hosting i
  | .remover, i => clearing i

/-- Where the party stands after the drop of its guard. -/
def afterDrop : AfterDrop → LockPhase
  | .returns r => idle r
  | .removeLockfile => unlinking

end LockPhase

structure LockWorld (P : Type) where
  dir : Option ProfileDir
  /-- The next inode number. -/
  fresh : Inode
  /-- Who has each inode locked. -/
  holder : Inode → Option P
  phase : P → LockPhase

inductive LockEvent (P : Type) where
  /-- `create_dir_all`. -/
  | createDir (p : P)
  /-- Writing any entry but the lockfile. -/
  | writeEntry (p : P) (name : String)
  | symlinkMetadata (p : P) (kind : Except String Bool)
  | openLockfile (p : P) (caller : Caller) (fault : Option String)
  | tryLock (p : P) (fault : Option String)
  | writePid (p : P) (done : Bool)
  /-- The host drops its guard. -/
  | dropGuard (p : P)
  /-- The listing gives an entry, and it is removed. -/
  | removeEntry (p : P) (name : String)
  /-- `read_dir`, `file_type` or a removal fails. -/
  | clearFails (p : P) (what path fault : String)
  | endOfDir (p : P)
  | removePid (p : P)
  | unlock (p : P)
  | unlinkLockfile (p : P) (fault : Option String)
  | removeDir (p : P) (fault : Option String)
  /-- The process ends; the system closes its files. -/
  | crash (p : P)

def LockEvent.party {P : Type} : LockEvent P → P
  | createDir p | writeEntry p _ | symlinkMetadata p _ | openLockfile p _ _ | tryLock p _
  | writePid p _ | dropGuard p | removeEntry p _ | clearFails p _ _ _ | endOfDir p
  | removePid p | unlock p | unlinkLockfile p _ | removeDir p _ | crash p => p

/-- The lockfile's name goes. -/
def LockEvent.unlinks {P : Type} : LockEvent P → Bool
  | unlinkLockfile _ none => true
  | _ => false

/-- The `io` closure of `remove_profile_dir`. -/
def removeIoError (what path e : String) : Error := .new .ioError s!"{what}({path}): {e}"

namespace LockWorld

variable {P : Type}

/-- Every party idle. -/
def start (P : Type) (dir : Option ProfileDir) (fresh : Inode) : LockWorld P :=
  ⟨dir, fresh, fun _ => none, fun _ => .idle (.ok ())⟩

/-- The inode that the lockfile's path leads to. -/
def linked (w : LockWorld P) : Option Inode := w.dir.bind ProfileDir.lock

def HasEntry (w : LockWorld P) (name : String) : Prop := ∃ d, w.dir = some d ∧ name ∈ d.entries

instance (w : LockWorld P) (name : String) : Decidable (w.HasEntry name) :=
  match h : w.dir with
  | some d => decidable_of_iff (name ∈ d.entries) (by simp [HasEntry, h])
  | none => isFalse (by simp [HasEntry, h])

def mapEntries (w : LockWorld P) (f : Finset String → Finset String) : LockWorld P :=
  { w with dir := w.dir.map fun d => { d with entries := f d.entries } }

/-- Open or create the lockfile; there is none without its directory. -/
def openOrCreate (w : LockWorld P) : Option (LockWorld P × Inode) :=
  w.dir.map fun d =>
    match d.lock with
    | some i => (w, i)
    | none => ({ w with dir := some { d with lock := some w.fresh }, fresh := w.fresh + 1 }, w.fresh)

def unlink (w : LockWorld P) : LockWorld P :=
  { w with dir := w.dir.map fun d => { d with lock := none } }

def rmdir (w : LockWorld P) : LockWorld P := { w with dir := none }

variable [DecidableEq P]

def setPhase (w : LockWorld P) (p : P) (φ : LockPhase) : LockWorld P :=
  { w with phase := Function.update w.phase p φ }

def setHolder (w : LockWorld P) (i : Inode) (h : Option P) : LockWorld P :=
  { w with holder := Function.update w.holder i h }

/-- The system closes the party's lockfile. -/
def close (w : LockWorld P) (p : P) : LockWorld P :=
  match (w.phase p).flock with
  | some i => w.setHolder i none
  | none => w

def returns (w : LockWorld P) (p : P) (r : Except Error Unit) : Option (LockWorld P) :=
  some (w.setPhase p (.idle r))

/-- One system call of the party, or one of the program's steps between two. -/
def step (profileDir : String) (w : LockWorld P) : LockEvent P → Option (LockWorld P)
  | .createDir _ => some { w with dir := w.dir.or (some ⟨none, ∅⟩) }
  | .writeEntry _ name => some (w.mapEntries (insert name))
  | .symlinkMetadata p kind =>
    match w.phase p with
    | .idle _ =>
      match kind with
      | .error e => w.returns p (.error (removeIoError "symlink_metadata" profileDir e))
      | .ok false => w.returns p (.error (.new .invalidArgument
          s!"{profileDir} is not a profile directory (a link or a file); remove it by hand"))
      | .ok true => some (w.setPhase p .isDir)
    | _ => none
  | .openLockfile p caller fault =>
    if (w.phase p).mayAcquire caller then
      match fault with
      | some e => w.returns p (.error (.new .ioError s!"open lockfile {lockfile profileDir}: {e}"))
      | none => w.openOrCreate.map fun r => r.1.setPhase p (.opened caller r.2)
    else none
  | .tryLock p fault =>
    match w.phase p with
    | .opened caller i =>
      match fault with
      | some e => w.returns p (.error (.new .profileLocked s!"profile {profileDir} already locked: {e}"))
      | none =>
        if w.holder i = none then some ((w.setHolder i (some p)).setPhase p (.locked caller i)) else none
    | _ => none
  | .writePid p done =>
    match w.phase p with
    | .locked caller i =>
      let w := if done then w.mapEntries (insert pidfileName) else w
      some (w.setPhase p (.acquired caller i))
    | _ => none
  | .dropGuard p =>
    match w.phase p with
    | .hosting i => some (w.setPhase p (.dropping i (.returns (.ok ()))))
    | _ => none
  | .removeEntry p name =>
    match w.phase p with
    | .clearing _ => if w.HasEntry name then some (w.mapEntries (·.erase name)) else none
    | _ => none
  | .clearFails p what path fault =>
    match w.phase p with
    | .clearing i =>
      some (w.setPhase p (.dropping i (.returns (.error (removeIoError what path fault)))))
    | _ => none
  | .endOfDir p =>
    match w.phase p with
    | .clearing i => some (w.setPhase p (.dropping i .removeLockfile))
    | _ => none
  | .removePid p =>
    match w.phase p with
    | .dropping i next => some ((w.mapEntries (·.erase pidfileName)).setPhase p (.unlocking i next))
    | _ => none
  | .unlock p =>
    match w.phase p with
    | .unlocking i next => some ((w.setHolder i none).setPhase p (.afterDrop next))
    | _ => none
  | .unlinkLockfile p fault =>
    match w.phase p with
    | .unlinking =>
      match fault with
      | some e => w.returns p (.error (removeIoError "remove_file" (lockfile profileDir) e))
      -- a lockfile that is not there is as good as removed
      | none => some (w.unlink.setPhase p .removingDir)
    | _ => none
  | .removeDir p fault =>
    match w.phase p with
    | .removingDir =>
      match fault with
      | some e => w.returns p (.error (removeIoError "remove_dir" profileDir e))
      | none => if w.dir = some ⟨none, ∅⟩ then w.rmdir.returns p (.ok ()) else none
    | _ => none
  | .crash p => some ((w.close p).setPhase p (.idle (.ok ())))

end LockWorld

end Afhttp.Profile

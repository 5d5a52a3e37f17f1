import Mathlib
import Afhttp.Profile.Lock

/-!
# What a lock answers

`sdk/profile/lock.rs` and `info_at` of `sdk/profile/mod.rs`, on one profile that nobody deletes: its
lockfile is one inode.  The calls are `Guard::acquire` with the life of its guard, and `probe`, by
`status` or by a listing; each is a call of a process, which may have several.  Every system call
is a step of its own, and what the system answers is part of the event.

    Guard::acquire    beginAcquire, openLockfile, tryLock, writePid
    Drop for Guard    dropGuard, removePid, unlock
    probe             beginProbe, symlinkMetadata, openProbe, probeLock, probeUnlock
    status            probe, readPid

A call takes the lock of its own open file: a probe that finds the lock free has it for a moment.
The last two fields of `ProbeWorld` are histories; no function of the source reads them.
-/

namespace Afhttp.Profile

/-- Who calls `probe`: `status`, or `info_at`. -/
inductive Prober where
  | status | listing
  deriving DecidableEq, Repr

/-- `owner_started_at_rfc3339` is always `None`. -/
structure LockStatus (P : Type) where
  locked : Bool
  lockfile : String
  ownerPid : Option P
  deriving DecidableEq

/-- What a call returns.  `unopenable`: the lockfile could not be opened. -/
inductive LockAnswer (P : Type) where
  /-- `Guard::acquire` fails. -/
  | failed (e : Error)
  /-- The guard is dropped. -/
  | dropped
  /-- `locked` of a listing. -/
  | probed (locked unopenable : Bool)
  | status (st : LockStatus P) (unopenable : Bool)
  deriving DecidableEq

/-- Where a call stands. -/
inductive CallPhase (P : Type) where
  | idle
  | acquiring
  | opened
  /-- In `Guard::acquire`, with the lock taken. -/
  | locked
  | hosting
  /-- In the guard's drop, the PID file still to remove. -/
  | dropping
  | unlocking
  | probing (who : Prober)
  | opening (who : Prober)
  | probeOpened (who : Prober)
  /-- In `probe`, with the lock that it has found free. -/
  | probeLocked (who : Prober)
  /-- `status`, with the PID file still to read. -/
  | reading (unopenable : Bool)
  | returned (answer : LockAnswer P)
  /-- Its process has crashed. -/
  | gone
  deriving DecidableEq

namespace CallPhase

variable {P : Type}

/-- The call has the lock as a guard: from where `Guard::acquire` takes it to its release. -/
def guards : CallPhase P → Bool
  | locked | hosting | dropping | unlocking => true
  | _ => false

/-- The call has the lock. -/
def holds : CallPhase P → Bool
  | probeLocked _ => true
  | φ => φ.guards

/-- The call has begun and not returned. -/
def running : CallPhase P → Bool
  | idle | returned _ | gone => false
  | _ => true

/-- Where the caller of `probe` stands once that returns. -/
def probed (profileDir : String) (locked unopenable : Bool) : Prober → CallPhase P
  | .listing => returned (.probed locked unopenable)
  | .status =>
    if locked then reading unopenable
    else returned (.status ⟨false, Profile.lockfile profileDir, none⟩ unopenable)

end CallPhase

/-- The PID file.  `left`: the guard that wrote it has ended. -/
structure PidFile (P : Type) where
  pid : P
  left : Bool
  deriving DecidableEq

structure ProbeWorld (C P : Type) where
  /-- There is a lockfile. -/
  lockfile : Bool
  holder : Option C
  pidfile : Option (PidFile P)
  phase : C → CallPhase P
  /-- The processes that have had a guard during the call. -/
  witnessed : C → Finset P
  /-- The PID file was left behind when the call began, and has not been rewritten since. -/
  stale : C → Bool

inductive ProbeEvent (C P : Type) where
  | beginAcquire (c : C)
  | openLockfile (c : C) (fault : Option String)
  | tryLock (c : C) (fault : Option String)
  | writePid (c : C) (done : Bool)
  | dropGuard (c : C)
  | removePid (c : C) (done : Bool)
  | unlock (c : C)
  | beginProbe (c : C) (who : Prober)
  /-- `symlink_metadata` of the lockfile. -/
  | symlinkMetadata (c : C) (ok : Bool)
  | openProbe (c : C) (ok : Bool)
  | probeLock (c : C) (ok : Bool)
  | probeUnlock (c : C)
  /-- The PID file is read, if that is possible. -/
  | readPid (c : C) (ok : Bool)
  /-- The process ends; the system closes its files. -/
  | crash (p : P)

namespace ProbeWorld

variable {C P : Type} [DecidableEq C] [DecidableEq P]

def start (C P : Type) : ProbeWorld C P := ⟨false, none, none, fun _ => .idle, fun _ => ∅, fun _ => false⟩

def setPhase (w : ProbeWorld C P) (c : C) (φ : CallPhase P) : ProbeWorld C P :=
  { w with phase := Function.update w.phase c φ }

def returns (w : ProbeWorld C P) (c : C) (answer : LockAnswer P) : ProbeWorld C P :=
  w.setPhase c (.returned answer)

def isLeft (w : ProbeWorld C P) : Bool := w.pidfile.any PidFile.left

/-- The PID file is left behind, if there is one. -/
def leave (w : ProbeWorld C P) : ProbeWorld C P :=
  { w with pidfile := w.pidfile.map fun file => { file with left := true } }

/-- The PID file is what it is now to every call. -/
def setPidfile (w : ProbeWorld C P) (file : Option (PidFile P)) : ProbeWorld C P :=
  { w with pidfile := file, stale := fun _ => false }

def beginCall (w : ProbeWorld C P) (c : C) (φ : CallPhase P) : ProbeWorld C P :=
  { w.setPhase c φ with
    witnessed := Function.update w.witnessed c ∅
    stale := Function.update w.stale c w.isLeft }

section
variable (process : C → P) (profileDir : String)

/-- The processes that have a guard. -/
def guardOf (w : ProbeWorld C P) : Finset P :=
  ((w.holder.filter fun c => (w.phase c).guards).map process).toFinset

/-- The calls that are running see who has a guard. -/
def witness (w : ProbeWorld C P) : ProbeWorld C P :=
  { w with
    witnessed := fun c =>
      if (w.phase c).running then w.witnessed c ∪ w.guardOf process else w.witnessed c }

/-- The system closes the files of the process, and its calls end. -/
def crash (w : ProbeWorld C P) (p : P) : ProbeWorld C P :=
  let freed := if w.holder.any fun c => process c = p then { w.leave with holder := none } else w
  { freed with phase := fun c => if process c = p ∧ (w.phase c).running = true then .gone else w.phase c }

/-- One system call, or one of the program's steps between two. -/
def act (w : ProbeWorld C P) : ProbeEvent C P → Option (ProbeWorld C P)
  | .beginAcquire c => if w.phase c = .idle then some (w.beginCall c .acquiring) else none
  | .openLockfile c fault =>
    if w.phase c = .acquiring then
      match fault with
      | some e =>
        some (w.returns c (.failed (.new .ioError s!"open lockfile {Profile.lockfile profileDir}: {e}")))
      | none => some ({ w with lockfile := true }.setPhase c .opened)
    else none
  | .tryLock c fault =>
    if w.phase c = .opened then
      match fault with
      | some e => some (w.returns c (.failed (.new .profileLocked s!"profile {profileDir} already locked: {e}")))
      | none => if w.holder = none then some ({ w with holder := some c }.setPhase c .locked) else none
    else none
  | .writePid c done =>
    if w.phase c = .locked then
      some ((if done then w.setPidfile (some ⟨process c, false⟩) else w).setPhase c .hosting)
    else none
  | .dropGuard c => if w.phase c = .hosting then some (w.setPhase c .dropping) else none
  | .removePid c done =>
    if w.phase c = .dropping then some ((if done then w.setPidfile none else w).setPhase c .unlocking) else none
  | .unlock c =>
    if w.phase c = .unlocking then some ({ w.leave with holder := none }.returns c .dropped) else none
  | .beginProbe c who => if w.phase c = .idle then some (w.beginCall c (.probing who)) else none
  | .symlinkMetadata c ok =>
    match w.phase c with
    | .probing who =>
      if !ok then some (w.setPhase c (.probed profileDir false false who))
      else if w.lockfile then some (w.setPhase c (.opening who))
      else none
    | _ => none
  | .openProbe c ok =>
    match w.phase c with
    | .opening who =>
      if ok then some (w.setPhase c (.probeOpened who))
      else some (w.setPhase c (.probed profileDir true true who))
    | _ => none
  | .probeLock c ok =>
    match w.phase c with
    | .probeOpened who =>
      if !ok then some (w.setPhase c (.probed profileDir true false who))
      else if w.holder = none then some ({ w with holder := some c }.setPhase c (.probeLocked who))
      else none
    | _ => none
  | .probeUnlock c =>
    match w.phase c with
    | .probeLocked who => some ({ w with holder := none }.setPhase c (.probed profileDir false false who))
    | _ => none
  | .readPid c ok =>
    match w.phase c with
    | .reading unopenable =>
      let owner := if ok then w.pidfile.map PidFile.pid else none
      some (w.returns c (.status ⟨true, Profile.lockfile profileDir, owner⟩ unopenable))
    | _ => none
  | .crash p => some (w.crash process p)

def step (w : ProbeWorld C P) (e : ProbeEvent C P) : Option (ProbeWorld C P) :=
  (w.act process profileDir e).map (witness process)

end

end ProbeWorld

end Afhttp.Profile

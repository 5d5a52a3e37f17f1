import Mathlib
import Afhttp.Profile.LockRuns

/-!
# Pruning a profile

`prune` of `sdk/profile/mod.rs`, on one of the profiles that it lists, over the system calls of the
profile's lock.  `list` and the clock come first, for all the profiles; then, for each in its turn,

    prune    list, readNow, metadata, remove_profile_dir

and hosts, other prunes and `delete` go on in between.  The directory's modification time follows
what comes and goes in the directory, and the taking and the release of a guard's lock.  `crashed`
is a history; no function of the source reads it.
-/

namespace Afhttp.Profile

/-! ## Who has the lock -/

/-- The drop is a host's. -/
def AfterDrop.ofHost : AfterDrop → Bool
  | returns (.ok _) => true
  | _ => false

/-- The party is a host that has the lock. -/
def LockPhase.hostHolds : LockPhase → Bool
  | locked .host _ | hosting _ => true
  | dropping _ next | unlocking _ next => next.ofHost
  | _ => false

/-- A lock is taken or released. -/
def LockEvent.guards {P : Type} : LockEvent P → Bool
  | tryLock _ none | unlock _ => true
  | _ => false

/-- Something in the directory is removed, or the directory. -/
def LockEvent.removes {P : Type} : LockEvent P → Bool
  | removeEntry .. | unlinkLockfile _ none | removeDir _ none => true
  | _ => false

namespace LockWorld

variable {P : Type}

def HostHolds (w : LockWorld P) : Prop := ∃ p, (w.phase p).hostHolds = true

instance [Fintype P] (w : LockWorld P) : Decidable w.HostHolds :=
  inferInstanceAs (Decidable (∃ p, (w.phase p).hostHolds = true))

/-- A host takes the lock with this call. -/
def HostTakes (w : LockWorld P) : LockEvent P → Bool
  | .tryLock p none =>
    match w.phase p with
    | .opened .host _ => true
    | _ => false
  | _ => false

end LockWorld

/-! ## Prune -/

/-- What `prune` has made of a profile. -/
inductive Pruned where
  | skipped
  | removed
  | failed (e : Error)
  deriving DecidableEq

/-- Where a call of `prune` stands with the profile. -/
inductive PruneStage where
  | outside
  | listed (olderThan : ℕ) (dryRun : Bool)
  | timed (olderThan : ℕ) (dryRun : Bool) (now : ℕ)
  /-- In `remove_profile_dir`. -/
  | removing (olderThan now : ℕ)
  | done (r : Pruned)
  deriving DecidableEq

namespace PruneStage

/-- `prune` may begin, or any other call. -/
def free : PruneStage → Bool
  | outside | done _ => true
  | _ => false

def inRemoval : PruneStage → Bool
  | removing .. => true
  | _ => false

/-- Whether the party makes this call where it stands. -/
def mayRun {P : Type} : PruneStage → LockEvent P → Bool
  | _, .crash _ => true
  | removing .., .createDir _ | removing .., .writeEntry .. | removing .., .openLockfile _ .host _ => false
  | removing .., _ => true
  | stage, _ => stage.free

/-- What `prune` makes of the end of `remove_profile_dir`. -/
def returned : Except Error Unit → Pruned
  | .ok () => .removed
  | .error e => if e.errorCode = .profileLocked then .skipped else .failed e

/-- Where the party stands after its call. -/
def after {P : Type} (stage : PruneStage) (e : LockEvent P) (φ : LockPhase) : PruneStage :=
  match e, stage, φ with
  | .crash _, _, _ => outside
  | _, removing .., .idle r => done (returned r)
  | _, stage, _ => stage

end PruneStage

structure PruneWorld (P : Type) where
  lock : LockWorld P
  clock : ℕ
  /-- The directory's modification time. -/
  modified : ℕ
  stage : P → PruneStage
  /-- When a host last ended with the lock. -/
  crashed : Option ℕ

inductive PruneEvent (P : Type) where
  /-- Time passes. -/
  | elapse (n : ℕ)
  | list (p : P) (olderThan : ℕ) (dryRun locked : Bool)
  | readNow (p : P)
  /-- `std::fs::metadata` and `modified` of the directory. -/
  | metadata (p : P) (ok : Bool)
  | lock (e : LockEvent P)

namespace PruneWorld

variable {P : Type} [DecidableEq P]

def start (P : Type) (dir : Option ProfileDir) (fresh : Inode) (clock modified : ℕ) : PruneWorld P :=
  ⟨.start P dir fresh, clock, modified, fun _ => .outside, none⟩

def setStage (w : PruneWorld P) (p : P) (stage : PruneStage) : PruneWorld P :=
  { w with stage := Function.update w.stage p stage }

/-- `now.duration_since(t)` is there, and is `older_than` at least. -/
def tooOld (w : PruneWorld P) (olderThan now : ℕ) : Bool :=
  decide (w.modified ≤ now) && decide (olderThan ≤ now - w.modified)

/-- The modification time after the call. -/
def touch (w : PruneWorld P) (e : LockEvent P) (lock : LockWorld P) : ℕ :=
  if e.guards = true ∨ w.lock.dir ≠ lock.dir then w.clock else w.modified

def recordCrash (w : PruneWorld P) : LockEvent P → Option ℕ
  | .crash p => if (w.lock.phase p).hostHolds then some w.clock else w.crashed
  | _ => w.crashed

def step (profileDir : String) (w : PruneWorld P) : PruneEvent P → Option (PruneWorld P)
  | .elapse n => some { w with clock := w.clock + n }
  | .list p olderThan dryRun locked =>
    match w.lock.phase p with
    | .idle _ =>
      if (w.stage p).free then
        some (w.setStage p (if locked then .done .skipped else .listed olderThan dryRun))
      else none
    | _ => none
  | .readNow p =>
    match w.stage p with
    | .listed olderThan dryRun => some (w.setStage p (.timed olderThan dryRun w.clock))
    | _ => none
  | .metadata p ok =>
    match w.stage p with
    | .timed olderThan dryRun now =>
      if !ok then some (w.setStage p (.done .skipped))
      else if w.lock.dir = none then none
      else if !w.tooOld olderThan now then some (w.setStage p (.done .skipped))
      else some (w.setStage p (if dryRun then .done .removed else .removing olderThan now))
    | _ => none
  | .lock e =>
    if (w.stage e.party).mayRun e then
      (w.lock.step profileDir e).map fun lock =>
        { w with
          lock := lock
          modified := w.touch e lock
          crashed := w.recordCrash e
          stage := Function.update w.stage e.party ((w.stage e.party).after e (lock.phase e.party)) }
    else none

end PruneWorld

end Afhttp.Profile

import Afhttp.Lib.RefCount
import Afhttp.Shared.Json

/-!
# Which connection holds which target

`host/listener/target_ledger.rs`: a `/cdp` connection reads off its frames which page
targets it holds.  `host/listener/mod.rs` keeps for all connections the count of the holders
of each target, and the orphans: the targets whose last holder ended without closing them.

The JSON parser is a parameter `parse` (`serde_json::from_str`).
-/

namespace Afhttp.Host

def maxInspectedResponseBytes : ℕ := 16 * 1024

/-- A change in which targets a connection holds. -/
inductive Holding where
  | took (target : String)
  | closed (target : String)
  deriving DecidableEq, Repr

structure TargetLedger where
  /-- The ids of the `Target.createTarget` requests awaiting their reply. -/
  pendingCreates : Finset ℕ
  /-- The targets the connection created or attached to, and has not closed. -/
  owned : Finset String
  deriving DecidableEq

/-- `TargetLedger::default`. -/
def TargetLedger.empty : TargetLedger := ⟨∅, ∅⟩

/-- `message["params"]["targetId"].as_str()`, and the same of `result`. -/
def targetIdOf (field : String) (message : Json) : Option String :=
  ((message.index field).index "targetId").asStr

namespace TargetLedger

/-- Start holding a target; reported unless it is held already. -/
def own (ledger : TargetLedger) (target : String) : TargetLedger × Option Holding :=
  if target ∈ ledger.owned then (ledger, none)
  else ({ ledger with owned := insert target ledger.owned }, some (.took target))

/-- Stop holding a target; reported if it was held. -/
def disown (ledger : TargetLedger) (target : String) : TargetLedger × Option Holding :=
  if target ∈ ledger.owned then
    ({ ledger with owned := ledger.owned.erase target }, some (.closed target))
  else (ledger, none)

section
variable (parse : String → Option Json)

/-- A frame on its way to the browser. -/
def observeRequest (ledger : TargetLedger) (frame : String) : TargetLedger × Option Holding :=
  match parse frame with
  | none => (ledger, none)
  | some message =>
    match (message.get "method").bind Json.asStr with
    | some "Target.createTarget" =>
      match (message.get "id").bind Json.asU64 with
      | some id => ({ ledger with pendingCreates := insert id ledger.pendingCreates }, none)
      | none => (ledger, none)
    | some "Target.closeTarget" =>
      match targetIdOf "params" message with
      | some target => ledger.disown target
      | none => (ledger, none)
    | some "Target.attachToTarget" =>
      match targetIdOf "params" message with
      | some target => ledger.own target
      | none => (ledger, none)
    | _ => (ledger, none)

/-- The id of the pending request that a frame from the browser answers, and the frame. -/
def settles (ledger : TargetLedger) (frame : String) : Option (ℕ × Json) :=
  if ledger.pendingCreates = ∅ ∨ maxInspectedResponseBytes < frame.utf8ByteSize then none
  else
    (parse frame).bind fun message => ((message.get "id").bind Json.asU64).bind fun id =>
      if id ∈ ledger.pendingCreates then some (id, message) else none

/-- A frame on its way back to the client.  An error reply settles its request too. -/
def observeResponse (ledger : TargetLedger) (frame : String) : TargetLedger × Option Holding :=
  match ledger.settles parse frame with
  | none => (ledger, none)
  | some (id, message) =>
    let ledger := { ledger with pendingCreates := ledger.pendingCreates.erase id }
    match targetIdOf "result" message with
    | some target => ledger.own target
    | none => (ledger, none)

end

/-- The targets left behind when the connection ends. -/
def intoOwned (ledger : TargetLedger) : Finset String := ledger.owned

/-! ## What one frame does to a ledger -/

/-- The three things a frame can do to what a connection holds. -/
inductive Observes (l l' : TargetLedger) : Option Holding → Prop where
  | quiet (owned : l'.owned = l.owned) : Observes l l' none
  | took (target : String) (new : target ∉ l.owned) (owned : l'.owned = insert target l.owned) :
    Observes l l' (some (.took target))
  | closed (target : String) (held : target ∈ l.owned) (owned : l'.owned = l.owned.erase target) :
    Observes l l' (some (.closed target))

theorem own_observes (l : TargetLedger) (target : String) : Observes l (l.own target).1 (l.own target).2 := by
  unfold own
  split
  · exact .quiet rfl
  · next h => exact .took target h rfl

theorem disown_observes (l : TargetLedger) (target : String) :
    Observes l (l.disown target).1 (l.disown target).2 := by
  unfold disown
  split
  · next h => exact .closed target h rfl
  · exact .quiet rfl

section
variable (parse : String → Option Json)

theorem observeRequest_observes (l : TargetLedger) (frame : String) :
    Observes l (l.observeRequest parse frame).1 (l.observeRequest parse frame).2 := by
  unfold observeRequest
  split
  · exact .quiet rfl
  · split
    · split <;> exact .quiet rfl
    · split
      · exact l.disown_observes _
      · exact .quiet rfl
    · split
      · exact l.own_observes _
      · exact .quiet rfl
    · exact .quiet rfl

theorem observeResponse_observes (l : TargetLedger) (frame : String) :
    Observes l (l.observeResponse parse frame).1 (l.observeResponse parse frame).2 := by
  unfold observeResponse
  split
  · exact .quiet rfl
  · next id message _ =>
    simp only []
    split
    · next target _ =>
      -- settling the request does not touch what is owned
      have h := own_observes { l with pendingCreates := l.pendingCreates.erase id } target
      generalize TargetLedger.own { l with pendingCreates := l.pendingCreates.erase id } target = r at h
      obtain ⟨l', holding⟩ := r
      cases h with
      | quiet owned => exact .quiet owned
      | took target new owned => exact .took target new owned
      | closed target held owned => exact .closed target held owned
    · exact .quiet rfl

end

end TargetLedger

/-- What the host keeps for all connections. -/
structure HeldTargets where
  /-- How many live connections hold each target; no entry for a target nobody holds. -/
  holders : String → Option ℕ
  orphaned : Finset String

def HeldTargets.empty : HeldTargets := ⟨fun _ => none, ∅⟩

/-- Drop one hold on `target`; `true` when none is left. -/
def release (holders : String → Option ℕ) (target : String) : (String → Option ℕ) × Bool :=
  match holders target with
  | some count =>
    if 1 < count then (Function.update holders target (some (count - 1)), false)
    else (Function.update holders target none, true)
  -- held by nobody this host counted
  | none => (holders, true)

theorem release_eq : release = RefCount.release (α := String) := rfl

namespace HeldTargets

def noteHolding (s : HeldTargets) : Option Holding → HeldTargets
  | some (.took target) =>
    { holders := Function.update s.holders target (some ((s.holders target).getD 0 + 1))
      orphaned := s.orphaned.erase target }
  | some (.closed target) => { s with holders := (release s.holders target).1 }
  | none => s

/-- Release the targets one after the other, and keep those that nobody holds then. -/
def orphans (holders : String → Option ℕ) : List String → (String → Option ℕ) × List String
  | [] => (holders, [])
  | target :: targets =>
    let r := release holders target
    let rest := orphans r.1 targets
    (rest.1, if r.2 then target :: rest.2 else rest.2)

theorem orphans_eq (holders : String → Option ℕ) (targets : List String) :
    orphans holders targets = RefCount.releaseAll holders targets := by
  induction targets generalizing holders with
  | nil => rfl
  | cons target targets ih => simp only [orphans, RefCount.releaseAll, ih, release_eq]

/-- A connection ended holding `targets`. -/
def releaseTargets (s : HeldTargets) (targets : List String) : HeldTargets :=
  let r := orphans s.holders targets
  { holders := r.1, orphaned := s.orphaned ∪ r.2.toFinset }

/-- Forget the orphans the browser no longer has. -/
def retainOrphanedTargets (s : HeldTargets) (live : Finset String) : HeldTargets :=
  { s with orphaned := s.orphaned.filter (· ∈ live) }

end HeldTargets

end Afhttp.Host

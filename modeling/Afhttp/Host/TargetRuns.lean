import Afhttp.Lib.Run
import Afhttp.Host.TargetLedger

/-!
# Ownership of targets, over whole runs

Any number of `/cdp` connections forward frames and end, in any order, and the orphans are
pruned at any time.  A connection is live from its start to its end, and has one ledger.

    the counts are the numbers of live owners, and no orphan has one          (Connections.Inv)
    the bookkeeping of every run, and of each step of it                      (ownership_kept)
-/

namespace Afhttp.Host

open RefCount

structure Connections (C : Type) where
  live : Finset C
  ended : Finset C
  ledger : C → TargetLedger
  targets : HeldTargets

inductive ConnectionEvent (C : Type) where
  | connect (c : C)
  | request (c : C) (frame : String)
  | response (c : C) (frame : String)
  /-- The connection ends; its targets are released in the given order. -/
  | close (c : C) (order : List String)
  | prune (live : Finset String)

/-- The connection a frame or an end is of. -/
def ConnectionEvent.party {C : Type} : ConnectionEvent C → Option C
  | connect c | request c _ | response c _ | close c _ => some c
  | prune _ => none

namespace Connections

variable {C : Type}

def start (C : Type) : Connections C := ⟨∅, ∅, fun _ => .empty, .empty⟩

/-- The live connections whose ledger owns the target. -/
def owners (w : Connections C) (T : String) : Finset C :=
  w.live.filter fun c => T ∈ (w.ledger c).owned

theorem mem_owners {w : Connections C} {T : String} {c : C} :
    c ∈ w.owners T ↔ c ∈ w.live ∧ T ∈ (w.ledger c).owned := Finset.mem_filter

variable [DecidableEq C]

/-- A frame of the connection was observed, with the given outcome. -/
def observed (w : Connections C) (c : C) (r : TargetLedger × Option Holding) : Connections C :=
  { w with ledger := Function.update w.ledger c r.1, targets := w.targets.noteHolding r.2 }

/-- The connection starts, with an empty ledger. -/
def connected (w : Connections C) (c : C) : Connections C :=
  { w with live := insert c w.live, ledger := Function.update w.ledger c .empty }

/-- The state after the end of a connection. -/
def closed (w : Connections C) (c : C) (order : List String) : Connections C :=
  { w with
    live := w.live.erase c
    ended := insert c w.ended
    targets := w.targets.releaseTargets order }

def step (parse : String → Option Json) (w : Connections C) : ConnectionEvent C → Option (Connections C)
  | .connect c =>
    if c ∈ w.live ∨ c ∈ w.ended then none
    else some (w.connected c)
  | .request c frame =>
    if c ∈ w.live then some (w.observed c ((w.ledger c).observeRequest parse frame)) else none
  | .response c frame =>
    if c ∈ w.live then some (w.observed c ((w.ledger c).observeResponse parse frame)) else none
  | .close c order =>
    if c ∈ w.live ∧ order.Nodup ∧ order.toFinset = (w.ledger c).intoOwned then
      some (w.closed c order)
    else none
  | .prune live => some { w with targets := w.targets.retainOrphanedTargets live }

/-! ## What a step can do -/

inductive Change (w : Connections C) : ConnectionEvent C → Connections C → Prop where
  | connects (c : C) (new : c ∉ w.live) (fresh : c ∉ w.ended) : Change w (.connect c) (w.connected c)
  /-- A frame of a live connection, in either direction. -/
  | observes (e : ConnectionEvent C) (c : C)
      (event : ∃ frame, e = .request c frame ∨ e = .response c frame) (live : c ∈ w.live)
      (r : TargetLedger × Option Holding) (frame : TargetLedger.Observes (w.ledger c) r.1 r.2) :
      Change w e (w.observed c r)
  | ends (c : C) (order : List String) (live : c ∈ w.live) (nodup : order.Nodup)
      (all : order.toFinset = (w.ledger c).owned) : Change w (.close c order) (w.closed c order)
  | prunes (live : Finset String) :
      Change w (.prune live) { w with targets := w.targets.retainOrphanedTargets live }

theorem step_change {parse : String → Option Json} {w w' : Connections C} {e : ConnectionEvent C}
    (h : w.step parse e = some w') : Change w e w' := by
  cases e with
  | connect c =>
    simp only [step] at h
    split at h
    · cases h
    · next hc =>
      cases h
      exact .connects c (fun h => hc (Or.inl h)) fun h => hc (Or.inr h)
  | request c frame =>
    simp only [step] at h
    split at h
    · next hc =>
      cases h
      exact .observes _ c ⟨frame, by simp⟩ hc _ (TargetLedger.observeRequest_observes parse _ _)
    · cases h
  | response c frame =>
    simp only [step] at h
    split at h
    · next hc =>
      cases h
      exact .observes _ c ⟨frame, by simp⟩ hc _ (TargetLedger.observeResponse_observes parse _ _)
    · cases h
  | close c order =>
    simp only [step] at h
    split at h
    · next hc =>
      cases h
      exact .ends c order hc.1 hc.2.1 hc.2.2
    · cases h
  | prune live =>
    cases h
    exact .prunes live

/-! ## What a step does to the owners -/

theorem owners_connected {w : Connections C} {c : C} (hc : c ∉ w.live) (T : String) :
    (w.connected c).owners T = w.owners T := by
  ext c'
  rw [mem_owners, mem_owners]
  by_cases h : c' = c
  · subst h
    have hl : (w.connected c').ledger c' = .empty := Function.update_self ..
    rw [hl]
    exact ⟨fun h => absurd h.2 (Finset.notMem_empty T), fun h => absurd h.1 hc⟩
  · have hl : (w.connected c).ledger c' = w.ledger c' := Function.update_of_ne h ..
    rw [hl]
    show c' ∈ insert c w.live ∧ _ ↔ _
    rw [Finset.mem_insert, or_iff_right h]

theorem owners_observed {w : Connections C} {c : C} (hc : c ∈ w.live) (r : TargetLedger × Option Holding)
    (T : String) :
    (w.observed c r).owners T = if T ∈ r.1.owned then insert c (w.owners T) else (w.owners T).erase c := by
  ext c'
  by_cases h : c' = c
  · subst h
    have hl : (w.observed c' r).ledger c' = r.1 := Function.update_self ..
    rw [mem_owners, hl]
    split
    · next ht => exact ⟨fun _ => Finset.mem_insert_self .., fun _ => ⟨hc, ht⟩⟩
    · next ht => exact ⟨fun h => absurd h.2 ht, fun h => absurd rfl (Finset.mem_erase.mp h).1⟩
  · have hl : (w.observed c r).ledger c' = w.ledger c' := Function.update_of_ne h ..
    rw [mem_owners, hl]
    show c' ∈ w.live ∧ _ ↔ _
    rw [← mem_owners]
    split
    · simp [h]
    · simp [h]

/-- **Bookkeeping.**  The counts are the numbers of the live owners; an orphan has none. -/
structure Inv (w : Connections C) : Prop where
  counted : Represents w.targets.holders fun T => (w.owners T).card
  apart : ∀ T ∈ w.targets.orphaned, w.owners T = ∅

omit [DecidableEq C] in
theorem Inv.start : (start C).Inv where
  counted := Represents.empty
  apart T h := absurd h (Finset.notMem_empty T)

omit [DecidableEq C] in
theorem Inv.not_orphan {w : Connections C} (hw : w.Inv) {T : String} {c : C} (hc : c ∈ w.owners T) :
    T ∉ w.targets.orphaned := by
  intro h
  rw [hw.apart T h] at hc
  cases hc

omit [DecidableEq C] in
/-- With the same owners and counts, and no new orphans. -/
theorem Inv.congr {w w' : Connections C} (hw : w.Inv) (ho : ∀ T, w'.owners T = w.owners T)
    (hh : w'.targets.holders = w.targets.holders)
    (hs : w'.targets.orphaned ⊆ w.targets.orphaned) : w'.Inv where
  counted := by
    rw [hh]
    exact hw.counted.congr fun T => by rw [ho T]
  apart T h := by
    rw [ho T]
    exact hw.apart T (hs h)

/-- **Frame step.** -/
theorem Inv.observed {w : Connections C} (hw : w.Inv) {c : C} (hc : c ∈ w.live)
    {r : TargetLedger × Option Holding} (hr : TargetLedger.Observes (w.ledger c) r.1 r.2) :
    (w.observed c r).Inv := by
  have own : ∀ T, c ∈ w.owners T ↔ T ∈ (w.ledger c).owned :=
    fun T => mem_owners.trans ⟨fun h => h.2, fun h => ⟨hc, h⟩⟩
  -- a target about which the frame says nothing keeps its owners
  have same : ∀ T, (T ∈ r.1.owned ↔ T ∈ (w.ledger c).owned) → (w.observed c r).owners T = w.owners T := by
    intro T hT
    rw [owners_observed hc]
    split
    · next h => exact Finset.insert_eq_of_mem ((own T).mpr (hT.mp h))
    · next h => exact Finset.erase_eq_of_notMem fun h' => h (hT.mpr ((own T).mp h'))
  obtain ⟨l', holding⟩ := r
  cases hr with
  | quiet owned =>
    have ho : l'.owned = (w.ledger c).owned := owned
    exact hw.congr (fun T => same T (by rw [ho])) rfl (Finset.Subset.refl _)
  | took t new owned =>
    have ho : l'.owned = insert t (w.ledger c).owned := owned
    have hsame : ∀ T, T ≠ t → (w.observed c (l', some (.took t))).owners T = w.owners T :=
      fun T hT => same T (by rw [ho, Finset.mem_insert, or_iff_right hT])
    have ht : (w.observed c (l', some (.took t))).owners t = insert c (w.owners t) := by
      have hin : t ∈ l'.owned := by
        rw [ho]
        exact Finset.mem_insert_self t _
      rw [owners_observed hc, if_pos hin]
    have hcard : ((w.observed c (l', some (.took t))).owners t).card = (w.owners t).card + 1 := by
      rw [ht, Finset.card_insert_of_notMem fun h => new ((own t).mp h)]
    constructor
    · refine (hw.counted.take t).congr fun T => ?_
      by_cases hT : T = t
      · subst hT
        rw [hcard, Function.update_self]
      · rw [hsame T hT, Function.update_of_ne hT]
    · intro T hT
      obtain ⟨hne, hT⟩ := Finset.mem_erase.mp hT
      rw [hsame T hne]
      exact hw.apart T hT
  | closed t held owned =>
    have ho : l'.owned = (w.ledger c).owned.erase t := owned
    have hsame : ∀ T, T ≠ t → (w.observed c (l', some (.closed t))).owners T = w.owners T :=
      fun T hT => same T (by rw [ho, Finset.mem_erase, and_iff_right hT])
    have hmem : c ∈ w.owners t := (own t).mpr held
    have hcard : ((w.observed c (l', some (.closed t))).owners t).card = (w.owners t).card - 1 := by
      have hno : t ∉ l'.owned := by
        rw [ho]
        exact Finset.notMem_erase t _
      rw [owners_observed hc, if_neg hno, Finset.card_erase_of_mem hmem]
    have hpos : (w.owners t).card ≠ 0 := Finset.card_ne_zero_of_mem hmem
    constructor
    · refine (hw.counted.release hpos).1.congr fun T => ?_
      by_cases hT : T = t
      · subst hT
        rw [hcard, Function.update_self]
      · rw [hsame T hT, Function.update_of_ne hT]
    · intro T hT
      have hne : T ≠ t := by
        rintro rfl
        exact hw.not_orphan hmem hT
      rw [hsame T hne]
      exact hw.apart T hT

theorem owners_closed (w : Connections C) (c : C) (order : List String) (T : String) :
    (w.closed c order).owners T = (w.owners T).erase c := by
  ext c'
  rw [mem_owners, Finset.mem_erase, mem_owners]
  show c' ∈ w.live.erase c ∧ _ ↔ _
  rw [Finset.mem_erase, and_assoc]
  exact Iff.rfl

/-- **Which targets a connection leaves behind** as orphans: those it alone owned. -/
theorem Inv.orphaned_closed {w : Connections C} (hw : w.Inv) {c : C} {order : List String} (hc : c ∈ w.live)
    (hn : order.Nodup) (ho : order.toFinset = (w.ledger c).owned) (T : String) :
    T ∈ (w.closed c order).targets.orphaned ↔
      T ∈ w.targets.orphaned ∨ (T ∈ (w.ledger c).owned ∧ (w.owners T).erase c = ∅) := by
  have hmem : ∀ T, T ∈ order ↔ c ∈ w.owners T := by
    intro T
    rw [← List.mem_toFinset, ho, mem_owners]
    exact ⟨fun h => ⟨hc, h⟩, fun h => h.2⟩
  have hrel := hw.counted.releaseAll hn fun T hT => Finset.card_ne_zero_of_mem ((hmem T).mp hT)
  show T ∈ w.targets.orphaned ∪ (HeldTargets.orphans w.targets.holders order).2.toFinset ↔ _
  rw [Finset.mem_union, List.mem_toFinset, HeldTargets.orphans_eq, hrel.2 T, ← List.mem_toFinset, ho]
  refine or_congr_right (and_congr_right fun hT => ?_)
  rw [← Finset.card_eq_zero, Finset.card_erase_of_mem (mem_owners.mpr ⟨hc, hT⟩)]
  have hpos := Finset.card_ne_zero_of_mem (mem_owners.mpr ⟨hc, hT⟩ : c ∈ w.owners T)
  omega

theorem Inv.closed {w : Connections C} (hw : w.Inv) {c : C} {order : List String} (hc : c ∈ w.live)
    (hn : order.Nodup) (ho : order.toFinset = (w.ledger c).owned) : (w.closed c order).Inv := by
  have hmem : ∀ T, T ∈ order ↔ c ∈ w.owners T := by
    intro T
    rw [← List.mem_toFinset, ho, mem_owners]
    exact ⟨fun h => ⟨hc, h⟩, fun h => h.2⟩
  have hrel := hw.counted.releaseAll hn fun T hT => Finset.card_ne_zero_of_mem ((hmem T).mp hT)
  constructor
  · show Represents (HeldTargets.orphans w.targets.holders order).1 _
    rw [HeldTargets.orphans_eq]
    refine hrel.1.congr fun T => ?_
    rw [owners_closed]
    split
    · next hT => exact Finset.card_erase_of_mem ((hmem T).mp hT)
    · next hT => rw [Finset.erase_eq_of_notMem fun h => hT ((hmem T).mpr h)]
  · intro T hT
    rw [owners_closed]
    rcases (hw.orphaned_closed hc hn ho T).mp hT with hT | hT
    · rw [hw.apart T hT]
      rfl
    · exact hT.2

/-- **Step.** -/
theorem Inv.step {parse : String → Option Json} {w w' : Connections C} {e : ConnectionEvent C} (hw : w.Inv)
    (h : w.step parse e = some w') : w'.Inv := by
  cases step_change h with
  | connects c new => exact hw.congr (owners_connected new) rfl (Finset.Subset.refl _)
  | observes _ c _ live r frame => exact hw.observed live frame
  | ends c order live nodup all => exact hw.closed live nodup all
  | prunes live => exact hw.congr (fun T => rfl) rfl (Finset.filter_subset _ _)

/-! ## Runs -/

/-- At the end of a connection: which of its targets are orphans, and that nothing else of
the orphans changes. -/
def OrphansAtEnd (w w' : Connections C) : ConnectionEvent C → Prop
  | .close c _ => ∀ T,
    (T ∈ (w.ledger c).owned → (T ∈ w'.targets.orphaned ↔ ∀ c' ∈ w.live, c' ≠ c → T ∉ (w.ledger c').owned)) ∧
    (T ∉ (w.ledger c).owned → (T ∈ w'.targets.orphaned ↔ T ∈ w.targets.orphaned))
  | _ => True

theorem Inv.orphansAtEnd {parse : String → Option Json} {w w' : Connections C} {e : ConnectionEvent C}
    (hw : w.Inv) (h : w.step parse e = some w') : w.OrphansAtEnd w' e := by
  cases step_change h with
  | ends c order live nodup all =>
    intro T
    have hiff := hw.orphaned_closed live nodup all T
    constructor
    · intro hT
      have hnot := hw.not_orphan (mem_owners.mpr ⟨live, hT⟩)
      refine hiff.trans ?_
      rw [or_iff_right hnot, and_iff_right hT, Finset.eq_empty_iff_forall_notMem]
      constructor
      · intro he c' hl hne ht
        exact he c' (Finset.mem_erase.mpr ⟨hne, mem_owners.mpr ⟨hl, ht⟩⟩)
      · intro ha c' hm
        obtain ⟨hne, hm⟩ := Finset.mem_erase.mp hm
        obtain ⟨hl, ht⟩ := mem_owners.mp hm
        exact ha c' hl hne ht
    · intro hT
      exact hiff.trans (or_iff_left fun h => hT h.1)
  | observes e c event =>
    obtain ⟨frame, rfl | rfl⟩ := event
    · trivial
    · trivial
  | _ => trivial

/-- A connection that takes a target stays live. -/
theorem live_of_took {parse : String → Option Json} {w w' : Connections C} {e : ConnectionEvent C}
    (h : w.step parse e = some w') {c : C} (hc : c ∈ w.live) {T : String} (hno : T ∉ (w.ledger c).owned)
    (hT : T ∈ (w'.ledger c).owned) : c ∈ w'.live := by
  cases step_change h with
  | connects c' => exact Finset.mem_insert_of_mem hc
  | observes _ _ _ _ _ _ => exact hc
  | ends c' order => exact absurd hT hno
  | prunes live => exact hc

/-- **The bookkeeping of every run.**  The count of each target is the number of the live
connections that own it; no target is both held and an orphan; at the end of a connection
its targets become orphans exactly if no other live connection owns them; and a target that
a connection takes is no orphan. -/
theorem ownership_kept (parse : String → Option Json) {es : List (ConnectionEvent C)} {w : Connections C}
    (hrun : Run.run (step parse) (start C) es = some w) :
    (∀ T, (w.targets.holders T).getD 0 = (w.owners T).card) ∧
    (∀ T, 0 < (w.targets.holders T).getD 0 → T ∉ w.targets.orphaned) ∧
    ∀ e w', w.step parse e = some w' → w.OrphansAtEnd w' e ∧
      ∀ c ∈ w.live, ∀ T, T ∉ (w.ledger c).owned → T ∈ (w'.ledger c).owned → T ∉ w'.targets.orphaned := by
  have hw : w.Inv := Run.run_invariant (step parse) Inv.start (fun s e s' hi h => hi.step h) hrun
  refine ⟨hw.counted.getD, fun T hpos hT => ?_, fun e w' h => ⟨hw.orphansAtEnd h, fun c hc T hno hT => ?_⟩⟩
  · rw [hw.counted.getD, hw.apart T hT] at hpos
    exact absurd hpos (Nat.lt_irrefl 0)
  · have hc' : c ∈ w'.owners T := mem_owners.mpr ⟨live_of_took h hc hno hT, hT⟩
    exact (hw.step h).not_orphan hc'

end Connections

/-! ## Frames for the runs on fixed inputs -/

def createFrame : String := "\x7b\"id\":1,\"method\":\"Target.createTarget\"\x7d"

def createdFrame : String := "\x7b\"id\":1,\"result\":\x7b\"targetId\":\"T\"\x7d\x7d"

def attachFrame : String :=
  "\x7b\"id\":2,\"method\":\"Target.attachToTarget\",\"params\":\x7b\"targetId\":\"T\"\x7d\x7d"

def closeFrame : String :=
  "\x7b\"id\":3,\"method\":\"Target.closeTarget\",\"params\":\x7b\"targetId\":\"T\"\x7d\x7d"

/-- What the JSON parser gives for these frames. -/
def parseFrame (frame : String) : Option Json :=
  if frame = createFrame then some (.obj [("id", .posInt 1), ("method", .str "Target.createTarget")])
  else if frame = createdFrame then
    some (.obj [("id", .posInt 1), ("result", .obj [("targetId", .str "T")])])
  else if frame = attachFrame then
    some (.obj [("id", .posInt 2), ("method", .str "Target.attachToTarget"),
      ("params", .obj [("targetId", .str "T")])])
  else if frame = closeFrame then
    some (.obj [("id", .posInt 3), ("method", .str "Target.closeTarget"),
      ("params", .obj [("targetId", .str "T")])])
  else none

/-- One connection creates a target, a second attaches to it, and both end. -/
def sharedTarget : List (ConnectionEvent ℕ) :=
  [.connect 0, .request 0 createFrame, .response 0 createdFrame, .connect 1, .request 1 attachFrame,
   .request 1 attachFrame, .close 1 ["T"], .close 0 ["T"]]

theorem ownership_kept_sharedTarget :
    ∃ w, Run.run (Connections.step parseFrame) (Connections.start ℕ) (sharedTarget.take 6) = some w ∧
      (w.targets.holders "T").getD 0 = (w.owners "T").card ∧ (w.owners "T").card = 2 := by
  have hf : (Run.run (Connections.step parseFrame) (Connections.start ℕ) (sharedTarget.take 6)).map
      (fun w => (w.owners "T").card) = some 2 := by decide
  obtain ⟨w, hw, hc⟩ := Option.map_eq_some_iff.mp hf
  exact ⟨w, hw, (Connections.ownership_kept parseFrame hw).1 "T", hc⟩

example : (Run.run (Connections.step parseFrame) (Connections.start ℕ) sharedTarget).map
    (fun w => w.targets.orphaned) = some {"T"} := by decide

end Afhttp.Host

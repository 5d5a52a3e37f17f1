import Afhttp.Host.ReaperRuns

/-!
# How long the reaper waits

`sweep` of `host/reaper.rs` once more, as one function of the clocks it is given and of what
it observes on its way, and any sequence of sweeps, whatever each of them observes.

    HostWorld.beginSweep = Tracker.beginSweep       (beginSweep_eq)
    HostWorld.afterTargets = Tracker.listed         (afterTargets_eq)
    a clock that runs was started by a list         (Watch.Inv.step)
    a full timeout before each close, but for one
    branch that leaves the clocks of tabs a client
    may be driving                                  (closed_in_grace, failed_sweep_closes)
-/

namespace Afhttp.Host

/-! ## The clocks of a sweep -/

namespace Tracker

/-- The clocks when the sweep comes to its first await, and whether it does. -/
def beginSweep (tracker : Tracker) (wsUrl : Option String) (credentials : Bool) (snap : Snapshot) :
    Tracker × Bool :=
  match wsUrl with
  | none => (tracker.clear, false)
  | some wsUrl =>
    if credentials then (tracker.clear, false)
    else
      let tracker := if tracker.wsUrl ≠ wsUrl then ⟨wsUrl, fun _ => none⟩ else tracker
      if snap.driverConnected && decide (snap.orphans = ∅) then (tracker.clear, false)
      else (tracker, true)

/-- The clocks after the loop over the listed targets, and the targets whose clock has run out. -/
def listed (tracker : Tracker) (idleTimeout now : ℕ) (snap : Snapshot) (response : Json) :
    Tracker × List String :=
  let r := classifyAll snap idleTimeout now tracker response
  (⟨tracker.wsUrl, fun id => if id ∈ r.seen then r.idleSince id else none⟩, r.expired)

def forget (tracker : Tracker) (ids : List String) : Tracker :=
  { tracker with idleSince := fun id => if id ∈ ids then none else tracker.idleSince id }

end Tracker

/-- What a sweep observes, in the order in which it looks. -/
structure Observation where
  /-- When the sweep starts. -/
  started : ℕ
  /-- The address of the active profile's browser. -/
  wsUrl : Option String
  /-- A takeover credential is live. -/
  credentials : Bool
  clients : ℕ
  orphans : Finset String
  connected : Bool
  response : Option Json
  /-- When it has the list, or gives up. -/
  now : ℕ
  /-- The targets whose close succeeds. -/
  closed : String → Bool

def Observation.snapshot (o : Observation) : Snapshot := ⟨decide (0 < o.clients), o.orphans⟩

/-- The list that the browser has for the sweep. -/
def Observation.obtains (o : Observation) : Option Json := if o.connected then o.response else none

/-- `sweep`: the clocks it leaves, and the targets it closes or tries to. -/
def sweep (idleTimeout : ℕ) (tracker : Tracker) (o : Observation) : Tracker × List String :=
  let begun := tracker.beginSweep o.wsUrl o.credentials o.snapshot
  if !begun.2 then (begun.1, [])
  else
    match o.obtains with
    | none => (begun.1, [])
    | some response =>
      let r := begun.1.listed idleTimeout o.now o.snapshot response
      (r.1.forget (r.2.filter o.closed), r.2)

namespace HostWorld

variable {C : Type} [DecidableEq C]

omit [DecidableEq C] in
theorem beginSweep_eq (w : HostWorld C) (credentials : Bool) :
    let snap : Snapshot := ⟨decide (0 < w.guards.card), w.conns.targets.orphaned⟩
    let begun := w.tracker.beginSweep w.wsUrl credentials snap
    w.beginSweep credentials =
      if begun.2 then { w with tracker := begun.1, phase := .connecting snap, takenSince := fun _ => ∅ }
      else { w with tracker := begun.1 } := by
  unfold HostWorld.beginSweep Tracker.beginSweep
  cases w.wsUrl with
  | none => rfl
  | some wsUrl =>
    cases credentials with
    | true => rfl
    | false =>
      simp only [Bool.false_eq_true, if_false]
      split <;> rfl

omit [DecidableEq C] in
theorem afterTargets_eq (idleTimeout : ℕ) (w : HostWorld C) (snap : Snapshot) (response : Json) :
    (w.afterTargets idleTimeout snap response).tracker =
        (w.tracker.listed idleTimeout w.now snap response).1 ∧
      (w.afterTargets idleTimeout snap response).phase =
        .next snap (w.tracker.listed idleTimeout w.now snap response).2 :=
  ⟨rfl, rfl⟩

end HostWorld

/-! ## What a sweep does to one clock -/

/-- The list shows the target as a page the reaper may close. -/
def Shows (response : Json) (T : String) : Prop :=
  ∃ target ∈ pageTargets response, target.id = T ∧ isReapableUrl target.url = true

/-- A clock after the loop: it ran before it, or starts now. -/
theorem classified_clock (snap : Snapshot) (idleTimeout now : ℕ) (targets : List PageTarget) (acc : Classified)
    {T : String} {s : ℕ} (h : (targets.foldl (classify snap idleTimeout now) acc).idleSince T = some s) :
    (acc.idleSince T = some s ∧
        ∀ target ∈ targets, target.id = T → isReapableUrl target.url = true ∧ snap.Suspects T) ∨
      (s = now ∧ ∃ target ∈ targets, target.id = T ∧ isReapableUrl target.url = true ∧ snap.Suspects T) := by
  induction targets generalizing acc with
  | nil => exact Or.inl ⟨h, fun target ht => absurd ht List.not_mem_nil⟩
  | cons target targets ih =>
    rw [List.foldl_cons] at h
    rcases ih _ h with ⟨hacc, hall⟩ | ⟨hs, t, ht, hT⟩
    · by_cases hid : target.id = T
      · rcases classify_cases snap idleTimeout now acc target with ⟨hc, -⟩ | ⟨hurl, hl, hc, -⟩
        · rw [hc, hid, Function.update_self] at hacc
          cases hacc
        · rw [hid] at hl
          rw [hc, hid, Function.update_self, Option.some.injEq] at hacc
          cases hold : acc.idleSince T with
          | none =>
            rw [hold, Option.getD_none] at hacc
            exact Or.inr ⟨hacc.symm, target, List.mem_cons_self, hid, hurl, hl⟩
          | some s' =>
            rw [hold, Option.getD_some] at hacc
            refine Or.inl ⟨congrArg some hacc, fun t ht hT => ?_⟩
            rcases List.mem_cons.mp ht with rfl | ht
            · exact ⟨hurl, hl⟩
            · exact hall t ht hT
      · have hsame : acc.idleSince T = some s := by
          rcases classify_cases snap idleTimeout now acc target with ⟨hc, -⟩ | ⟨-, -, hc, -⟩
          · rwa [hc, Function.update_of_ne (Ne.symm hid)] at hacc
          · rwa [hc, Function.update_of_ne (Ne.symm hid)] at hacc
        refine Or.inl ⟨hsame, fun t ht hT => ?_⟩
        rcases List.mem_cons.mp ht with rfl | ht
        · exact absurd hT hid
        · exact hall t ht hT
    · exact Or.inr ⟨hs, t, List.mem_cons_of_mem _ ht, hT⟩

/-- A target that expires is listed, and its clock, from before or from now, has run out. -/
theorem classified_expired (snap : Snapshot) (idleTimeout now : ℕ) (targets : List PageTarget) (acc : Classified)
    {T : String} (h : T ∈ (targets.foldl (classify snap idleTimeout now) acc).expired) :
    T ∈ acc.expired ∨ ∃ s, idleTimeout ≤ now - s ∧ (acc.idleSince T = some s ∨ s = now) ∧
      ∃ target ∈ targets, target.id = T ∧ isReapableUrl target.url = true ∧ snap.Suspects T := by
  induction targets generalizing acc with
  | nil => exact Or.inl h
  | cons target targets ih =>
    rw [List.foldl_cons] at h
    rcases ih _ h with hexp | ⟨s, hs, hclock, t, ht, hT⟩
    · rcases classify_cases snap idleTimeout now acc target with ⟨-, he⟩ | ⟨hurl, hl, -, he⟩
      · rw [he] at hexp
        exact Or.inl hexp
      · rw [he] at hexp
        split at hexp
        · next hrun =>
          rcases List.mem_append.mp hexp with hexp | hexp
          · exact Or.inl hexp
          · obtain rfl : T = target.id := List.mem_singleton.mp hexp
            refine Or.inr ⟨_, hrun, ?_, target, List.mem_cons_self, rfl, hurl, hl⟩
            cases hold : acc.idleSince target.id with
            | none => exact Or.inr rfl
            | some s => exact Or.inl rfl
        · exact Or.inl hexp
    · refine Or.inr ⟨s, hs, ?_, t, List.mem_cons_of_mem _ ht, hT⟩
      rcases hclock with hclock | hclock
      · by_cases hid : target.id = T
        · rcases classify_cases snap idleTimeout now acc target with ⟨hc, -⟩ | ⟨-, -, hc, -⟩
          · rw [hc, hid, Function.update_self] at hclock
            cases hclock
          · rw [hc, hid, Function.update_self, Option.some.injEq] at hclock
            cases hold : acc.idleSince T with
            | none =>
              rw [hold, Option.getD_none] at hclock
              exact Or.inr hclock.symm
            | some s' =>
              rw [hold, Option.getD_some] at hclock
              exact Or.inl (congrArg some hclock)
        · left
          rcases classify_cases snap idleTimeout now acc target with ⟨hc, -⟩ | ⟨-, -, hc, -⟩
          · rwa [hc, Function.update_of_ne (Ne.symm hid)] at hclock
          · rwa [hc, Function.update_of_ne (Ne.symm hid)] at hclock
      · exact Or.inr hclock

namespace Tracker

/-- A clock that still runs at the first await: the sweep has left all clocks as they were. -/
theorem beginSweep_clock {tracker : Tracker} {wsUrl : Option String} {credentials : Bool} {snap : Snapshot}
    {T : String} {s : ℕ} (h : (tracker.beginSweep wsUrl credentials snap).1.idleSince T = some s) :
    tracker.beginSweep wsUrl credentials snap = (tracker, true) ∧ wsUrl = some tracker.wsUrl ∧
      credentials = false ∧ (snap.driverConnected = true → snap.orphans ≠ ∅) := by
  unfold beginSweep at h ⊢
  cases wsUrl with
  | none => cases h
  | some wsUrl =>
    cases credentials with
    | true => cases h
    | false =>
      simp only [Bool.false_eq_true, if_false] at h ⊢
      by_cases hquiet : (snap.driverConnected && decide (snap.orphans = ∅)) = true
      · rw [if_pos hquiet] at h
        cases h
      · rw [if_neg hquiet] at h ⊢
        by_cases hurl : tracker.wsUrl ≠ wsUrl
        · rw [if_pos hurl] at h
          cases h
        · rw [if_neg hurl]
          rw [not_not] at hurl
          refine ⟨rfl, congrArg some hurl.symm, trivial, fun hd ho => hquiet ?_⟩
          rw [hd, ho]
          rfl

theorem beginSweep_true {tracker : Tracker} {wsUrl : Option String} {credentials : Bool} {snap : Snapshot}
    (h : (tracker.beginSweep wsUrl credentials snap).2 = true) :
    wsUrl = some (tracker.beginSweep wsUrl credentials snap).1.wsUrl ∧ credentials = false := by
  unfold beginSweep at h ⊢
  cases wsUrl with
  | none => cases h
  | some wsUrl =>
    cases credentials with
    | true => cases h
    | false =>
      simp only [Bool.false_eq_true, if_false] at h ⊢
      split at h
      · cases h
      · next hquiet =>
        rw [if_neg hquiet]
        by_cases hurl : tracker.wsUrl ≠ wsUrl
        · rw [if_pos hurl]
          exact ⟨rfl, trivial⟩
        · rw [if_neg hurl]
          rw [not_not] at hurl
          exact ⟨congrArg some hurl.symm, trivial⟩

variable {tracker : Tracker} {idleTimeout now : ℕ} {snap : Snapshot} {response : Json} {T : String} {s : ℕ}

/-- A clock after the list: the list shows its target, and it ran before or starts now. -/
theorem listed_clock (h : (tracker.listed idleTimeout now snap response).1.idleSince T = some s) :
    Shows response T ∧ snap.Suspects T ∧ (tracker.idleSince T = some s ∨ s = now) := by
  have hclock : (if T ∈ (classifyAll snap idleTimeout now tracker response).seen then
      (classifyAll snap idleTimeout now tracker response).idleSince T else none) = some s := h
  split at hclock
  · next hseen =>
    rcases classified_clock snap idleTimeout now (pageTargets response) ⟨tracker.idleSince, ∅, []⟩ hclock with
      ⟨hold, hall⟩ | ⟨hs, target, ht, hid, hurl, hsus⟩
    · obtain ⟨target, ht, hid⟩ := List.mem_map.mp ((mem_seen snap idleTimeout now tracker response T).mp hseen)
      obtain ⟨hurl, hsus⟩ := hall target ht hid
      exact ⟨⟨target, ht, hid, hurl⟩, hsus, Or.inl hold⟩
    · exact ⟨⟨target, ht, hid, hurl⟩, hsus, Or.inr hs⟩
  · cases hclock

theorem listed_expired (h : T ∈ (tracker.listed idleTimeout now snap response).2) :
    Shows response T ∧ snap.Suspects T ∧
      ∃ s, idleTimeout ≤ now - s ∧ (tracker.idleSince T = some s ∨ s = now) := by
  rcases classified_expired snap idleTimeout now (pageTargets response) ⟨tracker.idleSince, ∅, []⟩ h with
    hnil | ⟨s, hs, hclock, target, ht, hid, hurl, hsus⟩
  · exact absurd hnil List.not_mem_nil
  · exact ⟨⟨target, ht, hid, hurl⟩, hsus, s, hs, hclock⟩

theorem forget_clock {ids : List String} (h : (tracker.forget ids).idleSince T = some s) :
    tracker.idleSince T = some s := by
  have hclock : (if T ∈ ids then none else tracker.idleSince T) = some s := h
  split at hclock
  · cases hclock
  · exact hclock

end Tracker

namespace Observation

/-- The sweep has a list that shows the target. -/
def Sees (o : Observation) (T : String) : Prop := ∃ response, o.obtains = some response ∧ Shows response T

/-- What stops the clock of a target in a sweep that finds a client: that there are no
orphans at all, or a list, unless the target is an orphan. -/
def Resets (o : Observation) (T : String) : Prop := o.orphans = ∅ ∨ o.obtains.isSome = true ∧ T ∉ o.orphans

/-- The sweep has left the clock of the target running. -/
structure Keeps (o : Observation) (wsUrl T : String) : Prop where
  browser : o.wsUrl = some wsUrl
  human : o.credentials = false
  seen : o.obtains.isSome = true → o.Sees T
  driver : 0 < o.clients → ¬ o.Resets T

/-- A sweep that has a list leaves the clocks of the loose targets on it. -/
theorem Keeps.of_listed {o : Observation} {wsUrl T : String} (hb : o.wsUrl = some wsUrl)
    (hh : o.credentials = false) (hs : o.Sees T) (hl : o.snapshot.Suspects T) : o.Keeps wsUrl T where
  browser := hb
  human := hh
  seen _ := hs
  driver hc := by
    have horphan : T ∈ o.orphans := by
      rcases hl with hd | ho
      · exact absurd hc (of_decide_eq_false hd)
      · exact ho
    rintro (hnone | ⟨-, hno⟩)
    · rw [hnone] at horphan
      exact Finset.notMem_empty T horphan
    · exact hno horphan

end Observation

/-- A clock that a sweep leaves running. -/
theorem sweep_clock {idleTimeout : ℕ} {tracker : Tracker} {o : Observation} {T : String} {s : ℕ}
    (h : (sweep idleTimeout tracker o).1.idleSince T = some s) :
    o.Keeps (sweep idleTimeout tracker o).1.wsUrl T ∧
      (tracker.idleSince T = some s ∧ (sweep idleTimeout tracker o).1.wsUrl = tracker.wsUrl ∨
        s = o.now ∧ o.Sees T) := by
  unfold sweep at h ⊢
  simp only [] at h ⊢
  by_cases hon : (tracker.beginSweep o.wsUrl o.credentials o.snapshot).2 = true
  · rw [hon, Bool.not_true, if_neg Bool.false_ne_true] at h ⊢
    obtain ⟨hurl, hcred⟩ := Tracker.beginSweep_true hon
    cases hobt : o.obtains with
    | none =>
      rw [hobt] at h
      obtain ⟨heq, hb, hh, hd⟩ := Tracker.beginSweep_clock h
      simp only [heq] at h ⊢
      refine ⟨⟨hb, hh, fun hs => ?_, fun hc => ?_⟩, Or.inl ⟨h, trivial⟩⟩
      · rw [hobt] at hs
        cases hs
      · rintro (hnone | ⟨hs, -⟩)
        · exact hd (decide_eq_true hc) hnone
        · rw [hobt] at hs
          cases hs
    | some response =>
      rw [hobt] at h
      obtain ⟨hshow, hsus, hclock⟩ := Tracker.listed_clock (Tracker.forget_clock h)
      have hsees : o.Sees T := ⟨response, hobt, hshow⟩
      refine ⟨.of_listed hurl hcred hsees hsus, ?_⟩
      rcases hclock with hold | hnow
      · have heq := (Tracker.beginSweep_clock hold).1
        rw [heq] at hold
        refine Or.inl ⟨hold, ?_⟩
        show (tracker.beginSweep o.wsUrl o.credentials o.snapshot).1.wsUrl = tracker.wsUrl
        rw [heq]
      · exact Or.inr ⟨hnow, hsees⟩
  · rw [Bool.not_eq_true] at hon
    rw [hon, Bool.not_false, if_pos rfl] at h
    rw [(Tracker.beginSweep_clock h).1] at hon
    cases hon

/-- A target that a sweep closes. -/
theorem sweep_closes {idleTimeout : ℕ} {tracker : Tracker} {o : Observation} {T : String}
    (h : T ∈ (sweep idleTimeout tracker o).2) :
    ∃ wsUrl s, o.Keeps wsUrl T ∧ o.Sees T ∧ idleTimeout ≤ o.now - s ∧
      (tracker.idleSince T = some s ∧ wsUrl = tracker.wsUrl ∨ s = o.now) := by
  unfold sweep at h
  simp only [] at h
  by_cases hon : (tracker.beginSweep o.wsUrl o.credentials o.snapshot).2 = true
  · rw [hon, Bool.not_true, if_neg Bool.false_ne_true] at h
    obtain ⟨hurl, hcred⟩ := Tracker.beginSweep_true hon
    cases hobt : o.obtains with
    | none =>
      rw [hobt] at h
      exact absurd h List.not_mem_nil
    | some response =>
      rw [hobt] at h
      obtain ⟨hshow, hsus, s, hs, hclock⟩ := Tracker.listed_expired h
      have hsees : o.Sees T := ⟨response, hobt, hshow⟩
      refine ⟨_, s, .of_listed hurl hcred hsees hsus, hsees, hs, ?_⟩
      rcases hclock with hold | hnow
      · have heq := (Tracker.beginSweep_clock hold).1
        rw [heq] at hold
        exact Or.inl ⟨hold, by rw [heq]⟩
      · exact Or.inr hnow
  · rw [Bool.not_eq_true] at hon
    rw [hon, Bool.not_false, if_pos rfl] at h
    exact absurd h List.not_mem_nil

/-! ## Any sequence of sweeps -/

/-- The reaper between two sweeps. -/
structure Watch where
  tracker : Tracker
  /-- When the last sweep had its list, or gave up. -/
  ended : ℕ

namespace Watch

def start : Watch := ⟨.empty, 0⟩

def step (idleTimeout : ℕ) (w : Watch) (o : Observation) : Option Watch :=
  if w.ended ≤ o.started ∧ o.started ≤ o.now then some ⟨(sweep idleTimeout w.tracker o).1, o.now⟩ else none

/-- How a clock at `s` came to run: a list showed the target then, and no sweep since has
stopped it. -/
def RunsSince (past : List Observation) (wsUrl T : String) (s : ℕ) : Prop :=
  ∃ xs o ys, past = xs ++ o :: ys ∧ o.now = s ∧ o.Sees T ∧ (∀ p ∈ xs ++ [o], p.started ≤ s) ∧
    ∀ p ∈ o :: ys, p.Keeps wsUrl T

theorem RunsSince.snoc {past : List Observation} {wsUrl T : String} {s : ℕ} (h : RunsSince past wsUrl T s)
    {o : Observation} (ho : o.Keeps wsUrl T) : RunsSince (past ++ [o]) wsUrl T s := by
  obtain ⟨xs, q, ys, rfl, hs, hsees, hbefore, hkeep⟩ := h
  refine ⟨xs, q, ys ++ [o], by rw [List.append_assoc, List.cons_append], hs, hsees, hbefore, fun p hp => ?_⟩
  rw [← List.cons_append] at hp
  rcases List.mem_append.mp hp with hp | hp
  · exact hkeep p hp
  · rw [List.mem_singleton.mp hp]
    exact ho

/-- What holds after the sweeps `past`. -/
structure Inv (past : List Observation) (w : Watch) : Prop where
  clocks : ∀ T s, w.tracker.idleSince T = some s → RunsSince past w.tracker.wsUrl T s ∧ s ≤ w.ended
  order : ∀ p ∈ past, p.started ≤ w.ended

theorem Inv.start : Inv [] start where
  clocks T s h := by cases h
  order p hp := absurd hp List.not_mem_nil

/-- A sweep that sees the target starts its clock. -/
theorem Inv.starts {past : List Observation} {w : Watch} (hw : Inv past w) {o : Observation}
    (ho : w.ended ≤ o.started ∧ o.started ≤ o.now) {wsUrl T : String} (hk : o.Keeps wsUrl T) (hs : o.Sees T) :
    RunsSince (past ++ [o]) wsUrl T o.now := by
  refine ⟨past, o, [], rfl, rfl, hs, fun p hp => ?_, fun p hp => ?_⟩
  · rcases List.mem_append.mp hp with hp | hp
    · have hle := hw.order p hp
      omega
    · rw [List.mem_singleton.mp hp]
      exact ho.2
  · rw [List.mem_singleton.mp hp]
    exact hk

/-- **Step.** -/
theorem Inv.step {idleTimeout : ℕ} {past : List Observation} {w w' : Watch} {o : Observation}
    (hw : Inv past w) (h : w.step idleTimeout o = some w') : Inv (past ++ [o]) w' := by
  unfold Watch.step at h
  split at h
  · next ho =>
    cases h
    constructor
    · intro T s hclock
      obtain ⟨hk, hold | ⟨rfl, hsees⟩⟩ := sweep_clock hclock
      · obtain ⟨hsince, hle⟩ := hw.clocks T s hold.1
        rw [← hold.2] at hsince
        refine ⟨hsince.snoc hk, ?_⟩
        show s ≤ o.now
        omega
      · exact ⟨hw.starts ho hk hsees, Nat.le_refl _⟩
    · intro p hp
      show p.started ≤ o.now
      rcases List.mem_append.mp hp with hp | hp
      · have hle := hw.order p hp
        omega
      · rw [List.mem_singleton.mp hp]
        exact ho.2
  · cases h

theorem inv_run {idleTimeout : ℕ} {past : List Observation} {w : Watch}
    (hrun : Run.run (step idleTimeout) start past = some w) : Inv past w :=
  Run.run_history (step idleTimeout) Inv.start (fun _ _ _ _ _ hw h => hw.step h) hrun

/-- The clock of a target that a sweep closes has run for the timeout. -/
theorem Inv.closes {idleTimeout : ℕ} {past : List Observation} {w : Watch} (hw : Inv past w)
    {o : Observation} (ho : w.ended ≤ o.started ∧ o.started ≤ o.now) {T : String}
    (hT : T ∈ (sweep idleTimeout w.tracker o).2) :
    ∃ wsUrl s, o.Keeps wsUrl T ∧ o.Sees T ∧ s + idleTimeout ≤ o.now ∧ RunsSince (past ++ [o]) wsUrl T s := by
  obtain ⟨wsUrl, s, hk, hsees, hidle, ⟨hold, rfl⟩ | rfl⟩ := sweep_closes hT
  · obtain ⟨hsince, hle⟩ := hw.clocks T s hold
    exact ⟨_, s, hk, hsees, by omega, hsince.snoc hk⟩
  · exact ⟨wsUrl, o.now, hk, hsees, by omega, hw.starts ho hk hsees⟩

/-- The grace before a close: for a target that is no orphan no client, and for any target
no takeover credential, was observed less than `idleTimeout` ago; and a list that is at
least as old showed the target, as has every list since, all of the same browser. -/
structure Grace (idleTimeout : ℕ) (past : List Observation) (o : Observation) (T : String) : Prop where
  driver : T ∉ o.orphans → ∀ p ∈ past ++ [o], o.now < p.started + idleTimeout → p.clients = 0
  human : ∀ p ∈ past ++ [o], o.now < p.started + idleTimeout → p.credentials = false
  seen : ∃ xs q ys, past ++ [o] = xs ++ q :: ys ∧ q.now + idleTimeout ≤ o.now ∧ q.wsUrl = o.wsUrl ∧ q.Sees T ∧
    ∀ p ∈ ys, p.wsUrl = o.wsUrl ∧ (p.obtains.isSome = true → p.Sees T)

/-- **A full timeout before each close.**  After any sweeps, a target that the next sweep
closes has had its grace exactly if it is an orphan, or each sweep of the last `idleTimeout`
that found a client found no orphan at all, or got a list and the target was no orphan. -/
theorem closed_in_grace {idleTimeout : ℕ} {past : List Observation} {w w' : Watch} {o : Observation}
    (hrun : Run.run (step idleTimeout) start past = some w) (hstep : w.step idleTimeout o = some w')
    {T : String} (hT : T ∈ (sweep idleTimeout w.tracker o).2) :
    Grace idleTimeout past o T ↔
      (T ∉ o.orphans → ∀ p ∈ past, o.now < p.started + idleTimeout → 0 < p.clients → p.Resets T) := by
  have ho : w.ended ≤ o.started ∧ o.started ≤ o.now := by
    unfold Watch.step at hstep
    split at hstep
    · next ho => exact ho
    · cases hstep
  constructor
  · intro hg hno p hp hin hc
    have hnone := hg.driver hno p (List.mem_append_left _ hp) hin
    omega
  · intro hreset
    obtain ⟨wsUrl, s, hko, hso, hidle, xs, q, ys, hpast, hq, hsees, hbefore, hkeep⟩ := (inv_run hrun).closes ho hT
    -- what was observed in the last `idleTimeout` was observed since the clock runs
    have hrecent : ∀ p ∈ past ++ [o], o.now < p.started + idleTimeout → p.Keeps wsUrl T := by
      intro p hp hin
      rw [hpast, List.append_cons] at hp
      rcases List.mem_append.mp hp with hp | hp
      · have hle := hbefore p hp
        omega
      · exact hkeep p (List.mem_cons_of_mem _ hp)
    refine ⟨fun hno p hp hin => ?_, fun p hp hin => (hrecent p hp hin).human, ?_⟩
    · by_contra hc
      have hc : 0 < p.clients := Nat.pos_of_ne_zero hc
      rcases List.mem_append.mp hp with hold | hnew
      · exact (hrecent p hp hin).driver hc (hreset hno p hold hin hc)
      · obtain rfl : p = o := List.mem_singleton.mp hnew
        obtain ⟨response, hobt, -⟩ := hso
        exact hko.driver hc (Or.inr ⟨by rw [hobt]; rfl, hno⟩)
    · refine ⟨xs, q, ys, hpast, by omega, ?_, hsees, fun p hp => ?_⟩
      · rw [(hkeep q List.mem_cons_self).browser, hko.browser]
      · have hk := hkeep p (List.mem_cons_of_mem _ hp)
        exact ⟨by rw [hk.browser, hko.browser], hk.seen⟩

end Watch

/-- A sweep of the browser at `ws://b`, at one instant. -/
def sweepAt (now clients : ℕ) (orphans : Finset String) (connected : Bool) : Observation :=
  ⟨now, some "ws://b", false, clients, orphans, connected, some listOfTab, now, fun _ => true⟩

theorem closed_in_grace_idle : ∃ w, Run.run (Watch.step 10) Watch.start [sweepAt 0 0 ∅ true] = some w ∧
    Watch.Grace 10 [sweepAt 0 0 ∅ true] (sweepAt 10 0 ∅ true) "T" := by
  have hf : (Run.run (Watch.step 10) Watch.start [sweepAt 0 0 ∅ true]).map (fun w =>
      ((sweep 10 w.tracker (sweepAt 10 0 ∅ true)).2, (w.step 10 (sweepAt 10 0 ∅ true)).isSome)) =
      some (["T"], true) := by decide
  obtain ⟨w, hw, hf⟩ := Option.map_eq_some_iff.mp hf
  simp only [Prod.mk.injEq] at hf
  obtain ⟨w', hstep⟩ := Option.isSome_iff_exists.mp hf.2
  refine ⟨w, hw, (Watch.closed_in_grace hw hstep (by rw [hf.1]; decide)).mpr ?_⟩
  intro _ p hp _ hc
  rw [List.mem_singleton.mp hp] at hc
  exact absurd hc (Nat.lt_irrefl 0)

/-- A sweep finds a client and an orphan, cannot connect, and leaves the clock of a tab that
the client may be driving: the client goes, and the next sweep closes the tab. -/
theorem failed_sweep_closes : ∃ w, Run.run (Watch.step 10) Watch.start
      [sweepAt 0 0 ∅ true, sweepAt 9 1 {"O"} false] = some w ∧
    (w.step 10 (sweepAt 10 0 {"O"} true)).isSome = true ∧
    "T" ∈ (sweep 10 w.tracker (sweepAt 10 0 {"O"} true)).2 ∧
    ¬ Watch.Grace 10 [sweepAt 0 0 ∅ true, sweepAt 9 1 {"O"} false] (sweepAt 10 0 {"O"} true) "T" := by
  have hf : (Run.run (Watch.step 10) Watch.start [sweepAt 0 0 ∅ true, sweepAt 9 1 {"O"} false]).map (fun w =>
      ((sweep 10 w.tracker (sweepAt 10 0 {"O"} true)).2, (w.step 10 (sweepAt 10 0 {"O"} true)).isSome)) =
      some (["T"], true) := by decide
  obtain ⟨w, hw, hf⟩ := Option.map_eq_some_iff.mp hf
  simp only [Prod.mk.injEq] at hf
  refine ⟨w, hw, hf.2, by rw [hf.1]; decide, fun hg => ?_⟩
  have hquiet := hg.driver (by decide) (sweepAt 9 1 {"O"} false) (by simp) (by decide)
  exact absurd hquiet Nat.one_ne_zero

end Afhttp.Host

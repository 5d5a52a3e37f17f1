import Afhttp.Host.Reaper

/-!
# Which tabs the reaper forgets and closes

Two questions about every run of connections and sweeps.

* Is a tab that its last connection left behind remembered?  Not if that connection had
  asked the browser to close it and the browser did not (`refused_close_forgotten`), nor if
  a sweep prunes with a list that does not have it.  In all other runs it is, and only in
  those (`none_forgotten`).
* Is a tab that the sweep closes still in use?  The sweep decides on the snapshot it took,
  so a connection that took the tab since may have it (`retaken_closed`); no other can
  (`closes_unused`).
-/

namespace Afhttp.Host

/-! ## What a sweep decides -/

/-- In the snapshot nobody held the target: there was no client, or it was an orphan. -/
def Snapshot.Suspects (snap : Snapshot) (T : String) : Prop :=
  snap.driverConnected = false ∨ T ∈ snap.orphans

/-- The ids a `Target.getTargets` response lists. -/
def listedIds (response : Json) : List String := (pageTargets response).map PageTarget.id

theorem classify_seen (snap : Snapshot) (idleTimeout now : ℕ) (acc : Classified) (target : PageTarget) :
    (classify snap idleTimeout now acc target).seen = insert target.id acc.seen := by
  unfold classify
  simp only []
  split <;> rfl

/-- What one listed target does to the clock of another, to its own, or to its own that goes on. -/
theorem classify_cases (snap : Snapshot) (idleTimeout now : ℕ) (acc : Classified) (target : PageTarget) :
    let acc' := classify snap idleTimeout now acc target
    (acc'.idleSince = Function.update acc.idleSince target.id none ∧ acc'.expired = acc.expired) ∨
      (isReapableUrl target.url = true ∧ snap.Suspects target.id ∧
        acc'.idleSince = Function.update acc.idleSince target.id
          (some ((acc.idleSince target.id).getD now)) ∧
        acc'.expired = if idleTimeout ≤ now - (acc.idleSince target.id).getD now
          then acc.expired ++ [target.id] else acc.expired) := by
  unfold classify
  simp only []
  split
  · exact Or.inl ⟨rfl, rfl⟩
  · next hno =>
    simp only [Bool.or_eq_true, Bool.and_eq_true, Bool.not_eq_true', not_or, not_and, Bool.not_eq_false,
      decide_eq_false_iff_not, Decidable.not_not] at hno
    refine Or.inr ⟨hno.1, ?_, rfl, rfl⟩
    cases hd : snap.driverConnected with
    | false => exact Or.inl hd
    | true => exact Or.inr (hno.2 hd)

theorem classify_expired (snap : Snapshot) (idleTimeout now : ℕ) (acc : Classified) (target : PageTarget)
    (h : ∀ T ∈ acc.expired, snap.Suspects T) :
    ∀ T ∈ (classify snap idleTimeout now acc target).expired, snap.Suspects T := by
  intro T hT
  rcases classify_cases snap idleTimeout now acc target with ⟨-, he⟩ | ⟨-, hsus, -, he⟩
  · rw [he] at hT
    exact h T hT
  · rw [he] at hT
    split at hT
    · rcases List.mem_append.mp hT with hT | hT
      · exact h T hT
      · rw [List.mem_singleton.mp hT]
        exact hsus
    · exact h T hT

theorem mem_classified_seen (snap : Snapshot) (idleTimeout now : ℕ) (targets : List PageTarget)
    (acc : Classified) (T : String) :
    T ∈ (targets.foldl (classify snap idleTimeout now) acc).seen ↔
      T ∈ acc.seen ∨ T ∈ targets.map PageTarget.id := by
  induction targets generalizing acc with
  | nil => simp
  | cons target targets ih =>
    rw [List.foldl_cons, ih, classify_seen, Finset.mem_insert, List.map_cons, List.mem_cons]
    tauto

/-- The targets a list shows are the ids it lists. -/
theorem mem_seen (snap : Snapshot) (idleTimeout now : ℕ) (tracker : Tracker) (response : Json) (T : String) :
    T ∈ (classifyAll snap idleTimeout now tracker response).seen ↔ T ∈ listedIds response := by
  unfold classifyAll
  rw [mem_classified_seen]
  exact or_iff_right (Finset.notMem_empty T)

/-- Only targets that nobody held in the snapshot expire. -/
theorem expired_suspect (snap : Snapshot) (idleTimeout now : ℕ) (tracker : Tracker) (response : Json) :
    ∀ T ∈ (classifyAll snap idleTimeout now tracker response).expired, snap.Suspects T := by
  have key : ∀ (targets : List PageTarget) (acc : Classified), (∀ T ∈ acc.expired, snap.Suspects T) →
      ∀ T ∈ (targets.foldl (classify snap idleTimeout now) acc).expired, snap.Suspects T := by
    intro targets
    induction targets with
    | nil => exact fun acc h => h
    | cons target targets ih =>
      intro acc h
      exact ih _ (classify_expired snap idleTimeout now acc target h)
  exact key _ _ fun T hT => absurd hT List.not_mem_nil

namespace SweepPhase

def snapshot : SweepPhase → Option Snapshot
  | idle => none
  | connecting snap | listing snap | closing snap _ _ _ => some snap

/-- The targets that the sweep has yet to close. -/
def doomed : SweepPhase → List String
  | closing _ id rest _ => id :: rest
  | _ => []

theorem next_cases (snap : Snapshot) (ids : List String) :
    (next snap ids).doomed = ids ∧ ((next snap ids).snapshot = none ∨ (next snap ids).snapshot = some snap) := by
  cases ids with
  | nil => exact ⟨rfl, Or.inl rfl⟩
  | cons id rest => exact ⟨rfl, Or.inr rfl⟩

end SweepPhase

/-! ## Connections, once more -/

namespace Connections

variable {C : Type} [DecidableEq C] {parse : String → Option Json} {w w' : Connections C}
  {e : ConnectionEvent C}

/-- An owner that owned the target before was an owner before. -/
theorem owner_before (h : w.step parse e = some w') {c : C} {T : String} (hc : c ∈ w'.owners T)
    (hT : T ∈ (w.ledger c).owned) : c ∈ w.owners T := by
  cases step_change h with
  | connects c' new => rwa [owners_connected new] at hc
  | observes _ _ _ _ _ _ => exact mem_owners.mpr ⟨(mem_owners.mp hc).1, hT⟩
  | ends c' order =>
    rw [owners_closed] at hc
    exact (Finset.mem_erase.mp hc).2
  | prunes live => exact hc

theorem live_or_connects (h : w.step parse e = some w') {c : C} (hc : c ∈ w'.live) :
    c ∈ w.live ∨ e = .connect c := by
  cases step_change h with
  | connects c' =>
    rcases Finset.mem_insert.mp hc with rfl | hc
    · exact Or.inr rfl
    · exact Or.inl hc
  | observes _ _ _ _ _ _ => exact Or.inl hc
  | ends c' order => exact Or.inl (Finset.mem_erase.mp hc).2
  | prunes live => exact Or.inl hc

theorem ended_mono (h : w.step parse e = some w') : w.ended ⊆ w'.ended := by
  cases step_change h with
  | connects c => exact Finset.Subset.refl _
  | observes e c => exact Finset.Subset.refl _
  | ends c order => exact Finset.subset_insert c _
  | prunes live => exact Finset.Subset.refl _

/-- Live and ended connections are not the same. -/
theorem live_not_ended (h : w.step parse e = some w') (hw : ∀ c ∈ w.live, c ∉ w.ended) :
    ∀ c ∈ w'.live, c ∉ w'.ended := by
  cases step_change h with
  | connects c new fresh =>
    intro c' hc'
    rcases Finset.mem_insert.mp hc' with rfl | hc'
    · exact fresh
    · exact hw c' hc'
  | observes e c => exact hw
  | ends c order =>
    intro c' hc'
    obtain ⟨hne, hc'⟩ := Finset.mem_erase.mp hc'
    exact fun h => (Finset.mem_insert.mp h).elim hne (hw c' hc')
  | prunes live => exact hw

/-- Only a prune takes a target that nobody holds out of the orphans. -/
theorem orphan_stays (h : w.step parse e = some w') (hno : ∀ live, e ≠ .prune live) {T : String}
    (hT : T ∈ w.targets.orphaned) (ho : w'.owners T = ∅) : T ∈ w'.targets.orphaned := by
  cases step_change h with
  | connects c => exact hT
  | observes _ c _ live r frame =>
    obtain ⟨l', holding⟩ := r
    cases frame with
    | quiet _ => exact hT
    | took t _ owned =>
      refine Finset.mem_erase.mpr ⟨?_, hT⟩
      rintro rfl
      have hin : T ∈ l'.owned := by
        have ho : l'.owned = insert T (w.ledger c).owned := owned
        rw [ho]
        exact Finset.mem_insert_self T _
      rw [owners_observed live, if_pos hin] at ho
      exact absurd ho (Finset.insert_ne_empty c _)
    | closed t _ _ => exact hT
  | ends c order => exact Finset.mem_union_left _ hT
  | prunes live => exact absurd rfl (hno live)

/-- A frame takes a target from its own connection only. -/
theorem dropper (h : w.step parse e = some w') {T : String} (ho : (w.owners T).Nonempty)
    (ho' : w'.owners T = ∅) : ∃ c, e.party = some c ∧ c ∈ w.owners T := by
  cases step_change h with
  | connects c new =>
    rw [owners_connected new] at ho'
    rw [ho'] at ho
    exact absurd ho Finset.not_nonempty_empty
  | observes e c event live r frame =>
    obtain ⟨c', hc'⟩ := ho
    have hcc : c' = c := by
      by_contra hne
      have hmem : c' ∈ (w.observed c r).owners T := by
        rw [owners_observed live]
        split
        · exact Finset.mem_insert_of_mem hc'
        · exact Finset.mem_erase.mpr ⟨hne, hc'⟩
      rw [ho'] at hmem
      exact Finset.notMem_empty c' hmem
    refine ⟨c, ?_, hcc ▸ hc'⟩
    obtain ⟨frame, rfl | rfl⟩ := event <;> rfl
  | ends c order =>
    obtain ⟨c', hc'⟩ := ho
    have hcc : c' = c := by
      by_contra hne
      have hmem : c' ∈ (w.closed c order).owners T := by
        rw [owners_closed]
        exact Finset.mem_erase.mpr ⟨hne, hc'⟩
      rw [ho'] at hmem
      exact Finset.notMem_empty c' hmem
    exact ⟨c, rfl, hcc ▸ hc'⟩
  | prunes live =>
    have hsame : w.owners T = ∅ := ho'
    rw [hsame] at ho
    exact absurd ho Finset.not_nonempty_empty

/-- A connection on which a creation is reported owns the target. -/
theorem owner_of_reports (h : w.step parse e = some w') {T : String} (hr : w.reports parse e = some T) :
    (w'.owners T).Nonempty := by
  cases e with
  | response c frame =>
    simp only [step] at h
    split at h
    · next hc =>
      cases h
      refine ⟨c, ?_⟩
      rw [owners_observed hc]
      have hin : T ∈ ((w.ledger c).observeResponse parse frame).1.owned := by
        obtain ⟨⟨id, message⟩, hs, ht⟩ := Option.bind_eq_some_iff.mp hr
        unfold TargetLedger.observeResponse
        simp only [hs, ht]
        unfold TargetLedger.own
        split
        · next hown => exact hown
        · exact Finset.mem_insert_self T _
      rw [if_pos hin]
      exact Finset.mem_insert_self c _
    · cases h
  | _ => cases hr

/-- A new orphan is a target of a connection that just ended. -/
theorem new_orphan (hw : w.Inv) (h : w.step parse e = some w') {T : String}
    (hT : T ∈ w'.targets.orphaned) : T ∈ w.targets.orphaned ∨
      ∃ c, e.party = some c ∧ c ∈ w.owners T ∧ c ∉ w'.owners T ∧ c ∈ w'.ended := by
  cases step_change h with
  | connects c => exact Or.inl hT
  | observes _ c _ live r frame =>
    left
    obtain ⟨l', holding⟩ := r
    cases frame with
    | quiet _ => exact hT
    | took t _ _ => exact (Finset.mem_erase.mp hT).2
    | closed t _ _ => exact hT
  | ends c order live nodup all =>
    rcases (hw.orphaned_closed live nodup all T).mp hT with hT | ⟨hT, he⟩
    · exact Or.inl hT
    · refine Or.inr ⟨c, rfl, mem_owners.mpr ⟨live, hT⟩, ?_, Finset.mem_insert_self c _⟩
      rw [owners_closed]
      exact Finset.notMem_erase c _
  | prunes live => exact Or.inl (Finset.mem_filter.mp hT).1

end Connections

namespace HostWorld

open Connections

variable {C : Type}

/-- What holds in every run. -/
structure Inv (w : HostWorld C) : Prop where
  conns : w.conns.Inv
  counted : w.conns.live ⊆ w.guards
  gone : ∀ c ∈ w.conns.live, c ∉ w.conns.ended
  /-- An orphan was left behind by a connection that has ended. -/
  left : ∀ T ∈ w.conns.targets.orphaned, ∃ c ∈ w.conns.ended, w.droppedBy T = some c
  /-- Whoever owns a suspect took it since the snapshot. -/
  since : ∀ snap, w.phase.snapshot = some snap → ∀ T, snap.Suspects T →
    ∀ c ∈ w.conns.owners T, T ∈ w.takenSince c
  doomed : ∀ snap, w.phase.snapshot = some snap → ∀ T ∈ w.phase.doomed, snap.Suspects T
  kept : ∀ c, w.takenSince c ⊆ (w.conns.ledger c).owned

theorem Inv.start (wsUrl : Option String) (targets : Finset String) : (start C wsUrl targets).Inv where
  conns := Connections.Inv.start
  counted := Finset.empty_subset _
  gone c hc := absurd hc (Finset.notMem_empty c)
  left T hT := absurd hT (Finset.notMem_empty T)
  since snap h := by cases h
  doomed snap h := by cases h
  kept c := Finset.empty_subset _

/-- The sweep goes on, or stops; what it has decided stays. -/
theorem Inv.sweeps {w w' : HostWorld C} (hw : w.Inv) (hc : w'.conns = w.conns) (hg : w'.guards = w.guards)
    (hd : w'.droppedBy = w.droppedBy) (ht : w'.takenSince = w.takenSince)
    (hs : w'.phase.snapshot = none ∨ w'.phase.snapshot = w.phase.snapshot)
    (hdoom : ∀ T ∈ w'.phase.doomed, T ∈ w.phase.doomed) : w'.Inv where
  conns := hc ▸ hw.conns
  counted := by
    rw [hc, hg]
    exact hw.counted
  gone := by
    rw [hc]
    exact hw.gone
  left := by
    rw [hc, hd]
    exact hw.left
  since snap h := by
    rw [hc, ht]
    rcases hs with hs | hs
    · rw [hs] at h
      cases h
    · exact hw.since snap (hs ▸ h)
  doomed snap h T hT := by
    rcases hs with hs | hs
    · rw [hs] at h
      cases h
    · exact hw.doomed snap (hs ▸ h) T (hdoom T hT)
  kept := by
    rw [hc, ht]
    exact hw.kept

theorem Inv.beginSweep {w : HostWorld C} (hw : w.Inv) (hi : w.phase = .idle) (credentials : Bool) :
    (w.beginSweep credentials).Inv := by
  have hidle : w.phase.snapshot = none := by rw [hi]; rfl
  have quiet : ∀ w' : HostWorld C, w'.conns = w.conns → w'.guards = w.guards → w'.droppedBy = w.droppedBy →
      w'.takenSince = w.takenSince → w'.phase = w.phase → w'.Inv := by
    intro w' h1 h2 h3 h4 h5
    exact hw.sweeps h1 h2 h3 h4 (Or.inr (by rw [h5])) (by rw [h5]; exact fun T h => h)
  unfold HostWorld.beginSweep
  split
  · exact quiet _ rfl rfl rfl rfl rfl
  · split
    · exact quiet _ rfl rfl rfl rfl rfl
    · simp only []
      split
      · exact quiet _ rfl rfl rfl rfl rfl
      · refine ⟨hw.conns, hw.counted, hw.gone, hw.left, fun snap hs T hT c hc => ?_, fun snap hs T hT => ?_,
          fun c => Finset.empty_subset _⟩
        · -- at the snapshot nobody holds a suspect
          exfalso
          cases hs
          rcases hT with hT | hT
          · have hcard : ¬ 0 < w.guards.card := of_decide_eq_false hT
            have hmem : c ∈ w.guards := hw.counted (mem_owners.mp hc).1
            exact hcard (Finset.card_pos.mpr ⟨c, hmem⟩)
          · exact absurd hT (hw.conns.not_orphan hc)
        · exact absurd hT List.not_mem_nil

theorem Inv.afterTargets {w : HostWorld C} (hw : w.Inv) (idleTimeout : ℕ) {snap : Snapshot}
    (hs : w.phase.snapshot = some snap) (response : Json) : (w.afterTargets idleTimeout snap response).Inv := by
  obtain ⟨hdoom, hsnap⟩ := SweepPhase.next_cases snap
    (classifyAll snap idleTimeout w.now w.tracker response).expired
  have same : ∀ snap', (w.afterTargets idleTimeout snap response).phase.snapshot = some snap' → snap' = snap := by
    intro snap' h
    rcases hsnap with hsnap | hsnap
    · exact absurd (hsnap.symm.trans h) (by simp)
    · exact (Option.some.inj (hsnap.symm.trans h)).symm
  constructor
  · exact hw.conns.congr (fun T => rfl) rfl (Finset.filter_subset _ _)
  · exact hw.counted
  · exact hw.gone
  · intro T hT
    exact hw.left T (Finset.mem_filter.mp hT).1
  · intro snap' h T hT c hc
    rw [same snap' h] at hT
    exact hw.since snap hs T hT c hc
  · intro snap' h T hT
    rw [same snap' h]
    have hT' : T ∈ (SweepPhase.next snap
      (classifyAll snap idleTimeout w.now w.tracker response).expired).doomed := hT
    rw [hdoom] at hT'
    exact expired_suspect snap idleTimeout w.now w.tracker response T hT'
  · exact hw.kept

/-- The close of `id` goes on to another stage, or to the next target. -/
theorem Inv.closing {w w' : HostWorld C} (hw : w.Inv) {snap : Snapshot} {id : String} {rest : List String}
    {stage : CloseStage} (hp : w.phase = .closing snap id rest stage) (hc : w'.conns = w.conns)
    (hg : w'.guards = w.guards) (hd : w'.droppedBy = w.droppedBy) (ht : w'.takenSince = w.takenSince)
    (hφ : (∃ stage', w'.phase = .closing snap id rest stage') ∨ w'.phase = .next snap rest) : w'.Inv := by
  refine hw.sweeps hc hg hd ht ?_ ?_
  · rcases hφ with ⟨stage', hφ⟩ | hφ
    · right
      rw [hφ, hp]
      rfl
    · rw [hφ, hp]
      exact (SweepPhase.next_cases snap rest).2
  · rcases hφ with ⟨stage', hφ⟩ | hφ
    · rw [hφ, hp]
      exact fun T h => h
    · rw [hφ, hp, (SweepPhase.next_cases snap rest).1]
      exact fun T h => List.mem_cons_of_mem _ h

variable [DecidableEq C]

/-- **Connection step.** -/
theorem Inv.withConns {parse : String → Option Json} {w : HostWorld C} {e : ConnectionEvent C}
    {conns : Connections C} (hw : w.Inv) (h : w.conns.step parse e = some conns)
    (hl : conns.live ⊆ w.guards) : (w.withConns parse e conns).Inv where
  conns := hw.conns.step h
  counted := hl
  gone := live_not_ended h hw.gone
  left T hT := by
    show ∃ c ∈ conns.ended, (w.withConns parse e conns).droppedBy T = some c
    rcases new_orphan hw.conns h hT with hT | ⟨c, hp, hc, hc', hend⟩
    · obtain ⟨c, hc, hd⟩ := hw.left T hT
      refine ⟨c, ended_mono h hc, ?_⟩
      -- nobody held it, so nobody dropped it
      have hnone := hw.conns.apart T hT
      unfold HostWorld.withConns
      simp only [hnone, Finset.notMem_empty, false_and, if_false]
      split <;> exact hd
    · refine ⟨c, hend, ?_⟩
      unfold HostWorld.withConns
      simp only [hp]
      exact if_pos ⟨hc, hc'⟩
  since snap hs T hT c hc := by
    refine Finset.mem_filter.mpr ⟨(mem_owners.mp hc).2, ?_⟩
    by_cases hown : T ∈ (w.conns.ledger c).owned
    · exact Or.inl (hw.since snap hs T hT c (owner_before h hc hown))
    · exact Or.inr hown
  doomed := hw.doomed
  kept c := Finset.filter_subset _ _

/-- A step aside from the connections: it changes neither what is held nor the histories,
and the browser gets no target that was there before. -/
structure Aside (w w' : HostWorld C) : Prop where
  conns : w'.conns = w.conns
  created : w'.created = w.created
  droppedBy : w'.droppedBy = w.droppedBy
  targets : ∀ T ∈ w.created, T ∈ w'.browser.targets → T ∈ w.browser.targets
  confirmed : w.browser.confirmed ⊆ w'.browser.confirmed

omit [DecidableEq C] in
theorem Aside.of_browser {w w' : HostWorld C} (hc : w'.conns = w.conns) (hcr : w'.created = w.created)
    (hd : w'.droppedBy = w.droppedBy) (hb : w'.browser = w.browser) : w.Aside w' :=
  ⟨hc, hcr, hd, fun _ _ h => hb ▸ h, fun _ h => hb ▸ h⟩

omit [DecidableEq C] in
theorem aside_beginSweep (w : HostWorld C) (credentials : Bool) : w.Aside (w.beginSweep credentials) := by
  unfold beginSweep
  split
  · exact .of_browser rfl rfl rfl rfl
  · split
    · exact .of_browser rfl rfl rfl rfl
    · simp only []
      split <;> exact .of_browser rfl rfl rfl rfl

omit [DecidableEq C] in
theorem afterAnswer_some {w w' : HostWorld C} {snap : Snapshot} {id : String} {rest : List String}
    {r : Except Error Json} {stage : CloseStage} (h : w.afterAnswer snap id rest r stage = some w') :
    w.Aside w' ∧ w'.guards = w.guards ∧ w'.takenSince = w.takenSince ∧
      ((∃ stage', w'.phase = .closing snap id rest stage') ∨ w'.phase = .next snap rest) := by
  cases stage with
  | guarding =>
    simp only [afterAnswer] at h
    split at h
    · cases h
      exact ⟨.of_browser rfl rfl rfl rfl, rfl, rfl, Or.inl ⟨_, rfl⟩⟩
    · cases h
      exact ⟨.of_browser rfl rfl rfl rfl, rfl, rfl, Or.inr rfl⟩
  | anchoring =>
    simp only [afterAnswer] at h
    split at h
    · cases h
      exact ⟨.of_browser rfl rfl rfl rfl, rfl, rfl, Or.inl ⟨_, rfl⟩⟩
    · cases h
      exact ⟨.of_browser rfl rfl rfl rfl, rfl, rfl, Or.inr rfl⟩
  | issuing => cases h
  | confirming =>
    simp only [afterAnswer] at h
    split at h
    · cases h
      exact ⟨.of_browser rfl rfl rfl rfl, rfl, rfl, Or.inr rfl⟩
    · cases h
      exact ⟨.of_browser rfl rfl rfl rfl, rfl, rfl, Or.inr rfl⟩

/-- What a step can do to the invariant and to what is remembered. -/
inductive Change (idleTimeout : ℕ) (parse : String → Option Json) (w : HostWorld C) :
    HostEvent C → HostWorld C → Prop where
  | conn (e : ConnectionEvent C) (conns : Connections C) (notPrune : ∀ live, e ≠ .prune live)
      (counted : ∀ c, e = .connect c → c ∈ w.guards) (step : w.conns.step parse e = some conns) :
      Change idleTimeout parse w (.conn e) (w.withConns parse e conns)
  | listed (response : Json) (snap : Snapshot) (phase : w.phase.snapshot = some snap) :
      Change idleTimeout parse w (.listed (some response)) (w.afterTargets idleTimeout snap response)
  | aside (e : HostEvent C) (w' : HostWorld C) (notConn : ∀ ce, e ≠ .conn ce)
      (notListed : ∀ response, e ≠ .listed (some response)) (aside : w.Aside w')
      (keeps : w.Inv → w'.Inv) : Change idleTimeout parse w e w'

/-- **What a step can do.** -/
theorem step_change {parse : String → Option Json} {idleTimeout : ℕ} {w w' : HostWorld C} {e : HostEvent C}
    (h : w.step parse idleTimeout e = some w') : Change idleTimeout parse w e w' := by
  -- a step that leaves the sweep, the connections and what was taken as they are
  have apart : ∀ w' : HostWorld C, (∀ ce, e ≠ .conn ce) → (∀ response, e ≠ .listed (some response)) →
      w.Aside w' → w'.guards = w.guards → w'.takenSince = w.takenSince → w'.phase = w.phase →
      Change idleTimeout parse w e w' := by
    intro w' h1 h2 ha hg ht hp
    refine .aside e w' h1 h2 ha fun hw => hw.sweeps ha.conns hg ha.droppedBy ht (Or.inr (by rw [hp])) ?_
    rw [hp]
    exact fun T h => h
  cases e with
  | tick d =>
    cases h
    exact apart _ (by simp) (by simp) (.of_browser rfl rfl rfl rfl) rfl rfl rfl
  | countClient c =>
    simp only [step] at h
    split at h
    · cases h
    · cases h
      refine .aside _ _ (by simp) (by simp) (.of_browser rfl rfl rfl rfl) fun hw => ?_
      exact ⟨hw.conns, hw.counted.trans (Finset.subset_insert c _), hw.gone, hw.left, hw.since, hw.doomed,
        hw.kept⟩
  | uncountClient c =>
    simp only [step] at h
    split at h
    · cases h
    · next hc =>
      cases h
      refine .aside _ _ (by simp) (by simp) (.of_browser rfl rfl rfl rfl) fun hw => ?_
      refine ⟨hw.conns, fun c' hc' => Finset.mem_erase.mpr ⟨?_, hw.counted hc'⟩, hw.gone, hw.left, hw.since,
        hw.doomed, hw.kept⟩
      rintro rfl
      exact hc hc'
  | conn ce =>
    cases ce with
    | prune live => cases h
    | connect c =>
      simp only [step] at h
      split at h
      · next hc =>
        obtain ⟨conns, hs, rfl⟩ := Option.map_eq_some_iff.mp h
        exact .conn _ conns (by simp) (fun c' hc' => by cases hc'; exact hc) hs
      · cases h
    | _ =>
      simp only [step] at h
      obtain ⟨conns, hs, rfl⟩ := Option.map_eq_some_iff.mp h
      exact .conn _ conns (by simp) (by simp) hs
  | switchProfile wsUrl =>
    cases h
    exact apart _ (by simp) (by simp) (.of_browser rfl rfl rfl rfl) rfl rfl rfl
  | sweep credentials =>
    simp only [step] at h
    split at h
    · next hp =>
      cases h
      refine .aside _ _ (by simp) (by simp) (w.aside_beginSweep credentials) fun hw => ?_
      exact hw.beginSweep hp credentials
    · cases h
  | connected ok =>
    simp only [step] at h
    split at h
    · next snap hp =>
      cases h
      refine .aside _ _ (by simp) (by simp) (.of_browser rfl rfl rfl rfl) fun hw => ?_
      refine hw.sweeps rfl rfl rfl rfl ?_ ?_
      · cases ok with
        | false => exact Or.inl rfl
        | true =>
          right
          rw [hp]
          rfl
      · cases ok <;> exact fun T hT => absurd hT List.not_mem_nil
    · cases h
  | listed response =>
    simp only [step] at h
    split at h
    · next snap hp =>
      cases response with
      | some response =>
        cases h
        exact .listed response snap (by rw [hp]; rfl)
      | none =>
        cases h
        refine .aside _ _ (by simp) (by simp) (.of_browser rfl rfl rfl rfl) fun hw => ?_
        exact hw.sweeps rfl rfl rfl rfl (Or.inl rfl) fun T hT => absurd hT List.not_mem_nil
    · cases h
  | answered r =>
    simp only [step] at h
    split at h
    · next snap id rest stage hp =>
      obtain ⟨ha, hg, ht, hφ⟩ := afterAnswer_some h
      exact .aside _ _ (by simp) (by simp) ha fun hw => hw.closing hp ha.conns hg ha.droppedBy ht hφ
    · cases h
  | issue =>
    simp only [step] at h
    split at h
    · next snap id rest hp =>
      cases h
      refine .aside _ _ (by simp) (by simp) (.of_browser rfl rfl rfl rfl) fun hw => ?_
      exact hw.closing hp rfl rfl rfl rfl (Or.inl ⟨_, rfl⟩)
    · cases h
  | closeTimeout =>
    simp only [step] at h
    split at h
    · next snap id rest stage hp =>
      cases h
      refine .aside _ _ (by simp) (by simp) (.of_browser rfl rfl rfl rfl) fun hw => ?_
      exact hw.closing hp rfl rfl rfl rfl (Or.inr rfl)
    · cases h
  | opens T =>
    simp only [step] at h
    split at h
    · cases h
    · next hT =>
      cases h
      refine apart _ (by simp) (by simp) ⟨rfl, rfl, rfl, fun T' hT' hin => ?_, fun T' h => h⟩ rfl rfl rfl
      rcases Finset.mem_insert.mp hin with rfl | hin
      · exact absurd (Or.inr hT') hT
      · exact hin
  | confirms T =>
    cases h
    exact apart _ (by simp) (by simp) ⟨rfl, rfl, rfl, fun T' _ h => h, Finset.subset_insert T _⟩ rfl rfl rfl
  | closes T =>
    cases h
    exact apart _ (by simp) (by simp) ⟨rfl, rfl, rfl, fun T' _ h => (Finset.mem_erase.mp h).2, fun T' h => h⟩
      rfl rfl rfl

/-- **Step.** -/
theorem Inv.step {parse : String → Option Json} {idleTimeout : ℕ} {w w' : HostWorld C} {e : HostEvent C}
    (hw : w.Inv) (h : w.step parse idleTimeout e = some w') : w'.Inv := by
  cases step_change h with
  | conn e conns _ counted step =>
    refine hw.withConns step fun c hc => ?_
    rcases live_or_connects step hc with hc | rfl
    · exact hw.counted hc
    · exact counted c rfl
  | listed response snap phase => exact hw.afterTargets idleTimeout phase response
  | aside _ _ _ _ _ keeps => exact keeps hw

/-! ## Is an abandoned tab remembered? -/

/-- A target whose creation was observed, that the browser still has and never confirmed to
have closed, that no live connection owns, and whose last owner has ended, is an orphan. -/
def NoneForgotten (w : HostWorld C) : Prop :=
  ∀ T ∈ w.created, T ∈ w.browser.targets → T ∉ w.browser.confirmed → w.conns.owners T = ∅ →
    (∀ c ∈ w.conns.live, w.droppedBy T ≠ some c) → T ∈ w.conns.targets.orphaned

/-- Before a connection ends: of the targets that it was the last to own and asked to close,
the browser has none left that it did not confirm to have closed.  Before a sweep prunes:
every such orphan that the browser still has is on its list. -/
def Remembers (w : HostWorld C) : HostEvent C → Prop
  | .conn (.close c _) => ∀ T ∈ w.created, T ∈ w.browser.targets → T ∉ w.browser.confirmed →
    w.conns.owners T = ∅ → w.droppedBy T ≠ some c
  | .listed (some response) => ∀ T ∈ w.conns.targets.orphaned, T ∈ w.created → T ∈ w.browser.targets →
    T ∉ w.browser.confirmed → T ∈ listedIds response
  | _ => True

instance (w : HostWorld C) : ∀ e, Decidable (w.Remembers e)
  | .conn (.close c _) => inferInstanceAs (Decidable (∀ T ∈ w.created, T ∈ w.browser.targets →
      T ∉ w.browser.confirmed → w.conns.owners T = ∅ → w.droppedBy T ≠ some c))
  | .listed (some response) => inferInstanceAs (Decidable (∀ T ∈ w.conns.targets.orphaned, T ∈ w.created →
      T ∈ w.browser.targets → T ∉ w.browser.confirmed → T ∈ listedIds response))
  | .tick _ | .countClient _ | .uncountClient _ | .conn (.connect _) | .conn (.request _ _)
  | .conn (.response _ _) | .conn (.prune _) | .switchProfile _ | .sweep _ | .connected _ | .listed none
  | .answered _ | .issue | .closeTimeout | .opens _ | .confirms _ | .closes _ => isTrue trivial

omit [DecidableEq C] in
theorem NoneForgotten.aside {w w' : HostWorld C} (hn : w.NoneForgotten) (ha : w.Aside w') :
    w'.NoneForgotten := by
  intro T hcr ht hco ho hd
  rw [ha.created] at hcr
  rw [ha.conns] at ho hd ⊢
  rw [ha.droppedBy] at hd
  exact hn T hcr (ha.targets T hcr ht) (fun h => hco (ha.confirmed h)) ho hd

/-- A frame, or the start of a connection, forgets nothing. -/
theorem NoneForgotten.frame {parse : String → Option Json} {w : HostWorld C} {e : ConnectionEvent C}
    {conns : Connections C} (hn : w.NoneForgotten) (h : w.conns.step parse e = some conns)
    (hp : ∀ live, e ≠ .prune live) (hlive : w.conns.live ⊆ conns.live) :
    (w.withConns parse e conns).NoneForgotten := by
  intro T hcr ht hco ho hd
  have ho : conns.owners T = ∅ := ho
  rcases Finset.mem_union.mp hcr with hcr | hcr
  · rcases Finset.eq_empty_or_nonempty (w.conns.owners T) with hnone | hsome
    · refine orphan_stays h hp (hn T hcr ht hco hnone fun c hc => ?_) ho
      have hdc := hd c (hlive hc)
      unfold withConns at hdc
      simp only [hnone, Finset.notMem_empty, false_and, if_false] at hdc
      split at hdc <;> exact hdc
    · -- its last owner gave it up with this frame, and is live
      exfalso
      obtain ⟨c, hpc, hc⟩ := dropper h hsome ho
      refine hd c (hlive (mem_owners.mp hc).1) ?_
      unfold withConns
      simp only [hpc]
      refine if_pos ⟨hc, ?_⟩
      rw [ho]
      exact Finset.notMem_empty c
  · have hrep := Option.mem_toFinset.mp hcr
    have hne := owner_of_reports h hrep
    rw [ho] at hne
    exact absurd hne Finset.not_nonempty_empty

/-- The end of a connection forgets nothing iff it meets `Remembers`. -/
theorem noneForgotten_ends {parse : String → Option Json} {w : HostWorld C} {c : C} {order : List String}
    (hw : w.Inv) (hn : w.NoneForgotten) (hc : c ∈ w.conns.live) (hnd : order.Nodup)
    (ho : order.toFinset = (w.conns.ledger c).owned) :
    (w.withConns parse (.close c order) (w.conns.closed c order)).NoneForgotten ↔
      w.Remembers (.conn (.close c order)) := by
  have hcreated : (w.withConns parse (.close c order) (w.conns.closed c order)).created = w.created :=
    Finset.union_empty _
  have horph := hw.conns.orphaned_closed hc hnd ho
  -- a target that nobody held keeps the connection that was the last to drop it
  have hdrop : ∀ T, w.conns.owners T = ∅ →
      (w.withConns parse (.close c order) (w.conns.closed c order)).droppedBy T = w.droppedBy T := by
    intro T hT
    show (if c ∈ w.conns.owners T ∧ c ∉ (w.conns.closed c order).owners T then some c else w.droppedBy T) = _
    rw [if_neg]
    rintro ⟨h, -⟩
    rw [hT] at h
    exact Finset.notMem_empty c h
  constructor
  · intro h T hcr ht hco hT hd
    have hmem : T ∈ (w.conns.closed c order).targets.orphaned := by
      refine h T (by rw [hcreated]; exact hcr) ht hco ?_ fun c' hc' hd' => ?_
      · show (w.conns.closed c order).owners T = ∅
        rw [owners_closed, hT]
        rfl
      · rw [hdrop T hT, hd] at hd'
        exact (Finset.mem_erase.mp hc').1 (Option.some.inj hd').symm
    rcases (horph T).mp hmem with hmem | ⟨hown, -⟩
    · obtain ⟨c', hend, hd'⟩ := hw.left T hmem
      rw [hd] at hd'
      exact hw.gone c hc (Option.some.inj hd' ▸ hend)
    · have hin : c ∈ w.conns.owners T := mem_owners.mpr ⟨hc, hown⟩
      rw [hT] at hin
      exact Finset.notMem_empty c hin
  · intro h T hcr ht hco hT hd
    rw [hcreated] at hcr
    have hT : (w.conns.owners T).erase c = ∅ := by
      rw [← owners_closed w.conns c order]
      exact hT
    refine (horph T).mpr ?_
    by_cases hin : c ∈ w.conns.owners T
    · exact Or.inr ⟨(mem_owners.mp hin).2, hT⟩
    · rw [Finset.erase_eq_of_notMem hin] at hT
      refine Or.inl (hn T hcr ht hco hT fun c' hc' hd' => ?_)
      by_cases hcc : c' = c
      · exact h T hcr ht hco hT (hcc ▸ hd')
      · exact hd c' (Finset.mem_erase.mpr ⟨hcc, hc'⟩) ((hdrop T hT).trans hd')

omit [DecidableEq C] in
/-- A prune forgets nothing iff it meets `Remembers`. -/
theorem noneForgotten_prunes {w : HostWorld C} (hw : w.Inv) (hn : w.NoneForgotten) (idleTimeout : ℕ)
    (snap : Snapshot) (response : Json) :
    (w.afterTargets idleTimeout snap response).NoneForgotten ↔ w.Remembers (.listed (some response)) := by
  have hmem : ∀ T, T ∈ (w.afterTargets idleTimeout snap response).conns.targets.orphaned ↔
      T ∈ w.conns.targets.orphaned ∧ T ∈ listedIds response := by
    intro T
    rw [← mem_seen snap idleTimeout w.now w.tracker]
    exact Finset.mem_filter
  constructor
  · intro h T hT hcr ht hco
    obtain ⟨c, hend, hd⟩ := hw.left T hT
    refine ((hmem T).mp (h T hcr ht hco (hw.conns.apart T hT) fun c' hc' hd' => ?_)).2
    have hcc : c = c' := Option.some.inj (hd.symm.trans hd')
    exact hw.gone c' hc' (hcc ▸ hend)
  · intro h T hcr ht hco ho hd
    have hT := hn T hcr ht hco ho hd
    exact (hmem T).mpr ⟨hT, h T hT hcr ht hco⟩

theorem noneForgotten_step {parse : String → Option Json} {idleTimeout : ℕ} {w w' : HostWorld C}
    {e : HostEvent C} (hw : w.Inv) (hn : w.NoneForgotten) (h : w.step parse idleTimeout e = some w') :
    w'.NoneForgotten ↔ w.Remembers e := by
  cases step_change h with
  | conn e conns notPrune _ step =>
    cases e with
    | prune live => exact absurd rfl (notPrune live)
    | close c order =>
      cases Connections.step_change step with
      | observes _ _ event =>
        obtain ⟨frame, he | he⟩ := event <;> cases he
      | ends _ _ live nodup all => exact noneForgotten_ends hw hn live nodup all
    | connect c =>
      refine iff_of_true (hn.frame step (by simp) ?_) trivial
      cases Connections.step_change step with
      | connects _ _ _ => exact Finset.subset_insert c _
      | observes _ _ event =>
        obtain ⟨frame, he | he⟩ := event <;> cases he
    | request c frame =>
      refine iff_of_true (hn.frame step (by simp) ?_) trivial
      cases Connections.step_change step with
      | observes _ _ _ => exact Finset.Subset.refl _
    | response c frame =>
      refine iff_of_true (hn.frame step (by simp) ?_) trivial
      cases Connections.step_change step with
      | observes _ _ _ => exact Finset.Subset.refl _
  | listed response snap phase => exact noneForgotten_prunes hw hn idleTimeout snap response
  | aside _ _ notConn notListed aside _ =>
    refine iff_of_true (hn.aside aside) ?_
    cases e with
    | conn ce => exact absurd rfl (notConn ce)
    | listed response =>
      cases response with
      | none => trivial
      | some response => exact absurd rfl (notListed response)
    | _ => trivial

/-- **No abandoned tab is forgotten** throughout a run exactly if each end of a connection
and each prune of it meets `Remembers`. -/
theorem none_forgotten (parse : String → Option Json) (idleTimeout : ℕ) {wsUrl : Option String}
    {targets : Finset String} {es : List (HostEvent C)} {w : HostWorld C}
    (hrun : Run.run (step parse idleTimeout) (start C wsUrl targets) es = some w) :
    Run.Always (step parse idleTimeout) NoneForgotten (start C wsUrl targets) es ↔
      Run.RunMeets (step parse idleTimeout) Remembers (start C wsUrl targets) es :=
  Run.always_iff_runMeets (step parse idleTimeout) (Inv.start wsUrl targets)
    (fun T hT => absurd hT (Finset.notMem_empty T)) (fun _ _ _ hi h => hi.step h)
    (fun _ _ _ hi hn h => noneForgotten_step hi hn h) hrun

/-! ## Is a tab the reaper closes in use? -/

/-- Where the sweep sends `Target.closeTarget`, no live connection owns the target. -/
def ClosesUnused (w : HostWorld C) : HostEvent C → Prop
  | .issue => ∀ snap id rest, w.phase = .closing snap id rest .issuing →
    ∀ c ∈ w.conns.live, id ∉ (w.conns.ledger c).owned
  | _ => True

/-- Where the sweep sends `Target.closeTarget`, each connection that took the target since the
sweep's snapshot has asked to close it or ended. -/
def NotRetaken (w : HostWorld C) : HostEvent C → Prop
  | .issue => ∀ snap id rest, w.phase = .closing snap id rest .issuing →
    ∀ c ∈ w.conns.live, id ∉ w.takenSince c
  | _ => True

omit [DecidableEq C] in
/-- Nobody owns a doomed target since before the snapshot. -/
theorem closesUnused_iff {w : HostWorld C} (hw : w.Inv) (e : HostEvent C) :
    w.ClosesUnused e ↔ w.NotRetaken e := by
  cases e with
  | issue =>
    constructor
    · intro h snap id rest hp c hc htaken
      exact h snap id rest hp c hc (hw.kept c htaken)
    · intro h snap id rest hp c hc hown
      have hs : w.phase.snapshot = some snap := by rw [hp]; rfl
      have hsus : snap.Suspects id := hw.doomed snap hs id (by rw [hp]; exact List.mem_cons_self)
      exact h snap id rest hp c hc (hw.since snap hs id hsus c (mem_owners.mpr ⟨hc, hown⟩))
  | _ => exact Iff.rfl

/-- **The reaper closes no tab in use** in a run exactly if, at each close, every connection
that took the tab since the snapshot of the sweep has asked to close it or ended. -/
theorem closes_unused (parse : String → Option Json) (idleTimeout : ℕ) (wsUrl : Option String)
    (targets : Finset String) (es : List (HostEvent C)) :
    Run.RunMeets (step parse idleTimeout) ClosesUnused (start C wsUrl targets) es ↔
      Run.RunMeets (step parse idleTimeout) NotRetaken (start C wsUrl targets) es := by
  have key : ∀ xs w, Run.run (step parse idleTimeout) (start C wsUrl targets) xs = some w →
      ∀ e, w.ClosesUnused e ↔ w.NotRetaken e := by
    intro xs w hw e
    exact closesUnused_iff (Run.run_invariant (step parse idleTimeout) (Inv.start wsUrl targets)
      (fun _ _ _ hi h => hi.step h) hw) e
  constructor
  · intro h xs e ys w hes hw
    exact (key xs w hw e).mp (h xs e ys w hes hw)
  · intro h xs e ys w hes hw
    exact (key xs w hw e).mpr (h xs e ys w hes hw)

end HostWorld

/-! ## Runs that forget a tab, and that close one in use -/

/-- Connection `c` starts; the browser opens `T` for it. -/
def createSteps (c : ℕ) : List (HostEvent ℕ) :=
  [.countClient c, .conn (.connect c), .conn (.request c createFrame), .opens "T",
   .conn (.response c createdFrame)]

/-- The connection asks the browser to close its target; the browser refuses, and it ends. -/
def refusedClose : List (HostEvent ℕ) :=
  createSteps 0 ++ [.conn (.request 0 closeFrame), .conn (.close 0 [])]

theorem refused_close_forgotten :
    ¬ Run.Always (HostWorld.step parseFrame 1) HostWorld.NoneForgotten
      (HostWorld.start ℕ (some "ws://b") ∅) refusedClose := by
  intro h
  have hf : (Run.run (HostWorld.step parseFrame 1) (HostWorld.start ℕ (some "ws://b") ∅) refusedClose).map
      (fun w => (w.created, w.browser.targets, w.browser.confirmed, w.conns.live, w.conns.targets.orphaned)) =
      some ({"T"}, {"T"}, ∅, ∅, ∅) := by decide
  obtain ⟨w, hw, hf⟩ := Option.map_eq_some_iff.mp hf
  simp only [Prod.mk.injEq] at hf
  obtain ⟨hcr, ht, hco, hl, ho⟩ := hf
  have hT := h refusedClose [] w (List.append_nil _).symm hw "T" (by rw [hcr]; decide) (by rw [ht]; decide)
    (by rw [hco]; decide) (by rw [Connections.owners, hl]; rfl) (by rw [hl]; simp)
  rw [ho] at hT
  exact Finset.notMem_empty "T" hT

/-- What `Target.getTargets` answers: the tab, and the window anchor. -/
def listOfTab : Json :=
  .obj [("targetInfos", .arr
    [.obj [("targetId", .str "T"), ("type", .str "page"), ("url", .str "https://a.test/")],
     .obj [("targetId", .str "W"), ("type", .str "page"), ("url", .str windowAnchor)]])]

/-- A connection leaves its tab behind, and a sweep remembers it. -/
def leftTab : List (HostEvent ℕ) :=
  createSteps 0 ++ [.conn (.close 0 ["T"]), .uncountClient 0, .sweep false, .connected true,
    .listed (some listOfTab)]

theorem none_forgotten_leftTab :
    Run.Always (HostWorld.step parseFrame 1) HostWorld.NoneForgotten
      (HostWorld.start ℕ (some "ws://b") ∅) leftTab := by
  have hs : (Run.run (HostWorld.step parseFrame 1) (HostWorld.start ℕ (some "ws://b") ∅) leftTab).isSome =
      true := by decide
  obtain ⟨w, hw⟩ := Option.isSome_iff_exists.mp hs
  exact (HostWorld.none_forgotten parseFrame 1 hw).mpr (by decide)

/-- A later sweep closes the tab; while it lists the targets another connection attaches. -/
def attachUnderSweep : List (HostEvent ℕ) :=
  leftTab ++ [.tick 1, .sweep false, .connected true, .listed (some listOfTab), .countClient 1,
    .conn (.connect 1), .conn (.request 1 attachFrame), .answered (.ok listOfTab)]

theorem retaken_closed :
    ¬ Run.RunMeets (HostWorld.step parseFrame 1) HostWorld.ClosesUnused
      (HostWorld.start ℕ (some "ws://b") ∅) (attachUnderSweep ++ [.issue]) := by
  intro h
  have hf : (Run.run (HostWorld.step parseFrame 1) (HostWorld.start ℕ (some "ws://b") ∅) attachUnderSweep).map
      (fun w => (w.phase, decide (1 ∈ w.conns.live ∧ "T" ∈ (w.conns.ledger 1).owned))) =
      some (.closing ⟨false, {"T"}⟩ "T" [] .issuing, true) := by decide
  obtain ⟨w, hw, hf⟩ := Option.map_eq_some_iff.mp hf
  simp only [Prod.mk.injEq, decide_eq_true_eq] at hf
  exact h attachUnderSweep .issue [] w rfl hw ⟨false, {"T"}⟩ "T" [] hf.1 1 hf.2.1 hf.2.2

end Afhttp.Host

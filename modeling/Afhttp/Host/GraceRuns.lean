import Afhttp.Host.Grace

/-!
# The grace of a released tab

A tab that its last connection leaves behind should have a full timeout before a sweep closes
it.  The sweeps alone set and stop the clocks, so a connection that takes a tab and leaves it
again between two sweeps leaves its old clock running (`short_adoption_closed`), and one that
does so after a sweep has decided gives it no time at all.  In the runs where no tab is
released under a running clock or a sweep that has decided, each has it
(`released_in_grace`).
-/

namespace Afhttp.Host

/-- The host, and when each target last became an orphan. -/
structure Releases (C : Type) where
  world : HostWorld C
  releasedAt : String → Option ℕ

namespace Releases

variable {C : Type}

def start (C : Type) (wsUrl : Option String) (targets : Finset String) : Releases C :=
  ⟨.start C wsUrl targets, fun _ => none⟩

/-- The targets that are orphans only after the step are released by it. -/
def next (s : Releases C) (world : HostWorld C) : Releases C where
  world := world
  releasedAt T :=
    if T ∈ world.conns.targets.orphaned ∧ T ∉ s.world.conns.targets.orphaned then some s.world.now
    else s.releasedAt T

variable [DecidableEq C]

def step (parse : String → Option Json) (idleTimeout : ℕ) (s : Releases C) (e : HostEvent C) :
    Option (Releases C) :=
  (s.world.step parse idleTimeout e).map s.next

end Releases

/-! ## Steps that release nothing -/

namespace HostWorld

variable {C : Type}

/-- The step releases nothing, starts no clock, and dooms nothing. -/
structure Calm (w w' : HostWorld C) : Prop where
  orphaned : w'.conns.targets.orphaned ⊆ w.conns.targets.orphaned
  now : w.now ≤ w'.now
  clocks : ∀ T s, w'.tracker.idleSince T = some s → w.tracker.idleSince T = some s
  doomed : ∀ T ∈ w'.phase.doomed, T ∈ w.phase.doomed

theorem Calm.of_eq {w w' : HostWorld C} (ho : w'.conns.targets.orphaned ⊆ w.conns.targets.orphaned)
    (hn : w'.now = w.now) (ht : w'.tracker = w.tracker) (hp : ∀ T ∈ w'.phase.doomed, T ∈ w.phase.doomed) :
    w.Calm w' :=
  ⟨ho, hn.ge, fun T s h => by rw [ht] at h; exact h, hp⟩

theorem calm_beginSweep (w : HostWorld C) (credentials : Bool) : w.Calm (w.beginSweep credentials) := by
  have hclock : ∀ T s, (w.tracker.beginSweep w.wsUrl credentials
      ⟨decide (0 < w.guards.card), w.conns.targets.orphaned⟩).1.idleSince T = some s →
      w.tracker.idleSince T = some s := by
    intro T s h
    rw [(Tracker.beginSweep_clock h).1] at h
    exact h
  rw [w.beginSweep_eq credentials]
  split
  · exact ⟨Finset.Subset.refl _, Nat.le_refl _, hclock, fun T h => absurd h List.not_mem_nil⟩
  · exact ⟨Finset.Subset.refl _, Nat.le_refl _, hclock, fun T h => h⟩

/-- The close of `id` goes on to another stage, or to the next target. -/
theorem calm_closing {w w' : HostWorld C} {snap : Snapshot} {id : String} {rest : List String}
    {stage : CloseStage} (hp : w.phase = .closing snap id rest stage)
    (ho : w'.conns.targets.orphaned ⊆ w.conns.targets.orphaned) (hn : w'.now = w.now)
    (ht : ∀ T s, w'.tracker.idleSince T = some s → w.tracker.idleSince T = some s)
    (hφ : (∃ stage', w'.phase = .closing snap id rest stage') ∨ w'.phase = .next snap rest) : w.Calm w' := by
  refine ⟨ho, hn.ge, ht, fun T hT => ?_⟩
  rw [hp]
  rcases hφ with ⟨stage', hφ⟩ | hφ
  · rw [hφ] at hT
    exact hT
  · rw [hφ, (SweepPhase.next_cases snap rest).1] at hT
    exact List.mem_cons_of_mem _ hT

theorem calm_afterAnswer {w w' : HostWorld C} {snap : Snapshot} {id : String} {rest : List String}
    {r : Except Error Json} {stage : CloseStage} (hp : w.phase = .closing snap id rest stage)
    (h : w.afterAnswer snap id rest r stage = some w') : w.Calm w' := by
  obtain ⟨aside, -, -, hφ⟩ := afterAnswer_some h
  have hsame : w'.now = w.now ∧ ∀ T s, w'.tracker.idleSince T = some s → w.tracker.idleSince T = some s := by
    cases stage with
    | issuing => cases h
    | confirming =>
      simp only [afterAnswer] at h
      split at h
      · cases h
        refine ⟨rfl, fun T s hclock => ?_⟩
        have hclock : Function.update w.tracker.idleSince id none T = some s := hclock
        by_cases hT : T = id
        · rw [hT, Function.update_self] at hclock
          cases hclock
        · rwa [Function.update_of_ne hT] at hclock
      · cases h
        exact ⟨rfl, fun T s h => h⟩
    | _ =>
      simp only [afterAnswer] at h
      split at h <;> cases h <;> exact ⟨rfl, fun T s h => h⟩
  exact calm_closing hp (by rw [aside.conns]) hsame.1 hsame.2 hφ

variable [DecidableEq C]

/-- Connections release targets when they end, and only then. -/
theorem calm_conn {parse : String → Option Json} {w : HostWorld C} {e : ConnectionEvent C}
    {conns : Connections C} (h : w.conns.step parse e = some conns) (hno : ∀ c order, e ≠ .close c order) :
    w.Calm (w.withConns parse e conns) := by
  have ho : conns.targets.orphaned ⊆ w.conns.targets.orphaned := by
    cases Connections.step_change h with
    | connects c => exact Finset.Subset.refl _
    | observes _ c _ _ r frame =>
      obtain ⟨l', holding⟩ := r
      cases frame with
      | quiet _ => exact Finset.Subset.refl _
      | took t _ _ => exact Finset.erase_subset t _
      | closed t _ _ => exact Finset.Subset.refl _
    | ends c order => exact absurd rfl (hno c order)
    | prunes live => exact Finset.filter_subset _ _
  exact .of_eq ho rfl rfl fun T h => h

/-- **What a step can do to the grace of a target.** -/
inductive Timing (parse : String → Option Json) (idleTimeout : ℕ) (w : HostWorld C) :
    HostEvent C → HostWorld C → Prop where
  | ends (c : C) (order : List String) (live : c ∈ w.conns.live) (nodup : order.Nodup)
      (all : order.toFinset = (w.conns.ledger c).owned) :
      Timing parse idleTimeout w (.conn (.close c order))
        (w.withConns parse (.close c order) (w.conns.closed c order))
  | listed (response : Json) (snap : Snapshot) (phase : w.phase.snapshot = some snap) :
      Timing parse idleTimeout w (.listed (some response)) (w.afterTargets idleTimeout snap response)
  | calm (e : HostEvent C) (w' : HostWorld C) (calm : w.Calm w') : Timing parse idleTimeout w e w'

theorem step_timing {parse : String → Option Json} {idleTimeout : ℕ} {w w' : HostWorld C} {e : HostEvent C}
    (h : w.step parse idleTimeout e = some w') : Timing parse idleTimeout w e w' := by
  have same : ∀ w' : HostWorld C, w'.conns = w.conns → w'.now = w.now → w'.tracker = w.tracker →
      (∀ T ∈ w'.phase.doomed, T ∈ w.phase.doomed) → Timing parse idleTimeout w e w' := by
    intro w' hc hn ht hp
    exact .calm e w' (.of_eq (by rw [hc]) hn ht hp)
  cases e with
  | tick d =>
    cases h
    exact .calm _ _ ⟨Finset.Subset.refl _, Nat.le_add_right _ _, fun T s h => h, fun T h => h⟩
  | conn ce =>
    cases ce with
    | prune live => cases h
    | connect c =>
      simp only [step] at h
      split at h
      · obtain ⟨conns, hs, rfl⟩ := Option.map_eq_some_iff.mp h
        exact .calm _ _ (calm_conn hs (by simp))
      · cases h
    | close c order =>
      simp only [step] at h
      obtain ⟨conns, hs, rfl⟩ := Option.map_eq_some_iff.mp h
      cases Connections.step_change hs with
      | observes _ _ event =>
        obtain ⟨frame, he | he⟩ := event <;> cases he
      | ends _ _ live nodup all => exact .ends c order live nodup all
    | _ =>
      simp only [step] at h
      obtain ⟨conns, hs, rfl⟩ := Option.map_eq_some_iff.mp h
      exact .calm _ _ (calm_conn hs (by simp))
  | sweep credentials =>
    simp only [step] at h
    split at h
    · cases h
      exact .calm _ _ (w.calm_beginSweep credentials)
    · cases h
  | connected ok =>
    simp only [step] at h
    split at h
    · cases h
      refine same _ rfl rfl rfl fun T hT => absurd hT ?_
      cases ok <;> exact List.not_mem_nil
    · cases h
  | listed response =>
    simp only [step] at h
    split at h
    · next snap hp =>
      cases response with
      | some response =>
        cases h
        exact .listed response snap (by rw [hp]; rfl)
      | none =>
        cases h
        exact same _ rfl rfl rfl fun T hT => absurd hT List.not_mem_nil
    · cases h
  | answered r =>
    simp only [step] at h
    split at h
    · next snap id rest stage hp => exact .calm _ _ (calm_afterAnswer hp h)
    · cases h
  | issue =>
    simp only [step] at h
    split at h
    · next snap id rest hp =>
      cases h
      exact .calm _ _ (calm_closing hp (Finset.Subset.refl _) rfl (fun T s h => h) (Or.inl ⟨_, rfl⟩))
    · cases h
  | closeTimeout =>
    simp only [step] at h
    split at h
    · next snap id rest stage hp =>
      cases h
      exact .calm _ _ (calm_closing hp (Finset.Subset.refl _) rfl (fun T s h => h) (Or.inr rfl))
    · cases h
  | countClient c =>
    simp only [step] at h
    split at h <;> cases h
    exact same _ rfl rfl rfl fun T h => h
  | uncountClient c =>
    simp only [step] at h
    split at h <;> cases h
    exact same _ rfl rfl rfl fun T h => h
  | opens T =>
    simp only [step] at h
    split at h <;> cases h
    exact same _ rfl rfl rfl fun T h => h
  | switchProfile _ | confirms _ | closes _ =>
    cases h
    exact same _ rfl rfl rfl fun T h => h

end HostWorld

namespace Releases

open Connections

variable {C : Type}

/-- What the grace of a released target rests on. -/
structure Inv (idleTimeout : ℕ) (s : Releases C) : Prop where
  world : s.world.Inv
  past : ∀ T r, s.releasedAt T = some r → r ≤ s.world.now
  /-- A clock was not started before the release. -/
  clocks : ∀ T r, s.releasedAt T = some r → ∀ since, s.world.tracker.idleSince T = some since → r ≤ since
  doomed : ∀ T r, s.releasedAt T = some r → T ∈ s.world.phase.doomed → r + idleTimeout ≤ s.world.now

/-- Where the sweep sends `Target.closeTarget`, the target was released `idleTimeout` ago. -/
def InGrace (idleTimeout : ℕ) (s : Releases C) : HostEvent C → Prop
  | .issue => ∀ snap id rest, s.world.phase = .closing snap id rest .issuing →
    ∀ r, s.releasedAt id = some r → r + idleTimeout ≤ s.world.now
  | _ => True

variable [DecidableEq C]

/-- A connection that ends leaves no target behind whose clock was started before, or which a
sweep has decided to close. -/
def FreshRelease (s : Releases C) : HostEvent C → Prop
  | .conn (.close c _) => ∀ T ∈ (s.world.conns.ledger c).owned, (s.world.conns.owners T).erase c = ∅ →
    T ∉ s.world.phase.doomed ∧ ∀ since ∈ s.world.tracker.idleSince T, s.world.now ≤ since
  | _ => True

instance (s : Releases C) : ∀ e, Decidable (s.FreshRelease e)
  | .conn (.close c _) => inferInstanceAs (Decidable (∀ T ∈ (s.world.conns.ledger c).owned,
      (s.world.conns.owners T).erase c = ∅ → T ∉ s.world.phase.doomed ∧
        ∀ since ∈ s.world.tracker.idleSince T, s.world.now ≤ since))
  | .tick _ | .countClient _ | .uncountClient _ | .conn (.connect _) | .conn (.request _ _)
  | .conn (.response _ _) | .conn (.prune _) | .switchProfile _ | .sweep _ | .connected _ | .listed _
  | .answered _ | .issue | .closeTimeout | .opens _ | .confirms _ | .closes _ => isTrue trivial

omit [DecidableEq C] in
theorem Inv.start (idleTimeout : ℕ) (wsUrl : Option String) (targets : Finset String) :
    (start C wsUrl targets).Inv idleTimeout where
  world := .start wsUrl targets
  past T r h := by cases h
  clocks T r h := by cases h
  doomed T r h := by cases h

omit [DecidableEq C] in
theorem next_releasedAt {s : Releases C} {w' : HostWorld C}
    (ho : w'.conns.targets.orphaned ⊆ s.world.conns.targets.orphaned) (T : String) :
    (s.next w').releasedAt T = s.releasedAt T := by
  show (if _ ∧ _ then _ else _) = _
  rw [if_neg]
  rintro ⟨hin, hno⟩
  exact hno (ho hin)

/-- **Step.** -/
theorem Inv.step {parse : String → Option Json} {idleTimeout : ℕ} {s s' : Releases C} {e : HostEvent C}
    (hs : s.Inv idleTimeout) (hok : s.FreshRelease e) (h : s.step parse idleTimeout e = some s') :
    s'.Inv idleTimeout := by
  obtain ⟨w', hw', rfl⟩ := Option.map_eq_some_iff.mp h
  have hworld : w'.Inv := hs.world.step hw'
  cases HostWorld.step_timing hw' with
  | ends c order live nodup all =>
    -- what holds of a target released before goes on; one released now has a fresh clock
    have hcase : ∀ T r, (s.next (s.world.withConns parse (.close c order)
        (s.world.conns.closed c order))).releasedAt T = some r → s.releasedAt T = some r ∨
        r = s.world.now ∧ T ∉ s.world.phase.doomed ∧
          ∀ since ∈ s.world.tracker.idleSince T, s.world.now ≤ since := by
      intro T r hr
      by_cases hnew : T ∈ (s.world.conns.closed c order).targets.orphaned ∧
          T ∉ s.world.conns.targets.orphaned
      · have hnow : some s.world.now = some r := (if_pos hnew).symm.trans hr
        obtain ⟨hown, hlast⟩ :=
          ((hs.world.conns.orphaned_closed live nodup all T).mp hnew.1).resolve_left hnew.2
        exact Or.inr ⟨(Option.some.inj hnow).symm, hok T hown hlast⟩
      · exact Or.inl ((if_neg hnew).symm.trans hr)
    refine ⟨hworld, fun T r hr => ?_, fun T r hr since hc => ?_, fun T r hr hd => ?_⟩
    · rcases hcase T r hr with hold | ⟨rfl, -, -⟩
      · exact hs.past T r hold
      · exact Nat.le_refl _
    · rcases hcase T r hr with hold | ⟨rfl, -, hfresh⟩
      · exact hs.clocks T r hold since hc
      · exact hfresh since hc
    · rcases hcase T r hr with hold | ⟨-, hno, -⟩
      · exact hs.doomed T r hold hd
      · exact absurd hd hno
  | listed response snap phase =>
    have hrel : ∀ T, (s.next (s.world.afterTargets idleTimeout snap response)).releasedAt T = s.releasedAt T :=
      next_releasedAt (Finset.filter_subset _ _)
    refine ⟨hworld, fun T r hr => ?_, fun T r hr since hc => ?_, fun T r hr hd => ?_⟩
    · rw [hrel] at hr
      exact hs.past T r hr
    · rw [hrel] at hr
      have hc : (s.world.tracker.listed idleTimeout s.world.now snap response).1.idleSince T = some since := hc
      rcases (Tracker.listed_clock hc).2.2 with hold | rfl
      · exact hs.clocks T r hr since hold
      · exact hs.past T r hr
    · rw [hrel] at hr
      have hd : T ∈ (SweepPhase.next snap
        (s.world.tracker.listed idleTimeout s.world.now snap response).2).doomed := hd
      rw [(SweepPhase.next_cases snap _).1] at hd
      obtain ⟨-, -, since, hrun, hclock⟩ := Tracker.listed_expired hd
      have hpast := hs.past T r hr
      show r + idleTimeout ≤ s.world.now
      rcases hclock with hold | rfl
      · have hle := hs.clocks T r hr since hold
        omega
      · omega
  | calm _ _ calm =>
    have hrel := next_releasedAt (s := s) calm.orphaned
    refine ⟨hworld, fun T r hr => ?_, fun T r hr since hc => ?_, fun T r hr hd => ?_⟩
    · rw [hrel] at hr
      exact (hs.past T r hr).trans calm.now
    · rw [hrel] at hr
      exact hs.clocks T r hr since (calm.clocks T since hc)
    · rw [hrel] at hr
      exact (hs.doomed T r hr (calm.doomed T hd)).trans calm.now

/-- **A full timeout after each release.**  In a run in which no connection ends leaving a
target behind that has an old clock, or that a sweep has decided to close, no sweep closes a
target earlier than `idleTimeout` after it was last released. -/
theorem released_in_grace (parse : String → Option Json) (idleTimeout : ℕ) (wsUrl : Option String)
    (targets : Finset String) (es : List (HostEvent C))
    (hok : Run.RunMeets (step parse idleTimeout) FreshRelease (start C wsUrl targets) es) :
    Run.RunMeets (step parse idleTimeout) (InGrace idleTimeout) (start C wsUrl targets) es := by
  rintro xs e ys s rfl hs
  have hinv : s.Inv idleTimeout := by
    refine Run.runMeets_invariant (step parse idleTimeout) (Inv.start idleTimeout wsUrl targets) ?_ hok.of_append hs
    exact fun s e s' hi hoke h => hi.step hoke h
  cases e with
  | issue =>
    intro snap id rest hp r hr
    exact hinv.doomed id r hr (by rw [hp]; exact List.mem_cons_self)
  | _ => trivial

end Releases

/-! ## Runs -/

/-- Two sweeps ten instants apart, with `between` in the middle; the second closes the tab. -/
def closeAfter (between : List (HostEvent ℕ)) : List (HostEvent ℕ) :=
  leftTab ++ between ++ [.sweep false, .connected true, .listed (some listOfTab), .answered (.ok listOfTab)]

theorem released_in_grace_leftTab :
    Run.RunMeets (Releases.step parseFrame 10) (Releases.InGrace 10) (Releases.start ℕ (some "ws://b") ∅)
        (closeAfter [.tick 10] ++ [.issue]) ∧
      (Run.run (Releases.step parseFrame 10) (Releases.start ℕ (some "ws://b") ∅)
        (closeAfter [.tick 10] ++ [.issue])).isSome = true :=
  ⟨Releases.released_in_grace parseFrame 10 (some "ws://b") ∅ _ (by decide), by decide⟩

/-- A connection attaches to the orphan and leaves it again, one instant before the sweep. -/
theorem short_adoption_closed :
    ¬ Run.RunMeets (Releases.step parseFrame 10) (Releases.InGrace 10) (Releases.start ℕ (some "ws://b") ∅)
      (closeAfter [.tick 9, .countClient 1, .conn (.connect 1), .conn (.request 1 attachFrame),
        .conn (.close 1 ["T"]), .uncountClient 1, .tick 1] ++ [.issue]) := by
  intro h
  have hf : (Run.run (Releases.step parseFrame 10) (Releases.start ℕ (some "ws://b") ∅)
      (closeAfter [.tick 9, .countClient 1, .conn (.connect 1), .conn (.request 1 attachFrame),
        .conn (.close 1 ["T"]), .uncountClient 1, .tick 1])).map
      (fun s => (s.world.phase, s.world.now, s.releasedAt "T")) =
      some (.closing ⟨false, {"T"}⟩ "T" [] .issuing, 10, some 9) := by decide
  obtain ⟨s, hs, hf⟩ := Option.map_eq_some_iff.mp hf
  simp only [Prod.mk.injEq] at hf
  obtain ⟨hp, hn, hr⟩ := hf
  have hgrace := h _ .issue [] s rfl hs ⟨false, {"T"}⟩ "T" [] hp 9 hr
  rw [hn] at hgrace
  exact absurd hgrace (by decide)

end Afhttp.Host

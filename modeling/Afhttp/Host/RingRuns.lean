import Mathlib
import Afhttp.Host.RecentRequests

/-!
# The ring across profile switches

A switch clears the ring before it ends the old subscription.  A subscriber that the switch has not
aborted yet, or that the runtime has not stopped, then records the old browser's traffic into the new
browser's ring (`old_subscriber_pushes`); a running one does so only between the two
(`late_of_running`).  Where none does, the ring is the new browser's alone (`ring_isolated`).
-/

namespace Afhttp.Host

open Text

/-! ## One switch at a time -/

def HandlerEvent.handler {H : Type} : HandlerEvent H → H
  | ensure h _ | lockSwitch h | recheck h | readCount h | launched h _ | swap h | reset h | takeGuard h
  | readProfile h | close h | cancel h => h

theorem HandlerPhase.switching_of_isResetting {φ : HandlerPhase} (h : φ.isResetting = true) :
    φ.switching = true := by
  cases φ <;> first | rfl | cases h

namespace HostState

variable {H : Type} [DecidableEq H] {fmt : DebugFormat} {s s' : HostState H} {e : HandlerEvent H}

/-- A handler behind the switch lock has it. -/
def Locked (s : HostState H) : Prop := ∀ h, (s.phase h).switching = true → s.switchLock = some h

/-- What a step does to the switch lock; its handler is in phase `φ` afterwards. -/
inductive LockChange (s s' : HostState H) (e : HandlerEvent H) (φ : HandlerPhase) : Prop where
  | keeps (switching : φ.switching = (s.phase e.handler).switching) (lock : s'.switchLock = s.switchLock)
  | takes (free : s.switchLock = none) (lock : s'.switchLock = some e.handler)
  | leaves (before : (s.phase e.handler).switching = true) (after : φ.switching = false)

theorem step_lock (h : s.step fmt e = some s') :
    ∃ φ, s'.phase = Function.update s.phase e.handler φ ∧ s.LockChange s' e φ := by
  cases e with
  | ensure k q =>
    simp only [HostState.step] at h
    split at h
    · next hp =>
      have hkeeps : ∀ φ : HandlerPhase, φ.switching = false → some (s.setPhase k φ) = some s' →
          ∃ φ, s'.phase = Function.update s.phase k φ ∧ s.LockChange s' (.ensure k q) φ := by
        rintro φ hφ ⟨⟩
        exact ⟨φ, rfl, .keeps (by rw [HandlerEvent.handler, hp, hφ]; rfl) rfl⟩
      split at h
      · exact hkeeps _ rfl h
      · split at h
        · exact hkeeps _ rfl h
        · split at h
          · exact hkeeps _ rfl h
          · split at h <;> exact hkeeps _ rfl h
    · cases h
  | lockSwitch k =>
    simp only [HostState.step] at h
    split at h
    · next hfree =>
      cases h
      exact ⟨_, rfl, .takes hfree rfl⟩
    · cases h
  | recheck k =>
    simp only [HostState.step] at h
    split at h
    · next hp =>
      split at h
      · cases h
        exact ⟨_, rfl, .leaves (by rw [HandlerEvent.handler, hp]; rfl) rfl⟩
      · cases h
        exact ⟨_, rfl, .keeps (by rw [HandlerEvent.handler, hp]; rfl) rfl⟩
    · cases h
  | readCount k =>
    simp only [HostState.step] at h
    split at h
    · next hp =>
      split at h
      · cases h
        exact ⟨_, rfl, .leaves (by rw [HandlerEvent.handler, hp]; rfl) rfl⟩
      · cases h
        exact ⟨_, rfl, .keeps (by rw [HandlerEvent.handler, hp]; rfl) rfl⟩
    · cases h
  | launched k r =>
    simp only [HostState.step] at h
    split at h
    · next hp =>
      split at h
      · cases h
        exact ⟨_, rfl, .leaves (by rw [HandlerEvent.handler, hp]; rfl) rfl⟩
      · cases h
        exact ⟨_, rfl, .keeps (by rw [HandlerEvent.handler, hp]; rfl) rfl⟩
    · cases h
  | swap k =>
    simp only [HostState.step] at h
    split at h
    · next hp =>
      cases h
      exact ⟨_, rfl, .keeps (by rw [HandlerEvent.handler, hp]; rfl) rfl⟩
    · cases h
  | reset k =>
    simp only [HostState.step] at h
    split at h
    · next hp =>
      cases h
      exact ⟨_, rfl, .leaves (by rw [HandlerEvent.handler, hp]; rfl) rfl⟩
    · cases h
  | takeGuard k =>
    simp only [HostState.step] at h
    split at h
    · next hp =>
      cases h
      exact ⟨_, rfl, .keeps (by rw [HandlerEvent.handler, hp]; rfl) rfl⟩
    · cases h
  | readProfile k =>
    simp only [HostState.step] at h
    split at h
    · next hp =>
      split at h
      · cases h
        exact ⟨_, rfl, .keeps (by rw [HandlerEvent.handler, hp]; rfl) rfl⟩
      · cases h
        exact ⟨_, rfl, .keeps (by rw [HandlerEvent.handler, hp]; rfl) rfl⟩
    · cases h
  | close k =>
    simp only [HostState.step] at h
    split at h
    · next hp =>
      cases h
      exact ⟨_, rfl, .keeps (by rw [HandlerEvent.handler, hp]; rfl) rfl⟩
    · cases h
  | cancel k =>
    simp only [HostState.step] at h
    split at h
    · split at h
      · next hs =>
        cases h
        exact ⟨_, rfl, .leaves hs rfl⟩
      · next hs =>
        cases h
        exact ⟨_, rfl, .keeps (by rw [HandlerEvent.handler, Bool.eq_false_of_not_eq_true hs]; rfl) rfl⟩
    · cases h

theorem Locked.step (hl : s.Locked) (h : s.step fmt e = some s') : s'.Locked := by
  obtain ⟨φ, hφ, hchange⟩ := step_lock h
  intro k hk
  rw [hφ] at hk
  by_cases hke : k = e.handler
  · rw [hke, Function.update_self] at hk
    cases hchange with
    | keeps hsame hlock =>
      rw [hlock, hke]
      exact hl e.handler (hsame ▸ hk)
    | takes _ hlock =>
      rw [hlock, hke]
    | leaves _ hafter =>
      rw [hafter] at hk
      cases hk
  · rw [Function.update_of_ne hke] at hk
    have hlock := hl k hk
    cases hchange with
    | keeps _ hsame => rw [hsame, hlock]
    | takes hfree =>
      rw [hfree] at hlock
      cases hlock
    | leaves hbefore =>
      rw [hl e.handler hbefore, Option.some_inj] at hlock
      exact absurd hlock.symm hke

/-- A handler after its swap stays there until its switch is over, or is dropped. -/
theorem isResetting_of_step (h : s.step fmt e = some s') {k : H} (hk : (s.phase k).isResetting = true) :
    (s'.phase k).isResetting = true ∨ e = .reset k ∨ e = .cancel k := by
  obtain ⟨name, hp⟩ : ∃ name, s.phase k = .resetting name := by
    cases hp : s.phase k <;> first | exact ⟨_, rfl⟩ | (rw [hp] at hk; cases hk)
  obtain ⟨φ, hφ, -⟩ := step_lock h
  by_cases hke : k = e.handler
  · cases e with
    | reset j => exact Or.inr (Or.inl (by rw [hke]; rfl))
    | cancel j => exact Or.inr (Or.inr (by rw [hke]; rfl))
    | _ =>
      -- no other step is one of a handler that resets
      rw [HandlerEvent.handler] at hke
      simp only [HostState.step, ← hke, hp, reduceCtorEq] at h
  · refine Or.inl ?_
    rw [hφ, Function.update_of_ne hke]
    exact hk

/-- While a switch has swapped its browser in, no other one swaps. -/
theorem Locked.not_swap (hl : s.Locked) {j k : H} (hk : (s.phase k).isResetting = true) :
    s.step fmt (.swap j) = none := by
  cases hs : s.step fmt (.swap j) with
  | none => rfl
  | some s' =>
    have hswap : ∃ name handle, s.phase j = .swapping name handle := by
      simp only [HostState.step] at hs
      split at hs
      · next hp => exact ⟨_, _, hp⟩
      · cases hs
    obtain ⟨name, handle, hp⟩ := hswap
    have hj : s.switchLock = some j := hl j (by rw [hp]; rfl)
    have hjk : s.switchLock = some k := hl k (HandlerPhase.switching_of_isResetting hk)
    rw [hj, Option.some_inj] at hjk
    rw [← hjk, hp] at hk
    cases hk

end HostState

/-! ## The ring -/

namespace RingWorld

variable {H : Type} [DecidableEq H]

/-- Once a switch has completed, nothing in the ring is of an earlier browser. -/
def Isolated (w : RingWorld H) : Prop := ∀ r ∈ w.ring, w.completed ≤ r.browser

/-- The condition: nothing is recorded from a browser that is older than the last clearing. -/
def NotLate (redactUrl : String → String) (w : RingWorld H) : RingEvent H → Prop
  | .event browser method params => (requestRecord redactUrl method params).isSome = true → w.cleared ≤ browser
  | _ => True

instance (redactUrl : String → String) (w : RingWorld H) : (e : RingEvent H) → Decidable (w.NotLate redactUrl e)
  | .event .. => inferInstanceAs (Decidable (_ → _))
  | .host _ | .clear _ | .spawn _ | .abort _ | .ends _ => inferInstanceAs (Decidable True)

/-- How far the clearing is ahead of the switches that have completed. -/
structure Ordered (w : RingWorld H) : Prop where
  completed : w.completed ≤ w.cleared
  cleared : w.cleared ≤ w.browser
  stage : w.stage ≠ .swapped → w.cleared = w.browser

variable {fmt : DebugFormat} {redactUrl : String → String} {cap : ℕ} {w w' : RingWorld H} {e : RingEvent H}

/-- What a handler's step does to the ring and the switch. -/
theorem hostStep_cases {ev : HandlerEvent H} (h : w.hostStep fmt ev = some w') :
    w.host.step fmt ev = some w'.host ∧
      ((∃ k, ev = .swap k ∧ w' = { w with host := w'.host, browser := w.browser + 1, stage := .swapped }) ∨
        (∃ k, ev = .reset k ∧ w.stage = .followed ∧ w' = { w with host := w'.host, completed := w.browser }) ∨
        ((∀ k, ev ≠ .reset k) ∧
          (∀ k, ev = .cancel k → (w.host.phase k).isResetting = true → w.stage = .swapped) ∧
          w' = { w with host := w'.host })) := by
  have hother : (∀ k, ev ≠ .reset k) →
      (∀ k, ev = .cancel k → (w.host.phase k).isResetting = true → w.stage = .swapped) →
      ((w.host.step fmt ev).map fun host => { w with host := host }) = some w' →
      w.host.step fmt ev = some w'.host ∧ (∀ k, ev ≠ .reset k) ∧
        (∀ k, ev = .cancel k → (w.host.phase k).isResetting = true → w.stage = .swapped) ∧
        w' = { w with host := w'.host } := by
    intro hreset hcancel hmap
    obtain ⟨host, hhost, rfl⟩ := Option.map_eq_some_iff.mp hmap
    exact ⟨hhost, hreset, hcancel, rfl⟩
  cases ev with
  | swap k =>
    obtain ⟨host, hhost, rfl⟩ := Option.map_eq_some_iff.mp h
    exact ⟨hhost, Or.inl ⟨k, rfl, rfl⟩⟩
  | reset k =>
    simp only [hostStep] at h
    split at h
    · next hstage =>
      rw [atStage, Bool.and_eq_true, decide_eq_true_eq] at hstage
      obtain ⟨host, hhost, rfl⟩ := Option.map_eq_some_iff.mp h
      exact ⟨hhost, Or.inr (Or.inl ⟨k, rfl, hstage.2, rfl⟩)⟩
    · cases h
  | cancel k =>
    simp only [hostStep] at h
    split at h
    · cases h
    · next hmay =>
      have hcancel : ∀ j, HandlerEvent.cancel k = .cancel j → (w.host.phase j).isResetting = true →
          w.stage = .swapped := by
        rintro j ⟨⟩ hj
        by_contra hne
        exact hmay (by rw [hj, decide_eq_true hne]; rfl)
      obtain ⟨hhost, hrest⟩ := hother (fun j hj => by cases hj) hcancel h
      exact ⟨hhost, Or.inr (Or.inr hrest)⟩
  | _ =>
    obtain ⟨hhost, hrest⟩ := hother (fun j hj => by cases hj) (fun j hj => by cases hj) h
    exact ⟨hhost, Or.inr (Or.inr hrest)⟩

omit [DecidableEq H] in
theorem atStage_stage {k : H} {stage : ResetStage} (h : w.atStage k stage = true) : w.stage = stage := by
  rw [atStage, Bool.and_eq_true, decide_eq_true_eq] at h
  exact h.2

theorem Ordered.step (ho : w.Ordered) (h : w.step fmt redactUrl cap e = some w') : w'.Ordered := by
  obtain ⟨hcompleted, hcleared, hstage⟩ := ho
  cases e with
  | host ev =>
    obtain ⟨-, ⟨k, -, hw⟩ | ⟨k, -, hfollowed, hw⟩ | ⟨-, -, hw⟩⟩ := hostStep_cases h
    · rw [hw]
      exact ⟨hcompleted, Nat.le_succ_of_le hcleared, fun hne => absurd rfl hne⟩
    · have heq : w.cleared = w.browser := hstage (by rw [hfollowed]; decide)
      rw [hw]
      exact ⟨heq.ge, hcleared, hstage⟩
    · rw [hw]
      exact ⟨hcompleted, hcleared, hstage⟩
  | clear k =>
    simp only [step] at h
    split at h
    · cases h
      exact ⟨Nat.le_trans hcompleted hcleared, Nat.le_refl _, fun _ => rfl⟩
    · cases h
  | spawn k =>
    simp only [step] at h
    split at h
    · next hat =>
      cases h
      exact ⟨hcompleted, hcleared, fun _ => hstage (by rw [atStage_stage hat]; decide)⟩
    · cases h
  | abort k =>
    simp only [step] at h
    split at h
    · next hat =>
      cases h
      exact ⟨hcompleted, hcleared, fun _ => hstage (by rw [atStage_stage hat]; decide)⟩
    · cases h
  | event b method params =>
    simp only [step] at h
    split at h
    · split at h <;> (cases h; exact ⟨hcompleted, hcleared, hstage⟩)
    · cases h
  | ends b =>
    simp only [step] at h
    split at h
    · cases h
      exact ⟨hcompleted, hcleared, hstage⟩
    · cases h

/-- A step that meets the condition records nothing from before the last clearing. -/
theorem ring_step (hring : ∀ r ∈ w.ring, w.cleared ≤ r.browser) (hok : w.NotLate redactUrl e)
    (h : w.step fmt redactUrl cap e = some w') : ∀ r ∈ w'.ring, w'.cleared ≤ r.browser := by
  cases e with
  | host ev =>
    obtain ⟨-, ⟨k, -, hw⟩ | ⟨k, -, -, hw⟩ | ⟨-, -, hw⟩⟩ := hostStep_cases h
    all_goals
      rw [hw]
      exact hring
  | clear k =>
    simp only [step] at h
    split at h
    · cases h
      exact fun r hr => absurd hr List.not_mem_nil
    · cases h
  | spawn k =>
    simp only [step] at h
    split at h
    · cases h
      exact hring
    · cases h
  | abort k =>
    simp only [step] at h
    split at h
    · cases h
      exact hring
    · cases h
  | event b method params =>
    simp only [step] at h
    split at h
    · split at h
      · next value hvalue =>
        cases h
        intro r hr
        rcases mem_push hr with hold | rfl
        · exact hring r hold
        · exact hok (by rw [hvalue]; rfl)
      · cases h
        exact hring
    · cases h
  | ends b =>
    simp only [step] at h
    split at h
    · cases h
      exact hring
    · cases h

/-- **The ring is one browser's** in every run that meets the condition. -/
theorem ring_isolated {choice : ProfileChoice} {wsUrl : String} {es : List (RingEvent H)}
    (hok : Run.RunMeets (step fmt redactUrl cap) (NotLate redactUrl) (launch H choice wsUrl) es)
    (hrun : Run.run (step fmt redactUrl cap) (launch H choice wsUrl) es = some w) : w.Isolated := by
  have hlaunch : (launch H choice wsUrl).Ordered ∧
      ∀ r ∈ (launch H choice wsUrl).ring, (launch H choice wsUrl).cleared ≤ r.browser :=
    ⟨⟨Nat.le_refl _, Nat.le_refl _, fun hne => absurd rfl hne⟩, fun r hr => absurd hr List.not_mem_nil⟩
  have hboth := Run.runMeets_invariant (step fmt redactUrl cap)
    (I := fun w => w.Ordered ∧ ∀ r ∈ w.ring, w.cleared ≤ r.browser) hlaunch
    (fun w e w' hi ho hs => ⟨hi.1.step hs, ring_step hi.2 ho hs⟩) hok hrun
  exact fun r hr => Nat.le_trans hboth.1.completed (hboth.2 r hr)

/-! ## Which subscribers are late -/

/-- The subscribers that run are the one in the guard, and the one that is about to take its place. -/
structure Followed (w : RingWorld H) : Prop where
  locked : w.host.Locked
  busy : w.stage = .cleared ∨ w.stage = .spawned → ∃ k, (w.host.phase k).isResetting = true
  running : ∀ b, w.task b = .running → b = w.following ∨ (w.stage = .spawned ∧ b = w.browser)
  kept : w.stage = .swapped ∨ w.stage = .followed → w.cleared ≤ w.following

omit [DecidableEq H] in
theorem Followed.of_stage (hf : w.Followed) (hne : w.stage ≠ .spawned) {b : ℕ} (hb : w.task b = .running) :
    b = w.following :=
  (hf.running b hb).resolve_right fun h => hne h.1

theorem Followed.hostStep {ev : HandlerEvent H} (hf : w.Followed) (h : w.hostStep fmt ev = some w') :
    w'.Followed := by
  obtain ⟨hhost, hcases⟩ := hostStep_cases h
  have hlocked : w'.host.Locked := hf.locked.step hhost
  rcases hcases with ⟨k, rfl, hw⟩ | ⟨k, -, hfollowed, hw⟩ | ⟨hreset, hcancel, hw⟩
  · -- the switch before this one is over, or was dropped before it cleared the ring
    have hidle : ¬ (w.stage = .cleared ∨ w.stage = .spawned) := by
      intro hstage
      obtain ⟨j, hj⟩ := hf.busy hstage
      rw [hf.locked.not_swap hj] at hhost
      cases hhost
    have hstage : w.stage = .swapped ∨ w.stage = .followed := by
      cases hst : w.stage with
      | swapped => exact Or.inl rfl
      | followed => exact Or.inr rfl
      | cleared => exact absurd (Or.inl hst) hidle
      | spawned => exact absurd (Or.inr hst) hidle
    have hrunning : ∀ b, w.task b = .running → b = w.following :=
      fun b hb => hf.of_stage (fun hsp => hidle (Or.inr hsp)) hb
    rw [hw]
    refine ⟨hlocked, ?_, fun b hb => Or.inl (hrunning b hb), fun _ => hf.kept hstage⟩
    rintro (hst | hst) <;> cases hst
  · rw [hw]
    refine ⟨hlocked, fun hst => ?_, hf.running, hf.kept⟩
    rw [hfollowed] at hst
    rcases hst with hst | hst <;> cases hst
  · rw [hw]
    refine ⟨hlocked, fun hst => ?_, hf.running, hf.kept⟩
    obtain ⟨k, hk⟩ := hf.busy hst
    rcases HostState.isResetting_of_step hhost hk with hstays | hev | hev
    · exact ⟨k, hstays⟩
    · exact absurd hev (hreset k)
    · have hswapped := hcancel k hev hk
      rw [hswapped] at hst
      rcases hst with hst | hst <;> cases hst

theorem Followed.step (ho : w.Ordered) (hf : w.Followed) (h : w.step fmt redactUrl cap e = some w') :
    w'.Followed := by
  have hat : ∀ {k : H} {stage : ResetStage},
      w.atStage k stage = true → (w.host.phase k).isResetting = true := by
    intro k stage hk
    rw [atStage, Bool.and_eq_true] at hk
    exact hk.1
  cases e with
  | host ev => exact hf.hostStep h
  | clear k =>
    simp only [RingWorld.step] at h
    split at h
    · next hk =>
      cases h
      have hne : w.stage ≠ .spawned := by
        rw [atStage_stage hk]
        decide
      refine ⟨hf.locked, fun _ => ⟨k, hat hk⟩, fun b hb => Or.inl (hf.of_stage hne hb), ?_⟩
      rintro (hst | hst) <;> cases hst
    · cases h
  | spawn k =>
    simp only [RingWorld.step] at h
    split at h
    · next hk =>
      cases h
      have hne : w.stage ≠ .spawned := by
        rw [atStage_stage hk]
        decide
      refine ⟨hf.locked, fun _ => ⟨k, hat hk⟩, fun b hb => ?_, ?_⟩
      · by_cases hnew : b = w.browser
        · exact Or.inr ⟨rfl, hnew⟩
        · have hb' : Function.update w.task w.browser .running b = .running := hb
          rw [Function.update_of_ne hnew] at hb'
          exact Or.inl (hf.of_stage hne hb')
      · rintro (hst | hst) <;> cases hst
    · cases h
  | abort k =>
    simp only [RingWorld.step] at h
    split at h
    · cases h
      refine ⟨hf.locked, ?_, fun b hb => ?_, fun _ => ho.cleared⟩
      · rintro (hst | hst) <;> cases hst
      · have hb' : Function.update w.task w.following (w.task w.following).abort b = .running := hb
        by_cases hold : b = w.following
        · rw [hold, Function.update_self] at hb'
          exfalso
          cases htask : w.task w.following <;> (rw [htask] at hb'; cases hb')
        · rw [Function.update_of_ne hold] at hb'
          rcases hf.running b hb' with hfollowing | ⟨-, hnew⟩
          · exact absurd hfollowing hold
          · exact Or.inl hnew
    · cases h
  | event b method params =>
    simp only [RingWorld.step] at h
    split at h
    · split at h
      · cases h
        exact ⟨hf.locked, hf.busy, hf.running, hf.kept⟩
      · cases h
        exact hf
    · cases h
  | ends b =>
    simp only [RingWorld.step] at h
    split at h
    · cases h
      refine ⟨hf.locked, hf.busy, fun d hd => ?_, hf.kept⟩
      have hd' : Function.update w.task b .ended d = .running := hd
      by_cases hdb : d = b
      · rw [hdb, Function.update_self] at hd'
        cases hd'
      · rw [Function.update_of_ne hdb] at hd'
        exact hf.running d hd'
    · cases h

/-- **Which subscribers are late.**  One that runs, and has not been aborted, is the one that a switch
is about to end, with the ring already cleared. -/
theorem late_of_running {choice : ProfileChoice} {wsUrl : String} {es : List (RingEvent H)}
    (hrun : Run.run (RingWorld.step fmt redactUrl cap) (launch H choice wsUrl) es = some w) {b : ℕ}
    (hb : w.task b = .running) (hlate : b < w.cleared) :
    b = w.following ∧ (w.stage = .cleared ∨ w.stage = .spawned) := by
  have hlaunch : (launch H choice wsUrl).Ordered ∧ (launch H choice wsUrl).Followed := by
    refine ⟨⟨Nat.le_refl _, Nat.le_refl _, fun hne => absurd rfl hne⟩, ?_, ?_, fun d hd => Or.inl ?_,
      fun _ => Nat.le_refl _⟩
    · exact fun k hk => by cases hk
    · rintro (hst | hst) <;> cases hst
    · by_contra hne
      have hd' : Function.update (fun _ => TaskState.unspawned) 0 .running d = .running := hd
      have hne' : d ≠ 0 := hne
      rw [Function.update_of_ne hne'] at hd'
      cases hd'
  obtain ⟨ho, hf⟩ := Run.run_invariant (RingWorld.step fmt redactUrl cap)
    (I := fun w => w.Ordered ∧ w.Followed) hlaunch
    (fun w e w' hi hs => ⟨hi.1.step hs, hi.2.step hi.1 hs⟩) hrun
  have hfollowing : b = w.following := by
    rcases hf.running b hb with hfollowing | ⟨-, hnew⟩
    · exact hfollowing
    · have := ho.cleared
      omega
  refine ⟨hfollowing, ?_⟩
  cases hst : w.stage with
  | cleared => exact Or.inl rfl
  | spawned => exact Or.inr rfl
  | swapped =>
    have := hf.kept (Or.inl hst)
    omega
  | followed =>
    have := hf.kept (Or.inr hst)
    omega

end RingWorld

/-! ## A switch with and without traffic -/

/-- What a page of the browser asks for. -/
def request (browser : ℕ) : RingEvent Unit :=
  .event browser "Network.requestWillBeSent"
    (.obj [("requestId", .str "1"),
      ("request", .obj [("url", .str "https://site.test/"), ("method", .str "GET")])])

/-- A handler that has its profile switched to, and something that happens when the ring has been cleared. -/
def switchProfile (meanwhile : List (RingEvent Unit)) : List (RingEvent Unit) :=
  [.host (.ensure () (some "home")), .host (.lockSwitch ()), .host (.recheck ()), .host (.readCount ()),
    .host (.launched () (.ok "ws://127.0.0.1:2/devtools/browser/2")), request 0, .host (.swap ()), .clear ()] ++
  meanwhile ++ [.spawn (), .abort (), .host (.reset ()), request 1]

/-- A host on the profile `work`. -/
def workHost : RingWorld Unit := .launch Unit (.persistent "work") "ws://127.0.0.1:1/devtools/browser/1"

theorem ring_isolated_switchProfile : ∃ w,
    Run.run (RingWorld.step ⟨fun _ => "", id⟩ id 8) workHost (switchProfile []) = some w ∧ w.completed = 1 ∧
      w.ring.map (·.browser) = [1] ∧ w.Isolated := by
  refine ⟨_, rfl, rfl, rfl, ?_⟩
  have hok : Run.RunMeets (RingWorld.step ⟨fun _ => "", id⟩ id 8) (RingWorld.NotLate id) workHost
      (switchProfile []) := by decide
  exact RingWorld.ring_isolated hok rfl

/-- **The old identity's traffic.**  A request of the old browser is recorded when the ring has been
cleared for the new one. -/
theorem old_subscriber_pushes : ¬ ∀ (w : RingWorld Unit) (es : List (RingEvent Unit)),
    Run.run (RingWorld.step ⟨fun _ => "", id⟩ id 8) workHost es = some w → w.Isolated := by
  intro h
  have hring := h _ (switchProfile [request 0]) rfl
  exact absurd (hring _ (List.mem_cons_self ..)) (by decide)

end Afhttp.Host

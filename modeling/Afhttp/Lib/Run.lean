import Mathlib.Data.List.Induction

/-!
# Runs of a guarded step function

A component is given by `step : σ → ε → Option σ`: `none` means that the event
cannot happen in the state.  A run is a list of events, taken one by one.

    run step s (xs ++ ys) = (run step s xs).bind (run step · ys)          (run_append)
    what each step keeps, each run keeps                                  (run_invariant)
    ... with the events taken so far in the invariant                     (run_history)
    ... in the runs whose steps all meet a condition                      (runMeets_history)
    the condition that makes a property hold throughout                   (always_iff_runMeets)
    ... with facts that last only as long as it does                      (always_iff_runMeets_while)
-/

namespace Run

variable {σ ε : Type*}

/-- The state after the events, if each of them could happen. -/
def run (step : σ → ε → Option σ) : σ → List ε → Option σ
  | s, [] => some s
  | s, e :: es => (step s e).bind fun s' => run step s' es

variable (step : σ → ε → Option σ)

@[simp] theorem run_nil (s : σ) : run step s [] = some s := rfl

@[simp] theorem run_cons (s : σ) (e : ε) (es : List ε) :
    run step s (e :: es) = (step s e).bind fun s' => run step s' es := rfl

theorem run_append (s : σ) (xs ys : List ε) :
    run step s (xs ++ ys) = (run step s xs).bind fun s' => run step s' ys := by
  induction xs generalizing s with
  | nil => rfl
  | cons e xs ih =>
    rw [List.cons_append, run_cons, run_cons, Option.bind_assoc]
    congr 1
    funext s'
    exact ih s'

theorem run_snoc {s t : σ} {es : List ε} {e : ε} (h : run step s (es ++ [e]) = some t) :
    ∃ u, run step s es = some u ∧ step u e = some t := by
  rw [run_append] at h
  obtain ⟨u, hu, ht⟩ := Option.bind_eq_some_iff.mp h
  refine ⟨u, hu, ?_⟩
  rw [run_cons] at ht
  obtain ⟨t', ht', e'⟩ := Option.bind_eq_some_iff.mp ht
  rw [run_nil] at e'
  rw [ht', e']

/-- Every prefix of a run is a run. -/
theorem run_prefix {s t : σ} {xs ys : List ε} (h : run step s (xs ++ ys) = some t) :
    ∃ u, run step s xs = some u ∧ run step u ys = some t := by
  rw [run_append] at h
  exact Option.bind_eq_some_iff.mp h

/-- **History rule.**  A relation between the events taken and the state reached
holds of every run if it holds of the empty one and each step keeps it. -/
theorem run_history {s₀ : σ} {P : List ε → σ → Prop} (h₀ : P [] s₀)
    (hs : ∀ es s e s', run step s₀ es = some s → P es s → step s e = some s' → P (es ++ [e]) s')
    {es : List ε} {s : σ} (h : run step s₀ es = some s) : P es s := by
  induction es using List.reverseRecOn generalizing s with
  | nil =>
    cases h
    exact h₀
  | append_singleton es e ih =>
    obtain ⟨u, hu, ht⟩ := run_snoc step h
    exact hs es u e s hu (ih hu) ht

/-- **Invariant rule.** -/
theorem run_invariant {s₀ : σ} {I : σ → Prop} (h₀ : I s₀)
    (hs : ∀ s e s', I s → step s e = some s' → I s')
    {es : List ε} {s : σ} (h : run step s₀ es = some s) : I s :=
  run_history step (P := fun _ s => I s) h₀ (fun _ s e s' _ hi he => hs s e s' hi he) h

/-! ## Runs whose steps meet a condition -/

/-- Every step of the run is taken in a state where `ok` allows it. -/
def RunMeets (ok : σ → ε → Prop) (s₀ : σ) (es : List ε) : Prop :=
  ∀ xs e ys s, es = xs ++ e :: ys → run step s₀ xs = some s → ok s e

theorem RunMeets.of_append {ok : σ → ε → Prop} {s₀ : σ} {es fs : List ε}
    (h : RunMeets step ok s₀ (es ++ fs)) : RunMeets step ok s₀ es := by
  intro xs e ys s hes hs
  exact h xs e (ys ++ fs) s (by rw [hes, List.append_assoc, List.cons_append]) hs

theorem RunMeets.mono {ok ok' : σ → ε → Prop} {s₀ : σ} {es : List ε} (h : RunMeets step ok s₀ es)
    (hok : ∀ s e, ok s e → ok' s e) : RunMeets step ok' s₀ es :=
  fun xs e ys s hes hs => hok s e (h xs e ys s hes hs)

theorem runMeets_snoc {ok : σ → ε → Prop} {s₀ : σ} {es : List ε} {e : ε}
    (h : RunMeets step ok s₀ (es ++ [e])) :
    RunMeets step ok s₀ es ∧ ∀ s, run step s₀ es = some s → ok s e := by
  exact ⟨h.of_append, fun s hr => h es e [] s rfl hr⟩

/-- **History rule under a condition.** -/
theorem runMeets_history {ok : σ → ε → Prop} {s₀ : σ} {P : List ε → σ → Prop} (h₀ : P [] s₀)
    (hs : ∀ es s e s', run step s₀ es = some s → P es s → ok s e → step s e = some s' →
      P (es ++ [e]) s')
    {es : List ε} {s : σ} (hok : RunMeets step ok s₀ es) (h : run step s₀ es = some s) :
    P es s := by
  induction es using List.reverseRecOn generalizing s with
  | nil =>
    cases h
    exact h₀
  | append_singleton es e ih =>
    obtain ⟨u, hu, ht⟩ := run_snoc step h
    obtain ⟨hes, he⟩ := runMeets_snoc step hok
    exact hs es u e s hu (ih hes hu) (he u hu) ht

/-- **Invariant rule under a condition.** -/
theorem runMeets_invariant {ok : σ → ε → Prop} {s₀ : σ} {I : σ → Prop} (h₀ : I s₀)
    (hs : ∀ s e s', I s → ok s e → step s e = some s' → I s')
    {es : List ε} {s : σ} (hok : RunMeets step ok s₀ es) (h : run step s₀ es = some s) : I s :=
  runMeets_history step (P := fun _ s => I s) h₀ (fun _ s e s' _ hi ho he => hs s e s' hi ho he)
    hok h

/-- A property of every state the run passes through. -/
def Always (P : σ → Prop) (s₀ : σ) (es : List ε) : Prop :=
  ∀ xs ys s, es = xs ++ ys → run step s₀ xs = some s → P s

theorem Always.of_append {P : σ → Prop} {s₀ : σ} {es fs : List ε} (h : Always step P s₀ (es ++ fs)) :
    Always step P s₀ es := by
  intro xs ys s hes hs
  exact h xs (ys ++ fs) s (by rw [hes, List.append_assoc]) hs

theorem Always.mono {P Q : σ → Prop} {s₀ : σ} {es : List ε} (h : Always step P s₀ es)
    (hPQ : ∀ s, P s → Q s) : Always step Q s₀ es :=
  fun xs ys s hes hs => hPQ s (h xs ys s hes hs)

/-- The states that a run passes through, and the one it reaches with one more event. -/
theorem Always.snoc {P : σ → Prop} {s₀ : σ} {es : List ε} {e : ε} (h : Always step P s₀ es)
    (he : ∀ s, run step s₀ (es ++ [e]) = some s → P s) : Always step P s₀ (es ++ [e]) := by
  intro xs ys s hes hs
  rcases List.eq_nil_or_concat ys with rfl | ⟨zs, z, rfl⟩
  · rw [List.append_nil] at hes
    exact he s (hes ▸ hs)
  · rw [List.concat_eq_append, ← List.append_assoc] at hes
    obtain ⟨hes, -⟩ := List.append_inj' hes rfl
    exact h xs zs s hes hs

theorem always_nil {P : σ → Prop} {s₀ : σ} (h : P s₀) : Always step P s₀ [] := by
  intro xs ys s hes hs
  obtain ⟨rfl, rfl⟩ := List.append_eq_nil_iff.mp hes.symm
  cases hs
  exact h

/-- **Exact condition.**  If each step keeps `P` exactly when `ok` allows it, then `P` holds
throughout a run exactly if the run meets `ok`. -/
theorem always_iff_runMeets {s₀ : σ} {I P : σ → Prop} {ok : σ → ε → Prop} (hI₀ : I s₀) (hP₀ : P s₀)
    (hI : ∀ s e s', I s → step s e = some s' → I s')
    (hP : ∀ s e s', I s → P s → step s e = some s' → (P s' ↔ ok s e))
    {es : List ε} {t : σ} (h : run step s₀ es = some t) :
    Always step P s₀ es ↔ RunMeets step ok s₀ es := by
  constructor
  · rintro hall xs e ys s rfl hs
    have hIs : I s := run_invariant step hI₀ hI hs
    have hPs : P s := hall xs (e :: ys) s rfl hs
    rw [List.append_cons] at h
    obtain ⟨s', hs', -⟩ := run_prefix step h
    obtain ⟨u, hu, he⟩ := run_snoc step hs'
    rw [hs] at hu
    cases hu
    exact (hP s e s' hIs hPs he).mp (hall (xs ++ [e]) ys s' (List.append_cons ..) hs')
  · rintro hok xs ys s rfl hs
    have hboth : I s ∧ P s := by
      refine runMeets_invariant step (I := fun s => I s ∧ P s) ⟨hI₀, hP₀⟩ ?_ hok.of_append hs
      intro s e s' hi he hstep
      exact ⟨hI s e s' hi.1 hstep, (hP s e s' hi.1 hi.2 hstep).mpr he⟩
    exact hboth.2

/-- A fact that each step keeps from a state where `P` holds is there as long as `P` is. -/
theorem always_and_of_while {s₀ : σ} {J P : σ → Prop} (hJ₀ : J s₀)
    (hJ : ∀ s e s', P s → J s → step s e = some s' → J s') {es : List ε}
    (hall : Always step P s₀ es) : Always step (fun s => P s ∧ J s) s₀ es := by
  rintro xs ys s rfl hs
  have hxs : Always step P s₀ xs := hall.of_append
  refine ⟨hall xs ys s rfl hs, ?_⟩
  induction xs using List.reverseRecOn generalizing s ys with
  | nil =>
    cases hs
    exact hJ₀
  | append_singleton xs e ih =>
    obtain ⟨u, hu, he⟩ := run_snoc step hs
    have hPu : P u := hxs xs [e] u rfl hu
    have hJu : J u := ih (e :: ys) u (by rwa [List.append_assoc] at hall) hu hxs.of_append
    exact hJ u e s hPu hJu he

/-- **Exact condition**, with a fact that the steps keep as long as `P` holds. -/
theorem always_iff_runMeets_while {s₀ : σ} {J P : σ → Prop} {ok : σ → ε → Prop} (hJ₀ : J s₀) (hP₀ : P s₀)
    (hJ : ∀ s e s', P s → J s → step s e = some s' → J s')
    (hP : ∀ s e s', J s → P s → step s e = some s' → (P s' ↔ ok s e))
    {es : List ε} {t : σ} (h : run step s₀ es = some t) :
    Always step P s₀ es ↔ RunMeets step ok s₀ es := by
  have hboth : Always step (fun s => P s ∧ J s) s₀ es ↔ RunMeets step ok s₀ es := by
    refine always_iff_runMeets step (I := fun _ => True) trivial ⟨hP₀, hJ₀⟩ (fun _ _ _ _ _ => trivial) ?_ h
    intro s e s' _ hs hstep
    constructor
    · intro hs'
      exact (hP s e s' hs.2 hs.1 hstep).mp hs'.1
    · intro hok
      exact ⟨(hP s e s' hs.2 hs.1 hstep).mpr hok, hJ s e s' hs.1 hs.2 hstep⟩
  rw [← hboth]
  constructor
  · exact always_and_of_while step hJ₀ hJ
  · intro hall
    exact hall.mono step fun s hs => hs.1

theorem runMeets_nil (ok : σ → ε → Prop) (s : σ) : RunMeets step ok s [] := by
  intro xs e ys t hes
  simp at hes

theorem runMeets_cons (ok : σ → ε → Prop) (s : σ) (e : ε) (es : List ε) :
    RunMeets step ok s (e :: es) ↔ ok s e ∧ ∀ t, step s e = some t → RunMeets step ok t es := by
  constructor
  · intro h
    refine ⟨h [] e es s rfl rfl, fun t ht xs x ys u hes hu => ?_⟩
    refine h (e :: xs) x ys u (by rw [hes, List.cons_append]) ?_
    rw [run_cons, ht]
    exact hu
  · rintro ⟨he, hes⟩ xs x ys u hx hu
    cases xs with
    | nil =>
      cases hx
      cases hu
      exact he
    | cons x' xs =>
      cases hx
      rw [run_cons] at hu
      obtain ⟨t, ht, hu⟩ := Option.bind_eq_some_iff.mp hu
      exact hes t ht xs x ys u rfl hu

/-- A condition that can be computed can be computed for a run. -/
instance decidableRunMeets (ok : σ → ε → Prop) [∀ s e, Decidable (ok s e)] :
    ∀ s es, Decidable (RunMeets step ok s es)
  | s, [] => isTrue (runMeets_nil step ok s)
  | s, e :: es =>
    match h : step s e with
    | none => decidable_of_iff (ok s e) (by rw [runMeets_cons]; simp [h])
    | some t =>
      have : Decidable (RunMeets step ok t es) := decidableRunMeets ok t es
      decidable_of_iff (ok s e ∧ RunMeets step ok t es) (by rw [runMeets_cons]; simp [h])

end Run

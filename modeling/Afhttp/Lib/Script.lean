import Mathlib.Data.List.Basic

/-!
# Scripts that may fail or be cut short

A script starts in a state, goes through others and ends, with an error or without.  It may be cut
short in any state on its way, so what a script does to what is outside of it is said of all of
them (`Meets.during`), and only of the last if it has not failed (`Meets.after`).

    one script after another               (Meets.seq)
    the same for each of a list            (meets_forEach)
-/

/-- From the state it starts in: the states it goes through, and its result. -/
def Script (σ ε : Type*) := σ → List σ × Except ε Unit

namespace Script

variable {σ ε α : Type*}

/-- Through these states, to an end without an error. -/
def goes (states : σ → List σ) : Script σ ε := fun s => (states s, .ok ())

def breaks (states : σ → List σ) (e : ε) : Script σ ε := fun s => (states s, .error e)

def done : Script σ ε := goes fun _ => []

def fail (e : ε) : Script σ ε := breaks (fun _ => []) e

/-- The state in which the script ends. -/
def last (a : Script σ ε) (s : σ) : σ := (a s).1.getLastD s

/-- `b` is run if `a` does not fail. -/
def seq (a b : Script σ ε) : Script σ ε := fun s =>
  match (a s).2 with
  | .ok () => ((a s).1 ++ (b (a.last s)).1, (b (a.last s)).2)
  | .error e => ((a s).1, .error e)

def forEach (f : α → Script σ ε) : List α → Script σ ε
  | [] => done
  | x :: xs => (f x).seq (forEach f xs)

/-- From `s`, in all states on its way `I` holds, in the last `Q`, and an error is one of `E`. -/
structure Meets (a : Script σ ε) (s : σ) (I Q : σ → Prop) (E : ε → Prop) : Prop where
  during : ∀ s' ∈ (a s).1, I s'
  after : (a s).2 = .ok () → Q (a.last s)
  error : ∀ e, (a s).2 = .error e → E e

variable {a b : Script σ ε} {s : σ} {I I' Q Q' R : σ → Prop} {E : ε → Prop}

theorem Meets.mono (h : a.Meets s I Q E) (hI : ∀ s', I s' → I' s') (hQ : ∀ s', Q s' → Q' s') :
    a.Meets s I' Q' E :=
  ⟨fun s' hs' => hI s' (h.during s' hs'), fun ha => hQ _ (h.after ha), h.error⟩

theorem Meets.congr (h : a.Meets s I Q E) (hb : b s = a s) : b.Meets s I Q E := by
  constructor
  · rw [hb]
    exact h.during
  · unfold last
    rw [hb]
    exact h.after
  · rw [hb]
    exact h.error

theorem meets_goes {states : σ → List σ} (hI : ∀ s' ∈ states s, I s') (hQ : Q ((states s).getLastD s)) :
    (goes states : Script σ ε).Meets s I Q E where
  during := hI
  after _ := hQ
  error e he := by cases he

theorem meets_breaks {states : σ → List σ} {e : ε} (hI : ∀ s' ∈ states s, I s') (he : E e) :
    (breaks states e).Meets s I Q E where
  during := hI
  after he' := by cases he'
  error e' he' := by
    cases he'
    exact he

theorem meets_done (h : Q s) : (done : Script σ ε).Meets s I Q E :=
  meets_goes (fun _ hs' => absurd hs' List.not_mem_nil) h

theorem meets_fail {e : ε} (h : E e) : (fail e : Script σ ε).Meets s I Q E :=
  meets_breaks (fun _ hs' => absurd hs' List.not_mem_nil) h

theorem getLastD_append (l l' : List σ) (s : σ) : (l ++ l').getLastD s = l'.getLastD (l.getLastD s) := by
  simp only [List.getLastD_eq_getLast?, List.getLast?_append, Option.getD_or]

theorem Meets.seq (ha : a.Meets s I Q E) (hb : ∀ s', Q s' → b.Meets s' I R E) : (a.seq b).Meets s I R E := by
  cases hr : (a s).2 with
  | error e =>
    have hab : a.seq b s = ((a s).1, .error e) := by
      unfold Script.seq
      rw [hr]
    constructor
    · rw [hab]
      exact ha.during
    · rw [hab]
      intro he
      cases he
    · rw [hab]
      intro e' he
      cases he
      exact ha.error e hr
  | ok _ =>
    have hab : a.seq b s = ((a s).1 ++ (b (a.last s)).1, (b (a.last s)).2) := by
      unfold Script.seq
      rw [hr]
    have hlast : (a.seq b).last s = b.last (a.last s) := by
      show ((a.seq b) s).1.getLastD s = _
      rw [hab]
      exact getLastD_append ..
    have hb' := hb _ (ha.after hr)
    constructor
    · rw [hab]
      exact fun s' hs' => (List.mem_append.mp hs').elim (ha.during s') (hb'.during s')
    · rw [hlast, hab]
      exact hb'.after
    · rw [hab]
      exact hb'.error

theorem meets_forEach {f : α → Script σ ε} {xs : List α} (h : ∀ x ∈ xs, ∀ s, Q s → (f x).Meets s I Q E)
    (hs : Q s) : (forEach f xs).Meets s I Q E := by
  induction xs generalizing s with
  | nil => exact meets_done hs
  | cons x xs ih =>
    exact (h x List.mem_cons_self s hs).seq fun s' hs' => ih (fun y hy => h y (List.mem_cons_of_mem x hy)) hs'

end Script

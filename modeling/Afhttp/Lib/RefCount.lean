import Mathlib.Data.Finset.Card
import Mathlib.Data.Finset.Lattice.Basic
import Mathlib.Logic.Function.Basic

/-!
# Counts of holders

A map from things to counts, in which a thing held by nobody has no entry.  It stands for
`n`, the number of holders of each thing (`Represents m n`), and is changed one hold at a
time.  `release` tells whether the last hold went.

    take a      one holder of `a` more                             (Represents.take)
    release a   one less; `true` iff it was the only one           (Represents.release)
    releaseAll  one less of each; gives those that were held once  (Represents.releaseAll)
-/

namespace RefCount

variable {α : Type*} [DecidableEq α]

def take (m : α → Option ℕ) (a : α) : α → Option ℕ := Function.update m a (some ((m a).getD 0 + 1))

def release (m : α → Option ℕ) (a : α) : (α → Option ℕ) × Bool :=
  match m a with
  | some n => if 1 < n then (Function.update m a (some (n - 1)), false) else (Function.update m a none, true)
  | none => (m, true)

/-- Release one after the other; the second component collects those whose last hold went. -/
def releaseAll (m : α → Option ℕ) : List α → (α → Option ℕ) × List α
  | [] => (m, [])
  | a :: l =>
    let r := release m a
    let rest := releaseAll r.1 l
    (rest.1, if r.2 then a :: rest.2 else rest.2)

/-- A thing has an entry iff it is held, and the entry is the number of its holders. -/
def Represents (m : α → Option ℕ) (n : α → ℕ) : Prop := ∀ a, m a = if n a = 0 then none else some (n a)

variable {m : α → Option ℕ} {n : α → ℕ}

omit [DecidableEq α] in
theorem Represents.empty : Represents (fun _ : α => none) fun _ => 0 := fun _ => rfl

omit [DecidableEq α] in
theorem Represents.getD (h : Represents m n) (a : α) : (m a).getD 0 = n a := by
  rw [h a]
  split
  · next h0 => rw [h0]; rfl
  · rfl

omit [DecidableEq α] in
theorem Represents.congr {n' : α → ℕ} (h : Represents m n) (hn : ∀ a, n' a = n a) : Represents m n' := by
  intro a
  rw [hn a]
  exact h a

theorem Represents.take (h : Represents m n) (a : α) :
    Represents (take m a) (Function.update n a (n a + 1)) := by
  intro b
  unfold RefCount.take
  by_cases hb : b = a
  · subst hb
    rw [Function.update_self, Function.update_self, h.getD, if_neg (by omega)]
  · rw [Function.update_of_ne hb, Function.update_of_ne hb, h b]

theorem Represents.release (h : Represents m n) {a : α} (ha : n a ≠ 0) :
    Represents (release m a).1 (Function.update n a (n a - 1)) ∧ ((release m a).2 = true ↔ n a = 1) := by
  have hm : m a = some (n a) := by rw [h a, if_neg ha]
  have hrel : RefCount.release m a =
      if 1 < n a then (Function.update m a (some (n a - 1)), false) else (Function.update m a none, true) := by
    unfold RefCount.release
    rw [hm]
  rw [hrel]
  constructor
  · intro b
    by_cases hb : b = a
    · subst hb
      rw [Function.update_self]
      split
      · rw [if_neg (by omega)]
        exact Function.update_self ..
      · rw [if_pos (by omega)]
        exact Function.update_self ..
    · rw [Function.update_of_ne hb, ← h b]
      split <;> exact Function.update_of_ne hb ..
  · split
    · next h1 => exact ⟨fun hf => (by cases hf), fun h1' => by omega⟩
    · exact ⟨fun _ => by omega, fun _ => rfl⟩

/-- Everything in `l` loses one holder. -/
theorem Represents.releaseAll {l : List α} (h : Represents m n) (hl : l.Nodup) (hn : ∀ a ∈ l, n a ≠ 0) :
    Represents (releaseAll m l).1 (fun a => if a ∈ l then n a - 1 else n a) ∧
      ∀ a, a ∈ (releaseAll m l).2 ↔ a ∈ l ∧ n a = 1 := by
  induction l generalizing m n with
  | nil => exact ⟨h.congr fun a => by simp, fun a => by simp [RefCount.releaseAll]⟩
  | cons x l ih =>
    obtain ⟨hx, hl⟩ := List.nodup_cons.mp hl
    obtain ⟨hr, hlast⟩ := h.release (hn x List.mem_cons_self)
    have hne : ∀ a ∈ l, a ≠ x := by
      rintro a ha rfl
      exact hx ha
    obtain ⟨ih1, ih2⟩ := ih hr hl fun a ha => by
      rw [Function.update_of_ne (hne a ha)]
      exact hn a (List.mem_cons_of_mem _ ha)
    constructor
    · refine ih1.congr fun a => ?_
      by_cases ha : a = x
      · subst ha
        rw [if_pos List.mem_cons_self, if_neg hx, Function.update_self]
      · simp only [List.mem_cons, ha, false_or, Function.update_of_ne ha]
    · intro a
      show a ∈ (if (RefCount.release m x).2 then x :: _ else _) ↔ _
      by_cases ha : a = x
      · subst ha
        have hnot : a ∉ (RefCount.releaseAll (RefCount.release m a).1 l).2 := fun hin => hx ((ih2 a).mp hin).1
        split
        · next h1 => exact ⟨fun _ => ⟨List.mem_cons_self, hlast.mp h1⟩, fun _ => List.mem_cons_self⟩
        · next h1 => exact ⟨fun hin => absurd hin hnot, fun hin => absurd (hlast.mpr hin.2) h1⟩
      · have hin := ih2 a
        rw [Function.update_of_ne ha] at hin
        split <;> simp [ha, hin]

end RefCount

import Mathlib

/-!
# Windows of equal keys

The window of a list is the longest part at its front in which every element has the key of the
first one.

    window (a :: l) = a :: window l  if l begins with the key of a, and [a] otherwise    (window_cons)
    window l is a prefix of l, of elements with one key                (window_isPrefix, key_of_mem_window)
    and every such prefix of l is one of window l                                          (prefix_window)
-/

namespace Window

variable {α κ : Type*} [DecidableEq κ] (key : α → κ)

def window : List α → List α
  | [] => []
  | a :: l => a :: l.takeWhile fun b => key b = key a

/-- The last element of the window. -/
def oldest (l : List α) : Option α := (window key l).getLast?

theorem window_isPrefix (l : List α) : window key l <+: l := by
  cases l with
  | nil => exact List.prefix_rfl
  | cons a l => exact (List.prefix_cons_inj a).mpr (List.takeWhile_prefix _)

theorem key_of_mem_window {a b : α} {l : List α} (h : b ∈ window key (a :: l)) : key b = key a := by
  obtain rfl | h := List.mem_cons.mp h
  · rfl
  · simpa using List.mem_takeWhile_imp h

theorem prefix_window {w l : List α} (h : w <+: l) (hkeys : ∀ a ∈ w, ∀ b ∈ w, key a = key b) : w <+: window key l := by
  obtain ⟨rest, rfl⟩ := h
  cases w with
  | nil => exact List.nil_prefix
  | cons a w =>
    have hall : ∀ b ∈ w, decide (key b = key a) = true := fun b hb =>
      decide_eq_true (hkeys b (List.mem_cons_of_mem _ hb) a List.mem_cons_self)
    show a :: w <+: a :: List.takeWhile _ (w ++ rest)
    rw [List.takeWhile_append_of_pos hall]
    exact (List.prefix_cons_inj a).mpr (List.prefix_append _ _)

theorem window_map {β : Type*} (f : β → α) (l : List β) :
    window key (l.map f) = (window (fun b => key (f b)) l).map f := by
  cases l with
  | nil => rfl
  | cons b l =>
    show f b :: List.takeWhile _ (l.map f) = f b :: List.map f (List.takeWhile _ l)
    rw [List.takeWhile_map]
    rfl

theorem key_of_head? {a b : α} {l : List α} (ha : l.head? = some a) (hb : b ∈ window key l) : key b = key a := by
  cases l with
  | nil => cases ha
  | cons c l =>
    cases ha
    exact key_of_mem_window key hb

/-- One more element either prolongs the window or begins a new one. -/
theorem window_cons (a : α) (l : List α) :
    window key (a :: l) = a :: if l.head?.map key = some (key a) then window key l else [] := by
  cases l with
  | nil => rfl
  | cons b l =>
    show a :: List.takeWhile _ (b :: l) = a :: if some (key b) = some (key a) then _ else []
    by_cases h : key b = key a
    · rw [List.takeWhile_cons_of_pos (by simpa using h), if_pos (by rw [h])]
      unfold window
      simp only [h]
    · rw [List.takeWhile_cons_of_neg (by simpa using h), if_neg (fun he => h (Option.some.inj he))]

theorem oldest_cons (a : α) (l : List α) :
    oldest key (a :: l) = if l.head?.map key = some (key a) then oldest key l else some a := by
  unfold oldest
  rw [window_cons]
  split
  · next h =>
    cases l with
    | nil => cases h
    | cons b l => rfl
  · rfl

theorem two_le_length_window {a : α} {l : List α} (h : l.head?.map key = some (key a)) :
    2 ≤ (window key (a :: l)).length := by
  rw [window_cons, if_pos h]
  cases l with
  | nil => cases h
  | cons b l =>
    show 2 ≤ (window key (b :: l)).length + 1
    unfold window
    rw [List.length_cons]
    omega

/-- The window begins with the first element. -/
theorem head?_window (l : List α) : (window key l).head? = l.head? := by
  cases l <;> rfl

theorem oldest_isSome {l : List α} (h : l ≠ []) : ∃ o, oldest key l = some o ∧ o ∈ window key l := by
  cases l with
  | nil => exact absurd rfl h
  | cons a l =>
    have hne : window key (a :: l) ≠ [] := by
      unfold window
      exact List.cons_ne_nil _ _
    exact ⟨_, List.getLast?_eq_some_getLast hne, List.getLast_mem hne⟩

end Window

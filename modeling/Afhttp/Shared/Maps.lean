import Mathlib

/-!
# Maps with text keys

`BTreeMap` and `HashMap` of Rust's standard library.  A map is what it holds: a `BTreeMap` lists
its entries by key (`toList`), a `HashMap` in some order, which is any rearrangement of its keys.
-/

namespace Afhttp

/-- Listed by key; keys compare as their UTF-8 does, which is by code point. -/
abbrev BTreeMap (α : Type*) := Std.ExtTreeMap String α

abbrev HashMap (α : Type*) := Std.ExtTreeMap String α

section
variable {α : Type*} (m : Std.ExtTreeMap String α)

theorem map_insert (k a : String) (v : α) : (m.insert k v)[a]? = if k = a then some v else m[a]? := by
  rw [Std.ExtTreeMap.getElem?_insert]
  simp only [Std.compare_eq_iff_eq]

@[simp] theorem map_insert_self (k : String) (v : α) : (m.insert k v)[k]? = some v := by
  rw [map_insert, if_pos rfl]

theorem map_insert_of_ne {k a : String} (v : α) (h : k ≠ a) : (m.insert k v)[a]? = m[a]? := by
  rw [map_insert, if_neg h]

theorem map_erase (k a : String) : (m.erase k)[a]? = if k = a then none else m[a]? := by
  rw [Std.ExtTreeMap.getElem?_erase]
  simp only [Std.compare_eq_iff_eq]

theorem map_modify (k a : String) (f : α → α) :
    (m.modify k f)[a]? = if k = a then m[k]?.map f else m[a]? := by
  rw [Std.ExtTreeMap.getElem?_modify]
  simp only [Std.compare_eq_iff_eq]

/-- An erasure that an insertion makes good. -/
theorem map_insert_erase (k : String) (v : α) : (m.erase k).insert k v = m.insert k v := by
  refine Std.ExtTreeMap.ext_getElem? fun a => ?_
  rw [map_insert, map_insert, map_erase]
  split <;> rfl

theorem map_insert_insert_erase (a k : String) (x v : α) :
    ((m.erase k).insert a x).insert k v = (m.insert a x).insert k v := by
  refine Std.ExtTreeMap.ext_getElem? fun b => ?_
  rw [map_insert, map_insert, map_insert, map_insert, map_erase]
  by_cases hk : k = b
  · rw [if_pos hk, if_pos hk]
  · rw [if_neg hk, if_neg hk, if_neg hk]

theorem map_contains (k : String) : m.contains k = true ↔ ∃ v, m[k]? = some v := by
  rw [← Std.ExtTreeMap.isSome_getElem?_eq_contains, Option.isSome_iff_exists]

theorem map_toList_nodup : (m.toList.map Prod.fst).Nodup := by
  rw [Std.ExtTreeMap.map_fst_toList_eq_keys]
  exact Std.ExtTreeMap.nodup_keys

/-- The entries of other keys. -/
def othersOf (k : String) : List (String × α) := m.toList.filter fun e => decide (e.1 ≠ k)

/-- A map lists the entry of a key, if it has one, and the others. -/
theorem map_toList_perm (k : String) :
    m.toList.Perm ((m[k]?.elim [] fun v => [(k, v)]) ++ othersOf m k) := by
  have hnodup : m.toList.Nodup := (map_toList_nodup m).of_map _
  refine (List.perm_ext_iff_of_nodup hnodup ?_).mpr fun e => ?_
  · refine List.Nodup.append ?_ (hnodup.filter _) ?_
    · cases m[k]? with
      | none => exact List.nodup_nil
      | some v => exact List.nodup_singleton _
    · intro e he hother
      have hne : e.1 ≠ k := of_decide_eq_true (List.mem_filter.mp hother).2
      cases hk : m[k]? with
      | none =>
        rw [hk] at he
        cases he
      | some v =>
        rw [hk] at he
        exact hne (by rw [List.mem_singleton.mp he])
  · obtain ⟨a, v⟩ := e
    rw [List.mem_append, othersOf, List.mem_filter, Std.ExtTreeMap.mem_toList_iff_getElem?_eq_some]
    by_cases ha : a = k
    · subst ha
      cases hk : m[a]? with
      | none => simp
      | some w => simp [eq_comm]
    · cases hk : m[k]? with
      | none => simp [ha]
      | some w => simp [ha]

theorem othersOf_insert (k : String) (v : α) : (othersOf (m.insert k v) k).Perm (othersOf m k) := by
  have hnodup (m : Std.ExtTreeMap String α) : (othersOf m k).Nodup := by
    unfold othersOf
    exact ((map_toList_nodup m).of_map _).filter _
  refine (List.perm_ext_iff_of_nodup (hnodup _) (hnodup _)).mpr fun e => ?_
  obtain ⟨a, w⟩ := e
  unfold othersOf
  rw [List.mem_filter, List.mem_filter, Std.ExtTreeMap.mem_toList_iff_getElem?_eq_some,
    Std.ExtTreeMap.mem_toList_iff_getElem?_eq_some, map_insert]
  by_cases ha : k = a
  · subst ha
    simp
  · rw [if_neg ha]

end

/-- The sum of a map's numbers after an insertion. -/
theorem sum_insert (m : BTreeMap ℕ) (k : String) (v : ℕ) :
    ((m.insert k v).toList.map Prod.snd).sum + m[k]?.getD 0 = (m.toList.map Prod.snd).sum + v := by
  have hnew := ((map_toList_perm (m.insert k v) k).map Prod.snd).sum_eq
  have hold := ((map_toList_perm m k).map Prod.snd).sum_eq
  have hothers := ((othersOf_insert m k v).map Prod.snd).sum_eq
  rw [map_insert_self] at hnew
  rw [hnew, hold, List.map_append, List.map_append, List.sum_append, List.sum_append, hothers]
  cases m[k]? with
  | none =>
    simp
    omega
  | some w =>
    simp
    omega

/-! ## Passes in any order -/

/-- What is sorted by a key without ties comes out the same from any order. -/
theorem mergeSort_eq_of_perm {α : Type*} {le : α → α → Bool} (htrans : ∀ a b c, le a b → le b c → le a c)
    (htotal : ∀ a b, le a b || le b a) {l₁ l₂ : List α} (h : l₁.Perm l₂)
    (hanti : ∀ a ∈ l₁, ∀ b ∈ l₁, le a b → le b a → a = b) : l₁.mergeSort le = l₂.mergeSort le := by
  have hperm : (l₁.mergeSort le).Perm (l₂.mergeSort le) :=
    (List.mergeSort_perm l₁ le).trans (h.trans (List.mergeSort_perm l₂ le).symm)
  refine List.Perm.eq_of_pairwise ?_ (List.pairwise_mergeSort htrans htotal l₁)
    (List.pairwise_mergeSort htrans htotal l₂) hperm
  intro a b ha hb
  exact hanti a (List.mem_mergeSort.mp ha) b (h.mem_iff.mpr (List.mem_mergeSort.mp hb))

/-- A pass that meets an element last. -/
theorem erase_concat_perm {l : List String} {k : String} (h : k ∈ l) : (l.erase k ++ [k]).Perm l :=
  (List.perm_append_singleton k (l.erase k)).trans (List.perm_cons_erase h).symm

/-- What is read off the last element, if every element says the same. -/
theorem getLast_elim_perm {α β : Type*} {l₁ l₂ : List α} (h : l₁.Perm l₂) (d : β) (f : α → β)
    (hsame : ∀ a ∈ l₁, ∀ b ∈ l₁, f a = f b) : l₁.getLast?.elim d f = l₂.getLast?.elim d f := by
  cases h₁ : l₁.getLast? with
  | none =>
    rw [List.getLast?_eq_none_iff.mp h₁] at h
    rw [h.nil_eq.symm]
    rfl
  | some a =>
    cases h₂ : l₂.getLast? with
    | none =>
      rw [List.getLast?_eq_none_iff.mp h₂] at h
      rw [h.eq_nil] at h₁
      cases h₁
    | some b => exact hsame a (List.mem_of_getLast? h₁) b (h.mem_iff.mpr (List.mem_of_getLast? h₂))

end Afhttp

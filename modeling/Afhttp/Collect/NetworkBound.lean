import Afhttp.Collect.MainDocument

/-!
# The bound of the collector

A table never holds more than `networkEntryLimit` entries, and an id that has one keeps it.

    (collect cfg es).slots.size ≤ networkEntryLimit                            (collect_bounded)
    an id in collect cfg xs is in collect cfg (xs ++ ys)               (contains_collect_append)
-/

namespace Afhttp.Collect

open Text Fetch

/-! ## What one change does to the ids and their number -/

namespace RequestTable

variable {cfg : CollectorConfig} {params : Json} {t : RequestTable}

theorem isSome_put {id k : String} (entry : NetworkEntry) (h : (t.entry k).isSome) :
    ((t.put id entry).entry k).isSome := by
  by_cases hk : k = id
  · subst hk
    rw [put_entry_self]
    rfl
  · rw [put_entry_of_ne _ _ hk]
    exact h

theorem isSome_accept {k : String} (h : (t.entry k).isSome) : ((t.accept cfg params).entry k).isSome := by
  obtain ⟨-, hacc⟩ | ⟨redirect, hop, -, -, ⟨-, hacc⟩ | ⟨-, hacc⟩⟩ := t.accept_cases cfg params
  · rw [hacc]
    exact isSome_put _ h
  · rw [hacc]
    exact isSome_put _ h
  · rw [hacc]
    exact isSome_put _ (isSome_put (t := t) _ h)

/-- An id that has an entry keeps one. -/
theorem isSome_apply (c : Change) {k : String} (h : (t.entry k).isSome) : ((t.apply cfg c).entry k).isSome := by
  cases c with
  | announce params =>
    show ((t.announce cfg params).entry k).isSome
    unfold announce
    split
    · exact h
    · exact isSome_accept (by rw [claimMain_entry]; exact h)
  | report r params =>
    show ((t.write (idOf params) (r.write cfg params)).entry k).isSome
    by_cases hk : k = idOf params
    · subst hk
      rw [write_entry_self, Option.isSome_map]
      exact h
    · rw [write_entry_of_ne _ _ hk]
      exact h
  | choose id => exact h
  | keep => exact h

theorem size_put_of_isSome {id : String} (entry : NetworkEntry) (h : (t.entry id).isSome) :
    (t.put id entry).size = t.size := by
  show t.size + (if (t.entry id).isSome then 0 else 1) = t.size
  rw [if_pos h, Nat.add_zero]

theorem size_put_of_none {id : String} (entry : NetworkEntry) (h : t.entry id = none) :
    (t.put id entry).size = t.size + 1 := by
  show t.size + (if (t.entry id).isSome then 0 else 1) = t.size + 1
  rw [h]
  rfl

/-- A hop that moves takes one slot more, if its new id is free. -/
theorem size_moveHop_link {redirect : Json} {hop : NetworkEntry} (hhop : t.entry (idOf params) = some hop)
    (origin : Option String) :
    ((t.moveHop cfg params redirect hop).link cfg params origin).size =
      t.size + if (t.entry (t.hopAt params)).isSome then 0 else 1 := by
  refine size_put_of_isSome (t := t.moveHop cfg params redirect hop) _ (isSome_put (t := t) _ ?_)
  rw [hhop]
  rfl

/-- The size after an announcement that is not refused. -/
theorem size_accept_cases (cfg : CollectorConfig) (t : RequestTable) (params : Json) :
    (t.entry (idOf params) = none ∧ (t.accept cfg params).size = t.size + 1) ∨
    ((t.entry (idOf params)).isSome ∧ (params.get "redirectResponse" = none ∨ networkEntryLimit ≤ t.size) ∧
      (t.accept cfg params).size = t.size) ∨
    ((params.get "redirectResponse").isSome ∧ (t.entry (idOf params)).isSome ∧ t.size < networkEntryLimit ∧
      (t.accept cfg params).size = t.size + if (t.entry (t.hopAt params)).isSome then 0 else 1) := by
  obtain ⟨hend, hacc⟩ | ⟨redirect, hop, hr, hhop, ⟨hfull, hacc⟩ | ⟨hroom, hacc⟩⟩ := t.accept_cases cfg params
  · rw [hacc]
    by_cases h : t.entry (idOf params) = none
    · exact .inl ⟨h, size_put_of_none _ h⟩
    · have hsome := Option.isSome_iff_ne_none.mpr h
      have hplain : params.get "redirectResponse" = none := by
        cases hr : params.get "redirectResponse" with
        | none => rfl
        | some redirect =>
          unfold ending at hend
          rw [hr, Option.bind_some, Option.map_eq_none_iff] at hend
          exact absurd hend h
      exact .inr (.inl ⟨hsome, .inl hplain, size_put_of_isSome _ hsome⟩)
  · have hsome : (t.entry (idOf params)).isSome := by rw [hhop]; rfl
    rw [hacc]
    exact .inr (.inl ⟨hsome, .inr hfull, size_put_of_isSome (t := { t with truncated := true }) _ hsome⟩)
  · have hsome : (t.entry (idOf params)).isSome := by rw [hhop]; rfl
    rw [hacc]
    exact .inr (.inr ⟨by rw [hr]; rfl, hsome, hroom, size_moveHop_link hhop _⟩)

theorem limit_le (resourceType : String) : t.limit resourceType ≤ networkEntryLimit := by
  unfold limit
  split
  · exact Nat.sub_le _ _
  · exact le_rfl

theorem not_refuses (h : ¬t.Refuses cfg params) :
    idOf params ≠ "" ∧ (t.entry (idOf params) = none → t.size < t.limit (typeOf cfg params)) := by
  unfold Refuses at h
  push Not at h
  exact h

/-- **Bound.**  No change lets the table outgrow the limit. -/
theorem size_apply_le (c : Change) (h : t.size ≤ networkEntryLimit) : (t.apply cfg c).size ≤ networkEntryLimit := by
  cases c with
  | announce params =>
    show (t.announce cfg params).size ≤ networkEntryLimit
    unfold announce
    split
    · exact h
    · next hacc =>
      have hroom := (not_refuses hacc).2
      have hlimit := limit_le (t := t) (typeOf cfg params)
      obtain ⟨hnone, hsize⟩ | ⟨-, -, hsize⟩ | ⟨-, -, hlt, hsize⟩ :=
        size_accept_cases cfg (t.claimMain cfg params) params
      · rw [claimMain_entry] at hnone
        rw [hsize, claimMain_size]
        have := hroom hnone
        omega
      · rw [hsize, claimMain_size]
        exact h
      · rw [claimMain_size] at hlt
        rw [hsize, claimMain_size]
        split <;> omega
  | report r params => exact h
  | choose id => exact h
  | keep => exact h

end RequestTable

/-- **Bound.** -/
theorem collect_bounded (cfg : CollectorConfig) (es : List CollectorStep) :
    (collect cfg es).slots.size ≤ networkEntryLimit :=
  collect_history (P := fun _ t => t.size ≤ networkEntryLimit) (Nat.zero_le _)
    (fun _ _ h => RequestTable.size_apply_le _ h) es

/-- **An id that has an entry keeps one.** -/
theorem contains_collect_append {cfg : CollectorConfig} {xs : List CollectorStep} {id : String}
    (h : (collect cfg xs).slots.contains id = true) (ys : List CollectorStep) :
    (collect cfg (xs ++ ys)).slots.contains id = true := by
  induction ys using List.reverseRecOn with
  | nil =>
    rw [List.append_nil]
    exact h
  | append_singleton ys e ih =>
    rw [← List.append_assoc, collect_concat]
    rw [contains_eq_isSome] at ih ⊢
    change ((collectorStep cfg (collect cfg (xs ++ ys)) e).table.entry id).isSome = true
    rw [table_step]
    exact RequestTable.isSome_apply _ ih

end Afhttp.Collect

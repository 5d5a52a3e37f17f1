import Afhttp.Collect.RequestTable

/-!
# The choice of the main document

`selectMainDocument` takes the latest root-frame Document, of several latest ones the one it meets
last, which is the first of the reversed pass with the greatest start.
-/

namespace Afhttp.Collect

section
variable {α : Type*} (key : α → ℕ)

theorem maxByKey_concat (l : List α) (x : α) :
    maxByKey key (l ++ [x]) = some ((maxByKey key l).elim x fun b => if key b ≤ key x then x else b) := by
  unfold maxByKey
  rw [List.foldl_append, List.foldl_cons, List.foldl_nil]
  split
  · next b hb =>
    rw [hb]
    exact (apply_ite some ..).symm
  · next hnone =>
    rw [hnone]
    rfl

theorem maxByKey_eq_argmax (l : List α) : maxByKey key l = l.reverse.argmax key := by
  induction l using List.reverseRecOn with
  | nil => rfl
  | append_singleton l x ih =>
    rw [maxByKey_concat, ih, List.reverse_concat, List.argmax_cons]
    cases List.argmax key l.reverse with
    | none => rfl
    | some b =>
      show some (if key b ≤ key x then x else b) = if key x < key b then some b else some x
      by_cases h : key b ≤ key x
      · rw [if_pos h, if_neg (Nat.not_lt.mpr h)]
      · rw [if_neg h, if_pos (Nat.not_le.mp h)]

variable {key}

theorem maxByKey_mem {l : List α} {x : α} (h : maxByKey key l = some x) : x ∈ l := by
  rw [maxByKey_eq_argmax] at h
  exact List.mem_reverse.mp (List.argmax_mem h)

theorem le_of_maxByKey {l : List α} {x a : α} (h : maxByKey key l = some x) (ha : a ∈ l) : key a ≤ key x := by
  rw [maxByKey_eq_argmax] at h
  exact List.le_of_mem_argmax (List.mem_reverse.mpr ha) h

theorem maxByKey_map {β : Type*} (key : β → ℕ) (f : α → β) (l : List α) :
    maxByKey key (l.map f) = (maxByKey (key ∘ f) l).map f := by
  induction l using List.reverseRecOn with
  | nil => rfl
  | append_singleton l x ih =>
    rw [List.map_append, List.map_singleton, maxByKey_concat, maxByKey_concat, ih]
    cases maxByKey (key ∘ f) l with
    | none => rfl
    | some b => exact congrArg some (apply_ite f ..).symm

theorem maxByKey_eq_none {l : List α} : maxByKey key l = none ↔ l = [] := by
  rw [maxByKey_eq_argmax, List.argmax_eq_none, List.reverse_eq_nil_iff]

end

/-! ## The candidates -/

theorem mem_values {inner : NetworkInner} {order : List String} {slot : NetworkSlot} :
    slot ∈ inner.values order ↔ ∃ id ∈ order, inner.slots[id]? = some slot := List.mem_filterMap

theorem mem_keys_of_entry {inner : NetworkInner} {id : String} (h : (inner.entry id).isSome) : id ∈ inner.slots.keys := by
  rw [← contains_eq_isSome] at h
  exact Std.ExtTreeMap.mem_keys.mpr (Std.ExtTreeMap.contains_iff_mem.mp h)

theorem isMainCandidate_iff {frame : String} {slot : NetworkSlot} : isMainCandidate frame slot = true ↔
    slot.entry.resourceType = "Document" ∧ slot.entry.frameId = some frame ∧ slot.entry.isRedirectHop = false := by
  unfold isMainCandidate
  rw [Bool.and_eq_true, Bool.and_eq_true, beq_iff_eq, beq_iff_eq, Bool.not_eq_true', and_assoc]

/-- A choice is made only where there is a Document. -/
theorem document_of_choose {cfg : CollectorConfig} {inner : NetworkInner} {e : CollectorStep} {id : String}
    (h : changeOf cfg inner e = .choose id) :
    ∃ k entry, inner.entry k = some entry ∧ entry.resourceType = "Document" := by
  cases e with
  | event event now =>
    unfold changeOf eventChange at h
    dsimp only at h
    split at h
    · split at h
      · cases h
      · cases hr : reportOf event.method with
        | none =>
          rw [hr] at h
          cases h
        | some r =>
          rw [hr] at h
          cases h
    · cases h
  | lagged count now => cases h
  | select frame order =>
    unfold changeOf at h
    dsimp only at h
    cases hmax : maxByKey (·.entry.timing.startMonotonicMs) ((inner.values order).filter (isMainCandidate frame)) with
    | none =>
      rw [hmax] at h
      cases h
    | some main =>
      obtain ⟨hmem, hcand⟩ := List.mem_filter.mp (maxByKey_mem hmax)
      obtain ⟨k, -, hslot⟩ := mem_values.mp hmem
      refine ⟨k, main.entry, ?_, (isMainCandidate_iff.mp hcand).1⟩
      unfold NetworkInner.entry
      rw [hslot]
      rfl

/-! ## What the choice depends on -/

/-- A root-frame Document that is no redirect hop. -/
def rootDocument (frame : String) (entry : NetworkEntry) : Bool :=
  entry.resourceType == "Document" && entry.frameId == some frame && !entry.isRedirectHop

/-- What the choice looks at in an entry. -/
def documentMark (frame : String) (entry : NetworkEntry) : Option (ℕ × String) :=
  if rootDocument frame entry then some (entry.timing.startMonotonicMs, entry.requestId) else none

/-- The latest root-frame Document, by a pass that meets the ids in this order. -/
def pickId (frame : String) (order : List String) (t : RequestTable) : Option String :=
  (maxByKey Prod.fst (order.filterMap fun id => (t.entry id).bind (documentMark frame))).map Prod.snd

theorem pickId_eq (frame : String) (order : List String) (inner : NetworkInner) :
    (maxByKey (·.entry.timing.startMonotonicMs) ((inner.values order).filter (isMainCandidate frame))).map
      (·.entry.requestId) = pickId frame order inner.table := by
  let f : NetworkSlot → ℕ × String := fun slot => (slot.entry.timing.startMonotonicMs, slot.entry.requestId)
  have hmarks : order.filterMap (fun id => (inner.entry id).bind (documentMark frame)) =
      ((inner.values order).filter (isMainCandidate frame)).map f := by
    unfold NetworkInner.values
    rw [List.filter_filterMap, List.map_filterMap]
    congr 1
    funext id
    unfold NetworkInner.entry documentMark
    cases inner.slots[id]? with
    | none => rfl
    | some slot =>
      show (if rootDocument frame slot.entry then some (f slot) else none) =
        ((some slot).filter (isMainCandidate frame)).map f
      rw [Option.filter_some, apply_ite (Option.map f)]
      rfl
  unfold pickId
  rw [show (inner.table.entry) = inner.entry from rfl, hmarks, maxByKey_map, Option.map_map]
  rfl

/-- **Selection** sets the main request to the pick, if there is one. -/
theorem selectMainDocument_eq (frame : String) (order : List String) (inner : NetworkInner) :
    selectMainDocument (inner.values order) frame inner =
      { inner with mainRequestId := (pickId frame order inner.table).or inner.mainRequestId } := by
  rw [← pickId_eq]
  unfold selectMainDocument
  cases maxByKey (·.entry.timing.startMonotonicMs) ((inner.values order).filter (isMainCandidate frame)) <;> rfl

theorem documentMark_eq_some {frame : String} {entry : NetworkEntry} {start : ℕ} {id : String} :
    documentMark frame entry = some (start, id) ↔
      rootDocument frame entry = true ∧ entry.timing.startMonotonicMs = start ∧ entry.requestId = id := by
  unfold documentMark
  split
  · next h => simp [h]
  · next h => simp [h]

section
variable {frame : String} {order : List String} {t : RequestTable}

theorem pickId_congr {t' : RequestTable}
    (h : ∀ id ∈ order, (t'.entry id).bind (documentMark frame) = (t.entry id).bind (documentMark frame)) :
    pickId frame order t' = pickId frame order t := by
  unfold pickId
  rw [List.filterMap_congr h]

theorem pickId_mem {id : String} (h : pickId frame order t = some id) : ∃ k ∈ order, ∃ start,
    (t.entry k).bind (documentMark frame) = some (start, id) ∧
      ∀ k' ∈ order, ∀ start' id', (t.entry k').bind (documentMark frame) = some (start', id') → start' ≤ start := by
  obtain ⟨⟨start, id'⟩, hmax, rfl⟩ := Option.map_eq_some_iff.mp h
  obtain ⟨k, hk, hmark⟩ := List.mem_filterMap.mp (maxByKey_mem hmax)
  refine ⟨k, hk, start, hmark, fun k' hk' start' id' hmark' => ?_⟩
  exact le_of_maxByKey hmax (List.mem_filterMap.mpr ⟨k', hk', hmark'⟩)

theorem pickId_eq_none : pickId frame order t = none ↔ ∀ k ∈ order, (t.entry k).bind (documentMark frame) = none := by
  unfold pickId
  rw [Option.map_eq_none_iff, maxByKey_eq_none, List.filterMap_eq_nil_iff]

end

theorem isRedirectHop_endedHop (cfg : CollectorConfig) (params redirect : Json) (id : String) (hop : NetworkEntry) :
    (endedHop cfg.lib cfg.redactHeaders params redirect id hop).isRedirectHop = true := by
  unfold NetworkEntry.isRedirectHop
  rw [show (endedHop cfg.lib cfg.redactHeaders params redirect id hop).hints["redirected"]? = some (.bool true) from
    map_insert_self hop.hints _ _]

/-- A report leaves what the choice looks at. -/
theorem documentMark_write (cfg : CollectorConfig) (frame : String) (r : Report) (params : Json)
    (entry : NetworkEntry) : documentMark frame (r.write cfg params entry) = documentMark frame entry := by
  have hhop : (r.write cfg params entry).isRedirectHop = entry.isRedirectHop := by
    have hinsert (hints : BTreeMap Json) (key : String) (value : Option Json) (h : key ≠ "redirected") :
        (insertHint hints key value)["redirected"]? = hints["redirected"]? := by
      cases value with
      | none => rfl
      | some v => exact map_insert_of_ne hints v h
    have hsame (entry' : NetworkEntry) (h : entry'.hints["redirected"]? = entry.hints["redirected"]?) :
        entry'.isRedirectHop = entry.isRedirectHop := by
      unfold NetworkEntry.isRedirectHop
      rw [h]
    refine hsame _ ?_
    cases r with
    | response =>
      unfold Report.write respond
      dsimp only
      rw [hinsert _ _ _ (by decide), hinsert _ _ _ (by decide), hinsert _ _ _ (by decide)]
    | finished => exact hinsert _ _ _ (by decide)
    | failed => rfl
    | cached => exact map_insert_of_ne entry.hints _ (by decide)
  unfold documentMark rootDocument
  rw [hhop]
  cases r <;> rfl

/-! ## Entries and their ids -/

/-- Every entry carries the id under which it is kept. -/
def Keyed (t : RequestTable) : Prop := ∀ id entry, t.entry id = some entry → entry.requestId = id

/-- There is a main request once there is a Document. -/
def Claimed (t : RequestTable) : Prop :=
  t.main = none → ∀ id entry, t.entry id = some entry → entry.resourceType ≠ "Document"

section
variable {cfg : CollectorConfig} {t : RequestTable}

theorem write_requestId (r : Report) (params : Json) (entry : NetworkEntry) :
    (r.write cfg params entry).requestId = entry.requestId ∧
      (r.write cfg params entry).resourceType = entry.resourceType := by
  cases r <;> exact ⟨rfl, rfl⟩

theorem Keyed.accept {params : Json} (h : Keyed t) : Keyed (t.accept cfg params) := by
  intro k entry hentry
  obtain ⟨rfl, origin, rfl⟩ | ⟨rfl, redirect, hop, -, -, -, rfl⟩ | hold := t.accept_entry_cases cfg params hentry
  · rfl
  · rfl
  · exact h k entry hold

theorem Keyed.apply (h : Keyed t) (c : Change) : Keyed (t.apply cfg c) := by
  cases c with
  | announce params =>
    show Keyed (t.announce cfg params)
    unfold RequestTable.announce
    split
    · exact h
    · refine Keyed.accept fun k entry hentry => h k entry ?_
      rw [← hentry, RequestTable.claimMain_entry]
  | report r params =>
    intro k entry hentry
    change (t.write (idOf params) (r.write cfg params)).entry k = some entry at hentry
    rw [RequestTable.write_entry] at hentry
    obtain ⟨old, hold, rfl⟩ := Option.map_eq_some_iff.mp hentry
    split
    · rw [(write_requestId r params old).1]
      exact h k old hold
    · exact h k old hold
  | choose id => exact h
  | keep => exact h

theorem accept_main {params : Json} : (t.accept cfg params).main = t.main := by
  obtain ⟨-, hacc⟩ | ⟨redirect, hop, -, -, ⟨-, hacc⟩ | ⟨-, hacc⟩⟩ := t.accept_cases cfg params
  all_goals
    rw [hacc]
    rfl

/-- The type of an entry is the announced one or was there before. -/
theorem accept_type {params : Json} {k : String} {entry : NetworkEntry}
    (h : (t.accept cfg params).entry k = some entry) : entry.resourceType = typeOf cfg params ∨
      ∃ k' entry', t.entry k' = some entry' ∧ entry.resourceType = entry'.resourceType := by
  obtain ⟨-, origin, rfl⟩ | ⟨-, redirect, hop, -, hhop, -, rfl⟩ | hold := t.accept_entry_cases cfg params h
  · exact .inl rfl
  · exact .inr ⟨_, hop, hhop, rfl⟩
  · exact .inr ⟨k, entry, hold, rfl⟩

theorem claimMain_main (params : Json) :
    (t.claimMain cfg params).main = if IsDocument cfg params ∧ t.main = none then some (idOf params) else t.main := by
  unfold RequestTable.claimMain
  split <;> rfl

theorem Claimed.apply (h : Claimed t) (c : Change) : Claimed (t.apply cfg c) := by
  cases c with
  | announce params =>
    show Claimed (t.announce cfg params)
    unfold RequestTable.announce
    split
    · exact h
    · intro hmain k entry hentry
      rw [accept_main, claimMain_main] at hmain
      split at hmain
      · cases hmain
      · next hno =>
        obtain htype | ⟨k', entry', hold, htype⟩ := accept_type hentry
        · rw [htype]
          exact fun hdoc => hno ⟨hdoc, hmain⟩
        · rw [htype]
          rw [RequestTable.claimMain_entry] at hold
          exact h hmain k' entry' hold
  | report r params =>
    intro hmain k entry hentry
    change (t.write (idOf params) (r.write cfg params)).entry k = some entry at hentry
    rw [RequestTable.write_entry] at hentry
    obtain ⟨old, hold, rfl⟩ := Option.map_eq_some_iff.mp hentry
    have htype := h hmain k old hold
    split
    · rw [(write_requestId r params old).2]
      exact htype
    · exact htype
  | choose id =>
    intro hmain
    cases hmain
  | keep => exact h

end

end Afhttp.Collect

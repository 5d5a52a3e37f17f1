import Mathlib.Data.List.Nodup
import Mathlib.Data.List.Induction
import Mathlib.Data.Finset.Insert

/-!
# Overlaying changes on a list of keyed entries

A list holds entries, each with a key.  `upsert` replaces the first entry of the
new entry's key, or appends.  `overlay` does it for a list of changes.  The two
are described key by key, through the sublist `entriesOf key k` of the entries of
one key:

    entriesOf k (overlay l cs) = replaceHead (lastOf k cs) (entriesOf k l)       (entriesOf_overlay)

A list in which no two entries share a key is known by its `lookup` (`lookup_eq_some_iff`).

A `Tracked` snapshot remembers by index which entries were written since it was
taken.  Whatever the snapshot held, the changed entries of a key are the last
write of that key and nothing else (`entriesOf_changed_writes`).
-/

namespace Overlay

variable {α κ : Type*} [DecidableEq κ] (key : α → κ)

/-- Replace the first entry of `a`'s key, or append `a`. -/
def upsert (l : List α) (a : α) : List α :=
  match l.findIdx? fun e => key e = key a with
  | some i => l.set i a
  | none => l ++ [a]

/-- `upsert` each change in turn. -/
def overlay (l cs : List α) : List α := cs.foldl (upsert key) l

/-- The entries of one key, in order. -/
def entriesOf (k : κ) (l : List α) : List α := l.filter fun e => key e = k

/-- The last entry of one key. -/
def lastOf (k : κ) (l : List α) : Option α := l.reverse.find? fun e => key e = k

/-- The new entry, if any, in place of the first one. -/
def replaceHead : Option α → List α → List α
  | some a, l => a :: l.tail
  | none, l => l

@[simp] theorem replaceHead_none (l : List α) : replaceHead none l = l := rfl

@[simp] theorem replaceHead_some (a : α) (l : List α) : replaceHead (some a) l = a :: l.tail := rfl

@[simp] theorem overlay_nil (l : List α) : overlay key l [] = l := rfl

theorem overlay_snoc (l cs : List α) (c : α) :
    overlay key l (cs ++ [c]) = upsert key (overlay key l cs) c := by
  unfold overlay
  rw [List.foldl_append, List.foldl_cons, List.foldl_nil]

theorem mem_entriesOf {k : κ} {l : List α} {e : α} : e ∈ entriesOf key k l ↔ e ∈ l ∧ key e = k := by
  simp [entriesOf]

theorem lastOf_snoc (k : κ) (l : List α) (a : α) :
    lastOf key k (l ++ [a]) = if key a = k then some a else lastOf key k l := by
  unfold lastOf
  rw [List.reverse_append, List.reverse_singleton, List.singleton_append, List.find?_cons]
  by_cases h : key a = k <;> simp [h]

theorem lastOf_eq_none {k : κ} {l : List α} : lastOf key k l = none ↔ ∀ e ∈ l, key e ≠ k := by
  simp [lastOf, List.find?_eq_none]

theorem mem_of_lastOf {k : κ} {l : List α} {a : α} (h : lastOf key k l = some a) :
    a ∈ l ∧ key a = k := by
  unfold lastOf at h
  exact ⟨List.mem_reverse.mp (List.mem_of_find?_eq_some h), by simpa using List.find?_some h⟩

/-- Where `upsert` writes: at the first entry of the key, or at the end. -/
theorem upsert_cases (l : List α) (a : α) :
    (∃ xs e ys, l = xs ++ e :: ys ∧ key e = key a ∧ (∀ x ∈ xs, key x ≠ key a) ∧
      l.findIdx? (fun e => key e = key a) = some xs.length ∧ upsert key l a = xs ++ a :: ys) ∨
    ((∀ x ∈ l, key x ≠ key a) ∧ l.findIdx? (fun e => key e = key a) = none ∧
      upsert key l a = l ++ [a]) := by
  cases h : l.findIdx? fun e => key e = key a with
  | none =>
    refine Or.inr ⟨?_, rfl, by rw [upsert, h]⟩
    intro x hx
    simpa using List.findIdx?_eq_none_iff.mp h x hx
  | some i =>
    left
    obtain ⟨hi, hki, hbefore⟩ := List.findIdx?_eq_some_iff_getElem.mp h
    refine ⟨l.take i, l[i], l.drop (i + 1), ?_, by simpa using hki, ?_, ?_, ?_⟩
    · rw [List.cons_getElem_drop_succ, List.take_append_drop]
    · intro x hx
      obtain ⟨j, hj, rfl⟩ := List.mem_take_iff_getElem.mp hx
      have := hbefore j (by omega)
      simpa using this
    · rw [List.length_take, Nat.min_eq_left (by omega)]
    · rw [upsert, h]
      exact List.set_eq_take_append_cons_drop.trans (if_pos hi)

theorem entriesOf_eq_nil {k : κ} {l : List α} (h : ∀ x ∈ l, key x ≠ k) : entriesOf key k l = [] := by
  simpa [entriesOf] using h

/-- **One write, key by key.** -/
theorem entriesOf_upsert (k : κ) (l : List α) (a : α) :
    entriesOf key k (upsert key l a) =
      if key a = k then a :: (entriesOf key k l).tail else entriesOf key k l := by
  rcases upsert_cases key l a with ⟨xs, e, ys, rfl, he, hxs, -, hu⟩ | ⟨hl, -, hu⟩
  · rw [hu]
    unfold entriesOf
    by_cases hk : key a = k
    · have hx : xs.filter (fun e => key e = k) = [] := by
        simpa [hk] using fun x hx => hxs x hx
      simp [hk, hx, he]
    · simp [hk, he]
  · rw [hu]
    by_cases hk : key a = k
    · have hn : entriesOf key k l = [] := entriesOf_eq_nil key (by rwa [← hk])
      rw [if_pos hk, hn]
      unfold entriesOf at hn ⊢
      rw [List.filter_append, hn]
      simp [hk]
    · unfold entriesOf
      simp [hk]

/-- **All writes, key by key.**  Only the last change of a key is left. -/
theorem entriesOf_overlay (k : κ) (l cs : List α) :
    entriesOf key k (overlay key l cs) = replaceHead (lastOf key k cs) (entriesOf key k l) := by
  induction cs using List.reverseRecOn with
  | nil => rfl
  | append_singleton cs c ih =>
    rw [overlay_snoc, entriesOf_upsert, ih, lastOf_snoc]
    split
    · cases lastOf key k cs <;> simp
    · rfl

theorem mem_overlay {l cs : List α} {e : α} (h : e ∈ overlay key l cs) :
    e ∈ l ∨ lastOf key (key e) cs = some e := by
  have h' : e ∈ entriesOf key (key e) (overlay key l cs) := (mem_entriesOf key).mpr ⟨h, rfl⟩
  rw [entriesOf_overlay] at h'
  cases hc : lastOf key (key e) cs with
  | none =>
    rw [hc] at h'
    exact Or.inl ((mem_entriesOf key).mp h').1
  | some c =>
    rw [hc] at h'
    rcases List.mem_cons.mp h' with rfl | h'
    · exact Or.inr rfl
    · exact Or.inl ((mem_entriesOf key).mp (List.mem_of_mem_tail h')).1

/-- An entry whose key no change has stays. -/
theorem mem_overlay_of_unchanged {l cs : List α} {e : α} (h : e ∈ l)
    (hc : lastOf key (key e) cs = none) : e ∈ overlay key l cs := by
  have : e ∈ entriesOf key (key e) (overlay key l cs) := by
    rw [entriesOf_overlay, hc]
    exact (mem_entriesOf key).mpr ⟨h, rfl⟩
  exact ((mem_entriesOf key).mp this).1

theorem mem_upsert {l : List α} {a e : α} (h : e ∈ upsert key l a) : e ∈ l ∨ e = a := by
  have ho : e ∈ overlay key l [a] := h
  rcases mem_overlay key ho with hl | ha
  · exact Or.inl hl
  · exact Or.inr (List.mem_singleton.mp (mem_of_lastOf key ha).1)

theorem mem_upsert_of_ne {l : List α} {a e : α} (h : e ∈ l) (hne : key e ≠ key a) : e ∈ upsert key l a := by
  have hnone : lastOf key (key e) [a] = none := by
    rw [lastOf_eq_none]
    intro x hx
    rw [List.mem_singleton.mp hx]
    exact hne.symm
  exact mem_overlay_of_unchanged key h hnone

/-! ## Lists without two entries of one key -/

/-- No two entries share a key. -/
def UniqueKeys (l : List α) : Prop := (l.map key).Nodup

instance (l : List α) : Decidable (UniqueKeys key l) := inferInstanceAs (Decidable (l.map key).Nodup)

theorem uniqueKeys_iff (l : List α) : UniqueKeys key l ↔ ∀ k, (entriesOf key k l).length ≤ 1 := by
  unfold UniqueKeys
  rw [List.nodup_iff_count_le_one]
  refine forall_congr' fun k => ?_
  rw [List.count_eq_countP, List.countP_map, List.countP_eq_length_filter]
  unfold entriesOf
  simp only [Function.comp_def, beq_eq_decide]

theorem entriesOf_filter (k : κ) (p : α → Bool) (l : List α) :
    entriesOf key k (l.filter p) = (entriesOf key k l).filter p := by
  unfold entriesOf
  rw [List.filter_filter, List.filter_filter]
  congr 1
  funext e
  exact Bool.and_comm _ _

/-- The entry of a key: the first one. -/
def lookup (k : κ) (l : List α) : Option α := (entriesOf key k l).head?

/-- In a list without two entries of one key, `lookup` finds each entry. -/
theorem lookup_eq_some_iff {l : List α} (h : UniqueKeys key l) (k : κ) (e : α) :
    lookup key k l = some e ↔ e ∈ l ∧ key e = k := by
  have hlen := (uniqueKeys_iff key l).mp h k
  rw [← mem_entriesOf key (k := k)]
  unfold lookup
  cases hl : entriesOf key k l with
  | nil => simp
  | cons x xs =>
    rw [hl] at hlen
    have : xs = [] := List.length_eq_zero_iff.mp (by simpa using hlen)
    subst this
    simp [eq_comm]

/-! ## Snapshots with tracked changes -/

/-- Entries, and the indices of those written since the snapshot was taken. -/
structure Tracked (α : Type*) where
  entries : List α
  updated : Finset ℕ

namespace Tracked

/-- A fresh snapshot. -/
def take (l : List α) : Tracked α := ⟨l, ∅⟩

/-- `upsert`, noting the index written. -/
def write (t : Tracked α) (a : α) : Tracked α :=
  match t.entries.findIdx? fun e => key e = key a with
  | some i => ⟨t.entries.set i a, insert i t.updated⟩
  | none => ⟨t.entries ++ [a], insert t.entries.length t.updated⟩

/-- The written entries, in the order of their indices. -/
def changed (t : Tracked α) : List α :=
  (t.entries.zipIdx.filter fun p => decide (p.2 ∈ t.updated)).map Prod.fst

end Tracked

/-- Each entry with the note whether it was written. -/
def marked (t : Tracked α) : List (α × Bool) := t.entries.mapIdx fun i e => (e, decide (i ∈ t.updated))

/-- Every note is about an index of the snapshot. -/
def InRange (t : Tracked α) : Prop := ∀ i ∈ t.updated, i < t.entries.length

theorem map_fst_marked (t : Tracked α) : (marked t).map Prod.fst = t.entries := by
  unfold marked
  apply List.ext_getElem <;> simp

theorem changed_eq (t : Tracked α) : t.changed = ((marked t).filter Prod.snd).map Prod.fst := by
  unfold Tracked.changed marked
  rw [List.mapIdx_eq_zipIdx_map, List.filter_map, List.map_map]
  rfl

theorem write_entries (t : Tracked α) (a : α) : (t.write key a).entries = upsert key t.entries a := by
  unfold Tracked.write upsert
  split <;> rfl

theorem marked_write (t : Tracked α) (a : α) (hr : InRange t) :
    marked (t.write key a) = upsert (fun p : α × Bool => key p.1) (marked t) (a, true) := by
  have hfind : (marked t).findIdx? (fun p => key p.1 = key a) =
      t.entries.findIdx? fun e => key e = key a := by
    conv_rhs => rw [← map_fst_marked t]
    rw [List.findIdx?_map]
    rfl
  unfold upsert
  rw [hfind]
  unfold Tracked.write
  cases h : t.entries.findIdx? fun e => key e = key a with
  | some i =>
    apply List.ext_getElem
    · simp [marked]
    · intro j h1 h2
      simp only [marked, List.getElem_mapIdx, List.getElem_set]
      by_cases hij : i = j
      · simp [hij]
      · have : j ≠ i := fun e => hij e.symm
        simp [hij, this]
  | none =>
    have hnew : t.entries.length ∉ t.updated := fun hm => Nat.lt_irrefl _ (hr _ hm)
    simp only [marked, List.mapIdx_append, List.mapIdx_cons, List.mapIdx_nil]
    congr 1
    · apply List.ext_getElem
      · simp
      · intro j h1 h2
        have hj : j < t.entries.length := by simpa using h1
        have : j ≠ t.entries.length := by omega
        simp [this]
    · simp

theorem inRange_write (t : Tracked α) (a : α) (hr : InRange t) : InRange (t.write key a) := by
  intro i hi
  rw [write_entries]
  unfold Tracked.write at hi
  rcases upsert_cases key t.entries a with ⟨xs, e, ys, hl, -, -, hf, hu⟩ | ⟨-, hf, hu⟩
  · rw [hf] at hi
    rw [hu]
    rcases Finset.mem_insert.mp hi with rfl | hi
    · simp
    · have := hr i hi
      rw [hl] at this
      simpa using this
  · rw [hf] at hi
    rw [hu, List.length_append, List.length_singleton]
    rcases Finset.mem_insert.mp hi with rfl | hi
    · omega
    · have := hr i hi
      omega

/-- Write each change into a snapshot. -/
def writes (t : Tracked α) (cs : List α) : Tracked α := cs.foldl (Tracked.write key) t

theorem writes_snoc (t : Tracked α) (cs : List α) (c : α) :
    writes key t (cs ++ [c]) = (writes key t cs).write key c := by
  unfold writes
  rw [List.foldl_append, List.foldl_cons, List.foldl_nil]

theorem inRange_writes (t : Tracked α) (cs : List α) (hr : InRange t) : InRange (writes key t cs) := by
  induction cs using List.reverseRecOn with
  | nil => exact hr
  | append_singleton cs c ih =>
    rw [writes_snoc]
    exact inRange_write key _ c ih

theorem inRange_take (l : List α) : InRange (Tracked.take l) := fun i hi => absurd hi (Finset.notMem_empty i)

theorem marked_writes (l cs : List α) :
    marked (writes key (Tracked.take l) cs) =
      overlay (fun p : α × Bool => key p.1) (l.map fun e => (e, false)) (cs.map fun e => (e, true)) := by
  induction cs using List.reverseRecOn with
  | nil =>
    show marked (Tracked.take l) = _
    unfold marked Tracked.take
    apply List.ext_getElem <;> simp
  | append_singleton cs c ih =>
    rw [writes_snoc, marked_write key _ c (inRange_writes key _ cs (inRange_take l)), ih,
      List.map_append, List.map_singleton, overlay_snoc]

theorem lastOf_map_mark (k : κ) (cs : List α) :
    lastOf (fun p : α × Bool => key p.1) k (cs.map fun e => (e, true)) =
      (lastOf key k cs).map fun e => (e, true) := by
  unfold lastOf
  rw [← List.map_reverse, List.find?_map]
  rfl

/-- **Only the last write of a key is a change of it**, whatever the snapshot held. -/
theorem entriesOf_changed_writes (k : κ) (l cs : List α) :
    entriesOf key k (writes key (Tracked.take l) cs).changed = (lastOf key k cs).toList := by
  have hm : entriesOf key k (writes key (Tracked.take l) cs).changed =
      ((entriesOf (fun p : α × Bool => key p.1) k (marked (writes key (Tracked.take l) cs))).filter
        Prod.snd).map Prod.fst := by
    rw [changed_eq]
    unfold entriesOf
    rw [List.filter_map, List.filter_filter, List.filter_filter]
    congr 2
    funext p
    exact Bool.and_comm _ _
  rw [hm, marked_writes, entriesOf_overlay, lastOf_map_mark]
  have hold : (entriesOf (fun p : α × Bool => key p.1) k (l.map fun e => (e, false))).tail.filter
      Prod.snd = [] := by
    rw [List.filter_eq_nil_iff]
    intro p hp
    have := ((mem_entriesOf _).mp (List.mem_of_mem_tail hp)).1
    obtain ⟨e, -, rfl⟩ := List.mem_map.mp this
    simp
  cases lastOf key k cs with
  | none =>
    have hold' : (entriesOf (fun p : α × Bool => key p.1) k (l.map fun e => (e, false))).filter
        Prod.snd = [] := by
      rw [List.filter_eq_nil_iff]
      intro p hp
      obtain ⟨e, -, rfl⟩ := List.mem_map.mp ((mem_entriesOf _).mp hp).1
      simp
    simp [hold']
  | some c => simp [hold]

/-- The last change of a key among the changed entries is the last write of it. -/
theorem lastOf_changed_writes (k : κ) (l cs : List α) :
    lastOf key k (writes key (Tracked.take l) cs).changed = lastOf key k cs := by
  have h := entriesOf_changed_writes key k l cs
  have hrev : ∀ xs : List α, lastOf key k xs = (entriesOf key k xs).getLast? := by
    intro xs
    unfold lastOf entriesOf
    rw [← List.head?_filter, List.filter_reverse, List.head?_reverse]
  rw [hrev, h]
  cases lastOf key k cs <;> rfl

end Overlay

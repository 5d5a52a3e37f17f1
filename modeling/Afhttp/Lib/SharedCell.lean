import Mathlib.Data.List.Range
import Mathlib.Data.List.Nodup
import Mathlib.Logic.Function.Basic

/-!
# Shared cells that are copied before they are written

Handles that point to cells.  A clone is one more handle on the same cell.  A handle writes to its
cell in place if no other handle points there (`Arc::get_mut`); otherwise it moves to a new cell
and the old one stays as it is.  What may be read off the cells is `π`; parts of a cell that
`π` does not show may be changed behind every handle (a `Mutex` in it).

Seen through `π` each handle has a value of its own:

    a clone has the value of the handle it was made from     (view_clone)
    writing through one handle leaves the others             (view_makeMut)
    so does a change that `π` does not show                  (view_modify)
-/

namespace SharedCell

variable {α β : Type*}

structure Store (α : Type*) where
  /-- The cell of a handle. -/
  cell : ℕ → Option ℕ
  nextHandle : ℕ
  content : ℕ → Option α
  nextCell : ℕ

namespace Store

def empty : Store α := ⟨fun _ => none, 0, fun _ => none, 0⟩

def get (s : Store α) (h : ℕ) : Option α := (s.cell h).bind s.content

def view (π : α → β) (s : Store α) (h : ℕ) : Option β := (s.get h).map π

/-- The handles that point to a cell. -/
def holders (s : Store α) (c : ℕ) : List ℕ := (List.range s.nextHandle).filter fun h => s.cell h = some c

def strongCount (s : Store α) (c : ℕ) : ℕ := (s.holders c).length

/-- A new cell and its first handle. -/
def new (s : Store α) (a : α) : Store α :=
  { cell := Function.update s.cell s.nextHandle (some s.nextCell)
    nextHandle := s.nextHandle + 1
    content := Function.update s.content s.nextCell (some a)
    nextCell := s.nextCell + 1 }

def clone (s : Store α) (h : ℕ) : Store α :=
  { s with cell := Function.update s.cell s.nextHandle (s.cell h), nextHandle := s.nextHandle + 1 }

def drop (s : Store α) (h : ℕ) : Store α := { s with cell := Function.update s.cell h none }

/-- A change of a cell behind its handles. -/
def modify (s : Store α) (c : ℕ) (f : α → α) : Store α :=
  { s with content := Function.update s.content c ((s.content c).map f) }

/-- The handle moves to a new cell. -/
def rebuild (s : Store α) (h : ℕ) (a : α) : Store α :=
  { s with
    cell := Function.update s.cell h (some s.nextCell)
    content := Function.update s.content s.nextCell (some a)
    nextCell := s.nextCell + 1 }

/-- `if let Some(inner) = Arc::get_mut(..)`: in place if the handle is the only one, else a new cell. -/
def makeMut (s : Store α) (h : ℕ) (inPlace copy : α → α) : Store α :=
  match s.cell h with
  | none => s
  | some c =>
    if s.strongCount c = 1 then s.modify c inPlace
    else
      match s.content c with
      | none => s
      | some a => s.rebuild h (copy a)

/-- Handles and cells are numbered in the order they come. -/
structure WellFormed (s : Store α) : Prop where
  handle_lt : ∀ h c, s.cell h = some c → h < s.nextHandle
  cell_lt : ∀ h c, s.cell h = some c → c < s.nextCell
  content : ∀ c, c < s.nextCell ↔ (s.content c).isSome

variable {s : Store α} {π : α → β}

theorem WellFormed.empty : WellFormed (Store.empty : Store α) :=
  ⟨fun _ _ h => (by cases h), fun _ _ h => (by cases h), fun _ => by simp [Store.empty]⟩

theorem WellFormed.get (w : s.WellFormed) {h c : ℕ} (hc : s.cell h = some c) :
    ∃ a, s.content c = some a ∧ s.get h = some a := by
  obtain ⟨a, ha⟩ := Option.isSome_iff_exists.mp ((w.content c).mp (w.cell_lt h c hc))
  refine ⟨a, ha, ?_⟩
  unfold Store.get
  rw [hc]
  exact ha

theorem WellFormed.fresh_handle (w : s.WellFormed) : s.cell s.nextHandle = none := by
  cases hc : s.cell s.nextHandle with
  | none => rfl
  | some c => exact absurd (w.handle_lt _ c hc) (lt_irrefl _)

theorem WellFormed.fresh_cell (w : s.WellFormed) {h c : ℕ} (hc : s.cell h = some c) : c ≠ s.nextCell :=
  Nat.ne_of_lt (w.cell_lt h c hc)

theorem WellFormed.mem_holders (w : s.WellFormed) {h c : ℕ} : h ∈ s.holders c ↔ s.cell h = some c := by
  unfold holders
  rw [List.mem_filter, List.mem_range, decide_eq_true_iff]
  exact ⟨fun hh => hh.2, fun hh => ⟨w.handle_lt h c hh, hh⟩⟩

/-- **The only holder.**  With a count of one no second handle points to the cell. -/
theorem WellFormed.eq_of_strongCount (w : s.WellFormed) {h h' c : ℕ} (h1 : s.strongCount c = 1)
    (hc : s.cell h = some c) (hc' : s.cell h' = some c) : h' = h := by
  obtain ⟨x, hx⟩ := List.length_eq_one_iff.mp h1
  have hh : h ∈ s.holders c := w.mem_holders.mpr hc
  have hh' : h' ∈ s.holders c := w.mem_holders.mpr hc'
  rw [hx, List.mem_singleton] at hh hh'
  rw [hh, hh']

/-! ## Well-formed stores stay so -/

theorem WellFormed.new (w : s.WellFormed) (a : α) : (s.new a).WellFormed := by
  constructor
  · intro h c hc
    show h < s.nextHandle + 1
    by_cases hh : h = s.nextHandle
    · omega
    · have hold : s.cell h = some c := (Function.update_of_ne hh _ s.cell).symm.trans hc
      exact Nat.lt_succ_of_lt (w.handle_lt h c hold)
  · intro h c hc
    show c < s.nextCell + 1
    by_cases hh : h = s.nextHandle
    · subst hh
      have hc' : some s.nextCell = some c := (Function.update_self s.nextHandle _ s.cell).symm.trans hc
      cases hc'
      exact Nat.lt_succ_self _
    · have hold : s.cell h = some c := (Function.update_of_ne hh _ s.cell).symm.trans hc
      exact Nat.lt_succ_of_lt (w.cell_lt h c hold)
  · intro c
    show c < s.nextCell + 1 ↔ (Function.update s.content s.nextCell (some a) c).isSome
    by_cases hcn : c = s.nextCell
    · subst hcn
      simp
    · rw [Function.update_of_ne hcn, ← w.content c]
      omega

theorem WellFormed.clone (w : s.WellFormed) (h : ℕ) : (s.clone h).WellFormed := by
  have hcase : ∀ h' c, (s.clone h).cell h' = some c →
      s.cell h' = some c ∨ (h' = s.nextHandle ∧ s.cell h = some c) := by
    intro h' c hc
    by_cases hh : h' = s.nextHandle
    · subst hh
      exact .inr ⟨rfl, (Function.update_self s.nextHandle _ s.cell).symm.trans hc⟩
    · exact .inl ((Function.update_of_ne hh _ s.cell).symm.trans hc)
  constructor
  · intro h' c hc
    show h' < s.nextHandle + 1
    rcases hcase h' c hc with hold | ⟨rfl, -⟩
    · exact Nat.lt_succ_of_lt (w.handle_lt h' c hold)
    · exact Nat.lt_succ_self _
  · intro h' c hc
    rcases hcase h' c hc with hold | ⟨-, hold⟩
    · exact w.cell_lt h' c hold
    · exact w.cell_lt h c hold
  · exact w.content

theorem cell_drop {h h' c : ℕ} (hc : (s.drop h).cell h' = some c) : h' ≠ h ∧ s.cell h' = some c := by
  by_cases hh : h' = h
  · subst hh
    have hn : (s.drop h').cell h' = none := Function.update_self ..
    rw [hn] at hc
    cases hc
  · exact ⟨hh, (Function.update_of_ne hh _ s.cell).symm.trans hc⟩

theorem WellFormed.drop (w : s.WellFormed) (h : ℕ) : (s.drop h).WellFormed :=
  ⟨fun h' c hc => w.handle_lt h' c (cell_drop hc).2, fun h' c hc => w.cell_lt h' c (cell_drop hc).2, w.content⟩

theorem WellFormed.modify (w : s.WellFormed) (c : ℕ) (f : α → α) : (s.modify c f).WellFormed := by
  refine ⟨w.handle_lt, w.cell_lt, fun c' => ?_⟩
  show c' < s.nextCell ↔ (Function.update s.content c ((s.content c).map f) c').isSome
  by_cases hcc : c' = c
  · subst hcc
    rw [Function.update_self, Option.isSome_map]
    exact w.content c'
  · rw [Function.update_of_ne hcc]
    exact w.content c'

theorem WellFormed.rebuild (w : s.WellFormed) {h c : ℕ} (hc : s.cell h = some c) (a : α) :
    (s.rebuild h a).WellFormed := by
  constructor
  · intro h' c' hc'
    show h' < s.nextHandle
    by_cases hh : h' = h
    · rw [hh]
      exact w.handle_lt h c hc
    · exact w.handle_lt h' c' ((Function.update_of_ne hh _ s.cell).symm.trans hc')
  · intro h' c' hc'
    show c' < s.nextCell + 1
    by_cases hh : h' = h
    · subst hh
      have hn : some s.nextCell = some c' := (Function.update_self h' _ s.cell).symm.trans hc'
      cases hn
      exact Nat.lt_succ_self _
    · exact Nat.lt_succ_of_lt (w.cell_lt h' c' ((Function.update_of_ne hh _ s.cell).symm.trans hc'))
  · intro c'
    show c' < s.nextCell + 1 ↔ (Function.update s.content s.nextCell (some a) c').isSome
    by_cases hcn : c' = s.nextCell
    · subst hcn
      simp
    · rw [Function.update_of_ne hcn, ← w.content c']
      omega

/-- What `makeMut` does to a handle: its cell is written, or it moves to a copy. -/
theorem WellFormed.makeMut_cases (w : s.WellFormed) {h c : ℕ} (hc : s.cell h = some c) (inPlace copy : α → α) :
    (s.strongCount c = 1 ∧ s.makeMut h inPlace copy = s.modify c inPlace) ∨
      ∃ a, s.content c = some a ∧ s.strongCount c ≠ 1 ∧ s.makeMut h inPlace copy = s.rebuild h (copy a) := by
  obtain ⟨a, ha, -⟩ := w.get hc
  unfold makeMut
  simp only [hc, ha]
  by_cases h1 : s.strongCount c = 1
  · exact .inl ⟨h1, if_pos h1⟩
  · exact .inr ⟨a, rfl, h1, if_neg h1⟩

theorem WellFormed.makeMut (w : s.WellFormed) {h c : ℕ} (hc : s.cell h = some c) (inPlace copy : α → α) :
    (s.makeMut h inPlace copy).WellFormed := by
  rcases w.makeMut_cases hc inPlace copy with ⟨-, e⟩ | ⟨a, -, -, e⟩
  · rw [e]
    exact w.modify c inPlace
  · rw [e]
    exact w.rebuild hc (copy a)

/-! ## Values -/

theorem WellFormed.content_new (w : s.WellFormed) {h c : ℕ} (hc : s.cell h = some c) (a : α) :
    Function.update s.content s.nextCell (some a) c = s.content c :=
  Function.update_of_ne (w.fresh_cell hc) ..

theorem view_new (w : s.WellFormed) (a : α) (h' : ℕ) :
    (s.new a).view π h' = Function.update (s.view π) s.nextHandle (some (π a)) h' := by
  by_cases hh : h' = s.nextHandle
  · subst hh
    rw [Function.update_self]
    show (((Function.update s.cell s.nextHandle (some s.nextCell)) s.nextHandle).bind
      (Function.update s.content s.nextCell (some a))).map π = _
    rw [Function.update_self, Option.bind_some, Function.update_self, Option.map_some]
  · rw [Function.update_of_ne hh]
    show (((Function.update s.cell s.nextHandle (some s.nextCell)) h').bind
      (Function.update s.content s.nextCell (some a))).map π = ((s.cell h').bind s.content).map π
    rw [Function.update_of_ne hh]
    cases hc : s.cell h' with
    | none => rfl
    | some c => rw [Option.bind_some, Option.bind_some, w.content_new hc]

theorem view_clone (h h' : ℕ) :
    (s.clone h).view π h' = Function.update (s.view π) s.nextHandle (s.view π h) h' := by
  by_cases hh : h' = s.nextHandle
  · subst hh
    rw [Function.update_self]
    show (((Function.update s.cell s.nextHandle (s.cell h)) s.nextHandle).bind s.content).map π = _
    rw [Function.update_self]
    rfl
  · rw [Function.update_of_ne hh]
    show (((Function.update s.cell s.nextHandle (s.cell h)) h').bind s.content).map π = _
    rw [Function.update_of_ne hh]
    rfl

theorem view_drop (h h' : ℕ) : (s.drop h).view π h' = Function.update (s.view π) h none h' := by
  by_cases hh : h' = h
  · subst hh
    rw [Function.update_self]
    show (((Function.update s.cell h' none) h').bind s.content).map π = _
    rw [Function.update_self]
    rfl
  · rw [Function.update_of_ne hh]
    show (((Function.update s.cell h none) h').bind s.content).map π = _
    rw [Function.update_of_ne hh]
    rfl

/-- **Changes that do not show.** -/
theorem view_modify {f : α → α} (hf : ∀ a, π (f a) = π a) (c h : ℕ) : (s.modify c f).view π h = s.view π h := by
  show ((s.cell h).bind (Function.update s.content c ((s.content c).map f))).map π =
    ((s.cell h).bind s.content).map π
  cases s.cell h with
  | none => rfl
  | some d =>
    rw [Option.bind_some, Option.bind_some]
    by_cases hd : d = c
    · subst hd
      rw [Function.update_self, Option.map_map]
      cases s.content d with
      | none => rfl
      | some a => exact congrArg some (hf a)
    · rw [Function.update_of_ne hd]

theorem nextHandle_makeMut (h : ℕ) {inPlace copy : α → α} :
    (s.makeMut h inPlace copy).nextHandle = s.nextHandle := by
  unfold makeMut
  cases s.cell h with
  | none => rfl
  | some c =>
    refine iteInduction (motive := fun r : Store α => r.nextHandle = s.nextHandle) (fun _ => rfl) fun _ => ?_
    cases s.content c with
    | none => rfl
    | some a => rfl

/-- **A handle's value is its own.**  Written in place or to a copy, only this handle's value changes. -/
theorem view_makeMut (w : s.WellFormed) {h c : ℕ} (hc : s.cell h = some c) {inPlace copy : α → α} {u : β → β}
    (hin : ∀ a, π (inPlace a) = u (π a)) (hcopy : ∀ a, π (copy a) = u (π a)) (h' : ℕ) :
    (s.makeMut h inPlace copy).view π h' = Function.update (s.view π) h ((s.view π h).map u) h' := by
  obtain ⟨a, ha, hget⟩ := w.get hc
  have hv : s.view π h = some (π a) := by unfold view; rw [hget]; rfl
  rw [hv, Option.map_some]
  rcases w.makeMut_cases hc inPlace copy with ⟨h1, e⟩ | ⟨b, hb, -, e⟩
  · rw [e]
    show ((s.cell h').bind (Function.update s.content c ((s.content c).map inPlace))).map π = _
    by_cases hh : h' = h
    · subst hh
      rw [Function.update_self, hc, Option.bind_some, Function.update_self, ha]
      exact congrArg some (hin a)
    · rw [Function.update_of_ne hh]
      show _ = ((s.cell h').bind s.content).map π
      cases hd : s.cell h' with
      | none => rfl
      | some d =>
        have hne : d ≠ c := by
          rintro rfl
          exact hh (w.eq_of_strongCount h1 hc hd)
        rw [Option.bind_some, Option.bind_some, Function.update_of_ne hne]
  · rw [ha] at hb
    cases hb
    rw [e]
    show ((Function.update s.cell h (some s.nextCell) h').bind
      (Function.update s.content s.nextCell (some (copy a)))).map π = _
    by_cases hh : h' = h
    · subst hh
      rw [Function.update_self, Function.update_self, Option.bind_some, Function.update_self]
      exact congrArg some (hcopy a)
    · rw [Function.update_of_ne hh, Function.update_of_ne hh]
      show _ = ((s.cell h').bind s.content).map π
      cases hd : s.cell h' with
      | none => rfl
      | some d => rw [Option.bind_some, Option.bind_some, w.content_new hd]

end Store

end SharedCell

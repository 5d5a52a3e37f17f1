import Mathlib
import Afhttp.Shared.Json

/-!
# Places in a JSON value

A place is a path of keys and indices.  What stands there, apart from what is below it, is its head:
a scalar, the length of an array or the keys of an object.  A rewriting of strings changes no head
but that of a string (`Rewrites`).

    rewritings compose                                             (Rewrites.trans)
    the strings at the places of a pattern                         (rewrites_mapAt)
-/

namespace Afhttp.Json

inductive PathStep where
  | key (name : String)
  | index (i : ℕ)
  deriving DecidableEq

/-- `value[key]` or `value[i]`, if there is one. -/
def child : PathStep → Json → Option Json
  | .key name, v => v.get name
  | .index i, .arr values => values[i]?
  | .index _, _ => none

/-- What stands at the place. -/
def atPath : List PathStep → Json → Option Json
  | [], v => some v
  | step :: path, v => (v.child step).bind (atPath path)

/-- A value without what is below it. -/
inductive Head where
  | null
  | bool (b : Bool)
  | posInt (n : ℕ)
  | negInt (n : Int)
  | float (text : String)
  | str (s : String)
  | arr (length : ℕ)
  | obj (keys : Finset String)

def head : Json → Head
  | .null => .null
  | .bool b => .bool b
  | .posInt n => .posInt n
  | .negInt n => .negInt n
  | .float text => .float text
  | .str s => .str s
  | .arr values => .arr values.length
  | .obj fields => .obj (fields.map Prod.fst).toFinset

def Head.mapStr (f : String → String) : Head → Head
  | .str s => .str (f s)
  | h => h

/-- `v'` is `v` with the string at each place rewritten, and nothing else changed. -/
def Rewrites (f : List PathStep → String → String) (v v' : Json) : Prop :=
  ∀ path, (v'.atPath path).map head = (v.atPath path).map fun x => x.head.mapStr (f path)

/-! ## Rewritings -/

@[simp] theorem Head.mapStr_id (h : Head) : h.mapStr id = h := by
  cases h <;> rfl

@[simp] theorem Head.mapStr_mapStr (f g : String → String) (h : Head) :
    (h.mapStr f).mapStr g = h.mapStr (g ∘ f) := by
  cases h <;> rfl

variable {f g : List PathStep → String → String} {v v' v'' : Json}

theorem Rewrites.trans (h : Rewrites f v v') (h' : Rewrites g v' v'') :
    Rewrites (fun path => g path ∘ f path) v v'' := by
  intro path
  have hmap : (v'.atPath path).map (fun x => x.head.mapStr (g path)) =
      ((v'.atPath path).map head).map fun x => x.mapStr (g path) := by
    rw [Option.map_map]
    rfl
  rw [h' path, hmap, h path, Option.map_map]
  congr 1
  funext x
  exact Head.mapStr_mapStr _ _ _

theorem Rewrites.congr (h : Rewrites f v v') (hfg : ∀ path x, v.atPath path = some x → f path = g path) :
    Rewrites g v v' := by
  intro path
  rw [h path]
  cases hx : v.atPath path with
  | none => rfl
  | some x => rw [Option.map_some, Option.map_some, hfg path x hx]

theorem Rewrites.refl (v : Json) : Rewrites (fun _ => id) v v := by
  intro path
  congr 1
  funext x
  exact (Head.mapStr_id _).symm

/-- A value is rewritten if its head is, and its children are. -/
theorem rewrites_of_children (hhead : v'.head = v.head.mapStr (f []))
    (hchild : ∀ step, (v.child step = none ∧ v'.child step = none) ∨
      ∃ x x', v.child step = some x ∧ v'.child step = some x' ∧ Rewrites (fun path => f (step :: path)) x x') :
    Rewrites f v v' := by
  intro path
  cases path with
  | nil => exact congrArg some hhead
  | cons step path =>
    rcases hchild step with ⟨hv, hv'⟩ | ⟨x, x', hv, hv', hrewrites⟩
    · show ((v'.child step).bind (atPath path)).map head = ((v.child step).bind (atPath path)).map _
      rw [hv, hv']
      rfl
    · show ((v'.child step).bind (atPath path)).map head = ((v.child step).bind (atPath path)).map _
      rw [hv, hv', Option.bind_some, Option.bind_some]
      exact hrewrites path

/-- Two strings with the same text. -/
theorem Rewrites.asStr (h : Rewrites f v v') {path : List PathStep} (hf : f path = id) :
    (v'.atPath path).bind asStr = (v.atPath path).bind asStr := by
  have hread : ∀ x : Json, x.asStr = match x.head with
      | .str s => some s
      | _ => none := fun x => by cases x <;> rfl
  have hheads : (v'.atPath path).map head = (v.atPath path).map head := by
    rw [h path, hf]
    congr 1
    funext x
    exact Head.mapStr_id _
  cases hx' : v'.atPath path with
  | none =>
    rw [hx', Option.map_none, eq_comm, Option.map_eq_none_iff] at hheads
    rw [hheads]
  | some x' =>
    rw [hx', Option.map_some, eq_comm, Option.map_eq_some_iff] at hheads
    obtain ⟨x, hx, hhead⟩ := hheads
    rw [hx, Option.bind_some, Option.bind_some, hread, hread, hhead]

/-! ## The strings at a pattern -/

/-- `if let Some(Value::String(s)) = ..`. -/
def mapStr (f : String → String) : Json → Json
  | .str s => .str (f s)
  | v => v

/-- `get_mut` with a key. -/
def modifyField (name : String) (f : Json → Json) : Json → Json
  | .obj fields => .obj (fields.map fun field => if field.1 = name then (field.1, f field.2) else field)
  | v => v

/-- Over the members of `as_array_mut`. -/
def mapMembers (f : Json → Json) : Json → Json
  | .arr values => .arr (values.map f)
  | v => v

/-- A step of a pattern: a key, or each member of an array. -/
inductive PatternStep where
  | key (name : String)
  | each

/-- The strings at the places of the pattern. -/
def mapAt (f : String → String) : List PatternStep → Json → Json
  | [], v => v.mapStr f
  | .key name :: pattern, v => v.modifyField name (mapAt f pattern)
  | .each :: pattern, v => v.mapMembers (mapAt f pattern)

/-- The path is a place of the pattern. -/
def matchesPattern : List PatternStep → List PathStep → Bool
  | [], [] => true
  | .key name :: pattern, .key name' :: path => decide (name = name') && matchesPattern pattern path
  | .each :: pattern, .index _ :: path => matchesPattern pattern path
  | _, _ => false

theorem lookup_map_snd {α β : Type} (g : String → α → β) (fields : List (String × α)) (name : String) :
    (fields.map fun field => (field.1, g field.1 field.2)).lookup name = (fields.lookup name).map (g name) := by
  induction fields with
  | nil => rfl
  | cons field fields ih =>
    obtain ⟨k, x⟩ := field
    rw [List.map_cons, List.lookup_cons, List.lookup_cons]
    by_cases hk : name = k
    · rw [hk, beq_self_eq_true]
      rfl
    · rw [beq_false_of_ne hk]
      exact ih

theorem rewrites_mapStr (f : String → String) (v : Json) :
    Rewrites (fun path => if path = [] then f else id) v (v.mapStr f) := by
  refine rewrites_of_children ?_ fun step => ?_
  · cases v <;> rfl
  · have hsame : (v.mapStr f).child step = v.child step := by
      cases v <;> cases step <;> rfl
    rw [hsame]
    cases hx : v.child step with
    | none => exact Or.inl ⟨rfl, rfl⟩
    | some x =>
      refine Or.inr ⟨x, x, rfl, rfl, (Rewrites.refl x).congr fun path y _ => ?_⟩
      rw [if_neg (List.cons_ne_nil step path)]

/-- A rewriting below a key. -/
def underKey (name : String) (f : List PathStep → String → String) : List PathStep → String → String
  | .key name' :: path => if name = name' then f path else id
  | _ => id

/-- A rewriting below each index. -/
def underEach (f : List PathStep → String → String) : List PathStep → String → String
  | .index _ :: path => f path
  | _ => id

/-- A field is rewritten, and the others are left. -/
theorem rewrites_modifyField {name : String} {m : Json → Json} (hm : ∀ x, Rewrites f x (m x)) (v : Json) :
    Rewrites (underKey name f) v (v.modifyField name m) := by
  cases v with
  | obj fields =>
    have hfields : (fields.map fun field => if field.1 = name then (field.1, m field.2) else field) =
        fields.map fun field => (field.1, if name = field.1 then m field.2 else field.2) := by
      refine List.map_congr_left fun field _ => ?_
      by_cases hk : field.1 = name
      · rw [if_pos hk, if_pos hk.symm]
      · rw [if_neg hk, if_neg fun hk' => hk hk'.symm]
    refine rewrites_of_children ?_ fun step => ?_
    · show Head.obj _ = Head.obj _
      rw [hfields, List.map_map]
      rfl
    · cases step with
      | index i => exact Or.inl ⟨rfl, rfl⟩
      | key name' =>
        have hget : (Json.obj (fields.map fun field =>
            if field.1 = name then (field.1, m field.2) else field)).child (.key name') =
              (fields.lookup name').map fun x => if name = name' then m x else x := by
          show (fields.map _).lookup name' = _
          rw [hfields]
          exact lookup_map_snd (fun k x => if name = k then m x else x) fields name'
        rw [modifyField, hget]
        show (fields.lookup name' = none ∧ _) ∨ ∃ x x', fields.lookup name' = some x ∧ _
        cases hx : fields.lookup name' with
        | none => exact Or.inl ⟨rfl, rfl⟩
        | some x =>
          refine Or.inr ⟨x, _, rfl, rfl, ?_⟩
          by_cases hk : name = name'
          · simp only [underKey, if_pos hk]
            exact hm x
          · simp only [underKey, if_neg hk]
            exact Rewrites.refl x
  | _ =>
    refine (Rewrites.refl _).congr fun path x hx => ?_
    cases path with
    | nil => rfl
    | cons step path =>
      cases step with
      | key name' => cases hx
      | index i => rfl

/-- Each member is rewritten. -/
theorem rewrites_mapMembers {m : Json → Json} (hm : ∀ x, Rewrites f x (m x)) (v : Json) :
    Rewrites (underEach f) v (v.mapMembers m) := by
  cases v with
  | arr values =>
    refine rewrites_of_children ?_ fun step => ?_
    · show Head.arr _ = Head.arr _
      rw [List.length_map]
    · cases step with
      | key name => exact Or.inl ⟨rfl, rfl⟩
      | index i =>
        show (values[i]? = none ∧ (values.map m)[i]? = none) ∨
          ∃ x x', values[i]? = some x ∧ (values.map m)[i]? = some x' ∧ _
        rw [List.getElem?_map]
        cases hx : values[i]? with
        | none => exact Or.inl ⟨rfl, rfl⟩
        | some x => exact Or.inr ⟨x, m x, rfl, rfl, hm x⟩
  | _ =>
    refine (Rewrites.refl _).congr fun path x hx => ?_
    cases path with
    | nil => rfl
    | cons step path =>
      cases step with
      | key name' => rfl
      | index i => cases hx

/-- **The strings at a pattern**, and no others. -/
theorem rewrites_mapAt (f : String → String) (pattern : List PatternStep) (v : Json) :
    Rewrites (fun path => if matchesPattern pattern path then f else id) v (v.mapAt f pattern) := by
  induction pattern generalizing v with
  | nil =>
    refine (rewrites_mapStr f v).congr fun path _ _ => ?_
    cases path <;> rfl
  | cons step pattern ih =>
    cases step with
    | key name =>
      refine (rewrites_modifyField ih v).congr fun path _ _ => ?_
      cases path with
      | nil => rfl
      | cons s path =>
        cases s with
        | index i => rfl
        | key name' =>
          show (if name = name' then _ else _) =
            if (decide (name = name') && matchesPattern pattern path) then f else id
          by_cases hk : name = name'
          · rw [if_pos hk, decide_eq_true hk, Bool.true_and]
          · rw [if_neg hk, decide_eq_false hk]
            rfl
    | each =>
      refine (rewrites_mapMembers ih v).congr fun path _ _ => ?_
      cases path with
      | nil => rfl
      | cons s path =>
        cases s <;> rfl

end Afhttp.Json

import Mathlib
import Afhttp.Shared.JsonPath
import Afhttp.Shared.Text

/-!
# URLs in an emitted payload

`redact_url_fields` of `shared/redact.rs`.  What the Data crate makes of one URL, and of the URLs in
a piece of prose, are two functions on strings.  Against the three walks over the payload stands
`redactorAt`: which of the two, if any, is for the string at a place.

    the walk over the fields whose name is a URL's      (rewrites_inPlace)
    the places of afhttp's own envelope                 (rewrites_prose)
    a captured answer lifted out and put back           (rewrites_raw)
    each string by the function for its place           (redactUrlFields_rewrites)
-/

namespace Afhttp.Redact

open Json

/-! ## The walks -/

def isUrlName (name : String) : Bool := Text.endsWith name "_url" || Text.endsWith name "_URL"

/-- One field of an object, with what the walk makes of its value. -/
def redactField (redactUrl : String → String) (name : String) (walked : Json) : Json → Json
  | .str url => if isUrlName name then .str (redactUrl url) else walked
  | _ => walked

mutual

def redactUrlFieldsInPlace (redactUrl : String → String) : Json → Json
  | .obj fields => .obj (redactFields redactUrl fields)
  | .arr values => .arr (redactValues redactUrl values)
  | .null => .null
  | .bool b => .bool b
  | .posInt n => .posInt n
  | .negInt n => .negInt n
  | .float text => .float text
  | .str s => .str s

def redactFields (redactUrl : String → String) : List (String × Json) → List (String × Json)
  | [] => []
  | (name, value) :: rest =>
    (name, redactField redactUrl name (redactUrlFieldsInPlace redactUrl value) value) ::
      redactFields redactUrl rest

def redactValues (redactUrl : String → String) : List Json → List Json
  | [] => []
  | value :: rest => redactUrlFieldsInPlace redactUrl value :: redactValues redactUrl rest

end

/-- `value.get("code").and_then(|code| code.as_str())`. -/
def code (value : Json) : Option String := (value.get "code").bind asStr

def warningDetail : List PatternStep := [.key "warnings", .each, .key "detail"]

def recommendedCommand : List PatternStep := [.key "next_action", .key "recommended_command"]

def targetUrl : List PatternStep := [.key "targets", .each, .key "url"]

def redactEnvelopeProse (redactUrl redactUrlsInText : String → String) (value : Json) : Json :=
  let value := value.mapAt redactUrlsInText warningDetail
  let value := value.mapAt redactUrlsInText recommendedCommand
  if code value = some "tabs" then value.mapAt redactUrl targetUrl else value

/-- `Map::remove`. -/
def removeField (name : String) (fields : List (String × Json)) : List (String × Json) :=
  fields.filter fun field => decide (field.1 ≠ name)

/-- `Map::insert`; the entries are listed by key. -/
def insertField (name : String) (value : Json) : List (String × Json) → List (String × Json)
  | [] => [(name, value)]
  | (k, x) :: rest =>
    if name < k then (name, value) :: (k, x) :: rest
    else if name = k then (name, value) :: rest
    else (k, x) :: insertField name value rest

/-- The `result` of a `cdp` event, and the event without it. -/
def takeRawCapture (value : Json) : Option (Json × Json) :=
  if code value ≠ some "cdp" then none
  else
    match value with
    | .obj fields => (fields.lookup "result").map fun raw => (raw, .obj (removeField "result" fields))
    | _ => none

/-- `fields.insert("result".into(), raw)`, where the value is an object. -/
def putBack (raw : Json) : Json → Json
  | .obj fields => .obj (insertField "result" raw fields)
  | v => v

def redactUrlFields (redactUrl redactUrlsInText : String → String) (value : Json) : Json :=
  match takeRawCapture value with
  | some (raw, value) =>
    putBack raw (redactEnvelopeProse redactUrl redactUrlsInText (redactUrlFieldsInPlace redactUrl value))
  | none => redactEnvelopeProse redactUrl redactUrlsInText (redactUrlFieldsInPlace redactUrl value)

/-! ## Which function is for which place -/

/-- The last step is a key with a URL's name. -/
def urlNamed (path : List PathStep) : Bool :=
  match path.getLast? with
  | some (.key name) => isUrlName name
  | _ => false

/-- In the browser's own answer to a `cdp` command. -/
def inRawCapture (code : Option String) (path : List PathStep) : Bool :=
  decide (code = some "cdp") && decide (path.head? = some (.key "result"))

def urlPlace (code : Option String) (path : List PathStep) : Bool :=
  urlNamed path || (decide (code = some "tabs") && matchesPattern targetUrl path)

def prosePlace (path : List PathStep) : Bool :=
  matchesPattern warningDetail path || matchesPattern recommendedCommand path

/-- The function for the string at the place. -/
def redactorAt (redactUrl redactUrlsInText : String → String) (code : Option String) (path : List PathStep) :
    String → String :=
  if inRawCapture code path then id
  else if urlPlace code path then redactUrl
  else if prosePlace path then redactUrlsInText
  else id

/-! ## The walk over the fields -/

variable {redactUrl redactUrlsInText : String → String}

theorem redactFields_eq_map (fields : List (String × Json)) :
    redactFields redactUrl fields =
      fields.map fun field =>
        (field.1, redactField redactUrl field.1 (redactUrlFieldsInPlace redactUrl field.2) field.2) := by
  induction fields with
  | nil => rfl
  | cons field fields ih => rw [redactFields, ih, List.map_cons]

theorem redactValues_eq_map (values : List Json) :
    redactValues redactUrl values = values.map (redactUrlFieldsInPlace redactUrl) := by
  induction values with
  | nil => rfl
  | cons value values ih => rw [redactValues, ih, List.map_cons]

@[simp] theorem head_inPlace (v : Json) : (redactUrlFieldsInPlace redactUrl v).head = v.head := by
  cases v with
  | obj fields =>
    rw [redactUrlFieldsInPlace, redactFields_eq_map]
    show Head.obj _ = Head.obj _
    rw [List.map_map]
    rfl
  | arr values =>
    rw [redactUrlFieldsInPlace, redactValues_eq_map]
    show Head.arr _ = Head.arr _
    rw [List.length_map]
  | _ => rw [redactUrlFieldsInPlace]

theorem child_key_inPlace (name : String) (v : Json) :
    (redactUrlFieldsInPlace redactUrl v).child (.key name) =
      (v.child (.key name)).map fun x => redactField redactUrl name (redactUrlFieldsInPlace redactUrl x) x := by
  cases v with
  | obj fields =>
    rw [redactUrlFieldsInPlace, redactFields_eq_map]
    exact lookup_map_snd (fun k x => redactField redactUrl k (redactUrlFieldsInPlace redactUrl x) x) fields name
  | _ => rw [redactUrlFieldsInPlace]; rfl

theorem child_index_inPlace (i : ℕ) (v : Json) :
    (redactUrlFieldsInPlace redactUrl v).child (.index i) =
      (v.child (.index i)).map (redactUrlFieldsInPlace redactUrl) := by
  cases v with
  | arr values =>
    rw [redactUrlFieldsInPlace, redactValues_eq_map]
    exact List.getElem?_map
  | _ => rw [redactUrlFieldsInPlace]; rfl

theorem urlNamed_cons (step step' : PathStep) (path : List PathStep) :
    urlNamed (step :: step' :: path) = urlNamed (step' :: path) := by
  rw [urlNamed, urlNamed, List.getLast?_cons_cons]

/-- **The fields with a URL's name**, and no others. -/
theorem rewrites_inPlace (v : Json) :
    Rewrites (fun path => if urlNamed path then redactUrl else id) v (redactUrlFieldsInPlace redactUrl v) := by
  intro path
  induction path generalizing v with
  | nil =>
    show some _ = some (v.head.mapStr (if urlNamed [] = true then redactUrl else id))
    rw [head_inPlace, if_neg (by decide), Head.mapStr_id]
  | cons step path ih =>
    -- below a step, what the walk makes of the child is judged by the rest of the path
    have hbelow : ∀ x : Json, (∀ url, x = .str url → path = [] → urlNamed [step] = false) →
        ((redactUrlFieldsInPlace redactUrl x).atPath path).map head =
          (x.atPath path).map fun y => y.head.mapStr (if urlNamed (step :: path) then redactUrl else id) := by
      intro x hx
      rw [ih x]
      cases path with
      | cons step' path => rw [urlNamed_cons]
      | nil =>
        show some _ = some _
        by_cases hstr : ∃ url, x = .str url
        · obtain ⟨url, rfl⟩ := hstr
          rw [hx url rfl rfl]
          rfl
        · congr 1
          cases x with
          | str url => exact absurd ⟨url, rfl⟩ hstr
          | _ => rfl
    show ((child step _).bind (atPath path)).map head = ((child step v).bind (atPath path)).map _
    cases step with
    | index i =>
      rw [child_index_inPlace]
      cases hx : v.child (.index i) with
      | none => rfl
      | some x => exact hbelow x fun _ _ _ => rfl
    | key name =>
      rw [child_key_inPlace]
      cases hx : v.child (.key name) with
      | none => rfl
      | some x =>
        show ((redactField redactUrl name (redactUrlFieldsInPlace redactUrl x) x).atPath path).map head = _
        by_cases hurl : ∃ url, x = .str url ∧ isUrlName name = true
        · obtain ⟨url, rfl, hname⟩ := hurl
          rw [redactField, if_pos hname]
          cases path with
          | cons step' path => cases step' <;> rfl
          | nil =>
            have hnamed : urlNamed [.key name] = true := hname
            show some (Head.str _) =
              some (Head.mapStr (if urlNamed [.key name] = true then redactUrl else id) (.str url))
            rw [if_pos hnamed]
            rfl
        · have hwalked : redactField redactUrl name (redactUrlFieldsInPlace redactUrl x) x =
              redactUrlFieldsInPlace redactUrl x := by
            cases x with
            | str url => rw [redactField, if_neg fun hname => hurl ⟨url, rfl, hname⟩]
            | _ => rfl
          rw [hwalked]
          refine hbelow x fun url hx _ => ?_
          exact Bool.eq_false_iff.mpr fun hname => hurl ⟨url, hx, hname⟩

/-! ## The envelope -/

theorem matches_warningDetail {path : List PathStep} (h : matchesPattern warningDetail path = true) :
    ∃ i, path = [.key "warnings", .index i, .key "detail"] := by
  unfold warningDetail at h
  rcases path with _ | ⟨_ | i, _ | ⟨_ | j, _ | ⟨_ | k, _ | ⟨s, path⟩⟩⟩⟩ <;> simp [matchesPattern] at h ⊢
  exact ⟨h.1.symm, h.2.symm⟩

theorem matches_recommendedCommand {path : List PathStep} (h : matchesPattern recommendedCommand path = true) :
    path = [.key "next_action", .key "recommended_command"] := by
  unfold recommendedCommand at h
  rcases path with _ | ⟨_ | i, _ | ⟨_ | j, _ | ⟨s, path⟩⟩⟩ <;> simp [matchesPattern] at h ⊢
  exact ⟨h.1.symm, h.2.symm⟩

theorem matches_targetUrl {path : List PathStep} (h : matchesPattern targetUrl path = true) :
    ∃ i, path = [.key "targets", .index i, .key "url"] := by
  unfold targetUrl at h
  rcases path with _ | ⟨_ | i, _ | ⟨_ | j, _ | ⟨_ | k, _ | ⟨s, path⟩⟩⟩⟩ <;> simp [matchesPattern] at h ⊢
  exact ⟨h.1.symm, h.2.symm⟩

theorem code_eq_of_rewrites {f : List PathStep → String → String} {v v' : Json} (h : Rewrites f v v')
    (hf : f [.key "code"] = id) : code v' = code v := by
  have hread : ∀ x : Json, code x = (x.atPath [.key "code"]).bind asStr := by
    intro x
    show (x.get "code").bind asStr = ((x.get "code").bind some).bind asStr
    rw [Option.bind_fun_some]
  rw [hread, hread]
  exact h.asStr hf

/-- **Both walks over a payload**: each place by one function at most. -/
theorem rewrites_prose (v : Json) :
    Rewrites (fun path =>
        if urlPlace (code v) path then redactUrl else if prosePlace path then redactUrlsInText else id)
      v (redactEnvelopeProse redactUrl redactUrlsInText (redactUrlFieldsInPlace redactUrl v)) := by
  have hnamed := @rewrites_inPlace redactUrl v
  have hwarnings := hnamed.trans (rewrites_mapAt redactUrlsInText warningDetail _)
  have hcommand := hwarnings.trans (rewrites_mapAt redactUrlsInText recommendedCommand _)
  have hcode := code_eq_of_rewrites hcommand (by funext s; rfl)
  unfold redactEnvelopeProse
  dsimp only
  rw [hcode]
  by_cases htabs : code v = some "tabs"
  · rw [if_pos htabs, htabs]
    refine (hcommand.trans (rewrites_mapAt redactUrl targetUrl _)).congr fun path _ _ => ?_
    by_cases hw : matchesPattern warningDetail path = true
    · obtain ⟨i, rfl⟩ := matches_warningDetail hw
      rfl
    by_cases hc : matchesPattern recommendedCommand path = true
    · rw [matches_recommendedCommand hc]
      rfl
    by_cases ht : matchesPattern targetUrl path = true
    · obtain ⟨i, rfl⟩ := matches_targetUrl ht
      rfl
    · rw [Bool.not_eq_true] at hw hc ht
      simp only [urlPlace, prosePlace, hw, hc, ht, Bool.and_false, Bool.or_false]
      rfl
  · rw [if_neg htabs]
    refine hcommand.congr fun path _ _ => ?_
    have hplace : urlPlace (code v) path = urlNamed path := by
      rw [urlPlace, decide_eq_false htabs, Bool.false_and, Bool.or_false]
    rw [hplace]
    by_cases hw : matchesPattern warningDetail path = true
    · obtain ⟨i, rfl⟩ := matches_warningDetail hw
      rfl
    by_cases hc : matchesPattern recommendedCommand path = true
    · rw [matches_recommendedCommand hc]
      rfl
    · rw [Bool.not_eq_true] at hw hc
      simp only [prosePlace, hw, hc, Bool.or_false]
      rfl

/-! ## A captured answer -/

theorem lookup_removeField (name k : String) (fields : List (String × Json)) :
    (removeField name fields).lookup k = if name = k then none else fields.lookup k := by
  induction fields with
  | nil => exact (ite_self none).symm
  | cons field fields ih =>
    obtain ⟨k', x⟩ := field
    rw [removeField, List.filter_cons]
    by_cases hk' : k' = name
    · rw [if_neg (by simp [hk']), ← removeField, ih, List.lookup_cons]
      by_cases hk : name = k
      · rw [if_pos hk, if_pos hk]
      · rw [if_neg hk, if_neg hk, hk', beq_false_of_ne (Ne.symm hk)]
    · rw [if_pos (by simp [hk']), List.lookup_cons, List.lookup_cons, ← removeField, ih]
      by_cases hk : k = k'
      · subst hk
        simp only [beq_self_eq_true, if_neg (Ne.symm hk')]
      · rw [beq_false_of_ne hk]

theorem lookup_insertField (name k : String) (value : Json) (fields : List (String × Json)) :
    (insertField name value fields).lookup k = if name = k then some value else fields.lookup k := by
  induction fields with
  | nil =>
    rw [insertField, List.lookup_cons]
    by_cases hk : name = k
    · rw [hk, beq_self_eq_true, if_pos rfl]
    · rw [beq_false_of_ne (Ne.symm hk), if_neg hk]
  | cons field fields ih =>
    obtain ⟨k', x⟩ := field
    rw [insertField]
    by_cases hk : name = k
    · subst hk
      rw [if_pos rfl]
      by_cases hlt : name < k'
      · rw [if_pos hlt, List.lookup_cons, beq_self_eq_true]
      by_cases heq : name = k'
      · rw [if_neg hlt, if_pos heq, List.lookup_cons, beq_self_eq_true]
      · rw [if_neg hlt, if_neg heq, List.lookup_cons, beq_false_of_ne heq, ih, if_pos rfl]
    · rw [if_neg hk]
      rw [if_neg hk] at ih
      by_cases hlt : name < k'
      · rw [if_pos hlt, List.lookup_cons, beq_false_of_ne (Ne.symm hk)]
      by_cases heq : name = k'
      · subst heq
        rw [if_neg hlt, if_pos rfl, List.lookup_cons, List.lookup_cons, beq_false_of_ne (Ne.symm hk)]
      · rw [if_neg hlt, if_neg heq, List.lookup_cons, List.lookup_cons, ih]

theorem keys_removeField (name : String) (fields : List (String × Json)) :
    ((removeField name fields).map Prod.fst).toFinset = (fields.map Prod.fst).toFinset.erase name := by
  ext k
  simp only [removeField, List.mem_toFinset, List.mem_map, List.mem_filter, decide_eq_true_eq, Finset.mem_erase]
  constructor
  · rintro ⟨field, ⟨hmem, hne⟩, rfl⟩
    exact ⟨hne, field, hmem, rfl⟩
  · rintro ⟨hne, field, hmem, rfl⟩
    exact ⟨field, ⟨hmem, hne⟩, rfl⟩

theorem keys_insertField (name : String) (value : Json) (fields : List (String × Json)) :
    ((insertField name value fields).map Prod.fst).toFinset = insert name (fields.map Prod.fst).toFinset := by
  induction fields with
  | nil => rfl
  | cons field fields ih =>
    obtain ⟨k', x⟩ := field
    rw [insertField]
    by_cases hlt : name < k'
    · rw [if_pos hlt, List.map_cons, List.toFinset_cons]
    by_cases heq : name = k'
    · subst heq
      rw [if_neg hlt, if_pos rfl, List.map_cons, List.toFinset_cons, List.map_cons, List.toFinset_cons,
        Finset.insert_idem]
    · rw [if_neg hlt, if_neg heq, List.map_cons, List.toFinset_cons, ih, List.map_cons, List.toFinset_cons,
        Finset.insert_comm]

theorem child_putBack {raw : Json} {walked : List (String × Json)} {step : PathStep} (h : step ≠ .key "result") :
    (putBack raw (.obj walked)).child step = (Json.obj walked).child step := by
  cases step with
  | index i => rfl
  | key name =>
    show (insertField "result" raw walked).lookup name = walked.lookup name
    rw [lookup_insertField, if_neg fun hname => h (congrArg PathStep.key hname.symm)]

theorem child_removeField {fields : List (String × Json)} {step : PathStep} (h : step ≠ .key "result") :
    (Json.obj (removeField "result" fields)).child step = (Json.obj fields).child step := by
  cases step with
  | index i => rfl
  | key name =>
    show (removeField "result" fields).lookup name = fields.lookup name
    rw [lookup_removeField, if_neg fun hname => h (congrArg PathStep.key hname.symm)]

theorem redactorAt_of_outside {code : Option String} {path : List PathStep} (h : inRawCapture code path = false) :
    redactorAt redactUrl redactUrlsInText code path =
      if urlPlace code path then redactUrl else if prosePlace path then redactUrlsInText else id := by
  rw [redactorAt, h]
  rfl

theorem inRawCapture_of_step {code : Option String} {step : PathStep} (h : step ≠ .key "result")
    (path : List PathStep) : inRawCapture code (step :: path) = false := by
  have hstep : some step ≠ some (PathStep.key "result") := fun heq => h (Option.some.inj heq)
  rw [inRawCapture, List.head?_cons, decide_eq_false hstep, Bool.and_false]

/-- The captured answer as it was, the rest by its places. -/
theorem rewrites_raw {fields : List (String × Json)} {raw : Json} (hcode : code (.obj fields) = some "cdp")
    (hraw : fields.lookup "result" = some raw) :
    Rewrites (redactorAt redactUrl redactUrlsInText (some "cdp")) (.obj fields)
      (putBack raw (redactEnvelopeProse redactUrl redactUrlsInText
        (redactUrlFieldsInPlace redactUrl (.obj (removeField "result" fields))))) := by
  have hcode' : code (.obj (removeField "result" fields)) = some "cdp" := by
    rw [← hcode]
    show ((removeField "result" fields).lookup "code").bind asStr = _
    rw [lookup_removeField, if_neg (by decide)]
    rfl
  have hrest := @rewrites_prose redactUrl redactUrlsInText (.obj (removeField "result" fields))
  rw [hcode'] at hrest
  -- the rest is still an object, with the keys that are left
  generalize redactEnvelopeProse redactUrl redactUrlsInText _ = walked at hrest ⊢
  have hhead : walked.head = .obj ((removeField "result" fields).map Prod.fst).toFinset :=
    Option.some.inj (hrest [])
  cases walked with
  | obj walked =>
    rw [head, Head.obj.injEq, keys_removeField] at hhead
    have hmem : "result" ∈ (fields.map Prod.fst).toFinset := by
      obtain ⟨before, after, rfl, _⟩ := List.lookup_eq_some_iff.mp hraw
      rw [List.mem_toFinset, List.mem_map]
      exact ⟨("result", raw), List.mem_append_right _ List.mem_cons_self, rfl⟩
    intro path
    cases path with
    | nil =>
      show some (Head.obj _) = some (Head.obj _)
      rw [keys_insertField, hhead, Finset.insert_erase hmem]
    | cons step path =>
      by_cases hstep : step = .key "result"
      · subst hstep
        have hredactor : redactorAt redactUrl redactUrlsInText (some "cdp") (.key "result" :: path) = id := rfl
        show (((insertField "result" raw walked).lookup "result").bind (atPath path)).map head =
          ((fields.lookup "result").bind (atPath path)).map _
        rw [lookup_insertField, if_pos rfl, hraw, hredactor]
        exact Rewrites.refl raw path
      · have hchild : (Json.obj (removeField "result" fields)).child step = (Json.obj fields).child step :=
          child_removeField hstep
        show ((child step _).bind (atPath path)).map head = ((child step _).bind (atPath path)).map _
        rw [child_putBack hstep, ← hchild, redactorAt_of_outside (inRawCapture_of_step hstep path)]
        exact hrest (step :: path)
  | _ => cases hhead

/-- Where nothing is lifted out, there is no place in a captured answer. -/
theorem inRawCapture_of_takeRawCapture {root x : Json} {path : List PathStep} (h : takeRawCapture root = none)
    (hx : root.atPath path = some x) : inRawCapture (code root) path = false := by
  unfold takeRawCapture at h
  by_cases hcdp : code root = some "cdp"
  · rw [if_neg (not_not.mpr hcdp)] at h
    cases path with
    | nil => exact Bool.and_false _
    | cons step path =>
      refine inRawCapture_of_step ?_ path
      rintro rfl
      cases root with
      | obj fields =>
        have hlookup : fields.lookup "result" = none := Option.map_eq_none_iff.mp h
        have hat : (fields.lookup "result").bind (atPath path) = some x := hx
        rw [hlookup] at hat
        cases hat
      | _ => cases hcdp
  · rw [inRawCapture, decide_eq_false hcdp, Bool.false_and]

/-- **Each string by the function for its place, and nothing else changed**, for every payload. -/
theorem redactUrlFields_rewrites (redactUrl redactUrlsInText : String → String) (root : Json) :
    Rewrites (redactorAt redactUrl redactUrlsInText (code root)) root
      (redactUrlFields redactUrl redactUrlsInText root) := by
  unfold redactUrlFields
  cases htaken : takeRawCapture root with
  | none =>
    refine (rewrites_prose root).congr fun path x hx => ?_
    exact (redactorAt_of_outside (inRawCapture_of_takeRawCapture htaken hx)).symm
  | some taken =>
    unfold takeRawCapture at htaken
    by_cases hcdp : code root = some "cdp"
    · rw [if_neg (not_not.mpr hcdp)] at htaken
      cases root with
      | obj fields =>
        obtain ⟨raw, hlookup, rfl⟩ := Option.map_eq_some_iff.mp htaken
        rw [hcdp]
        exact rewrites_raw hcdp hlookup
      | _ => cases hcdp
    · rw [if_pos hcdp] at htaken
      cases htaken

-- a captured answer keeps its own URLs, the event around it does not
example (url : String) : redactUrlFields (fun _ => "***") id (.obj [("code", .str "cdp"), ("page_url", .str url),
    ("result", .obj [("next_url", .str url)])]) =
      .obj [("code", .str "cdp"), ("page_url", .str "***"), ("result", .obj [("next_url", .str url)])] := by
  rfl

end Afhttp.Redact

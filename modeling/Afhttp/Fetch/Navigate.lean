import Afhttp.Fetch.Download
import Afhttp.Fetch.RequestOpts
import Afhttp.Shared.Maps

/-!
# Navigation requests

`sdk/fetch/pipeline/browser/navigate.rs`: a fetch that has a method or a body of its own, or
headers for one origin, pauses the page's requests and continues them with what the caller asked
for.  `continueParams` answers one paused request, `runIntercept` is the loop over the events.

The caller's headers are in two lists, `everywhere` and `originOnly`.  The headers of an answer
are those of the request, where what the caller supplies replaces any spelling of its name:

    ¬ same origin, no form     no headers
    same origin                everywhere, originOnly
    form                       ..., everywhere once more, Content-Type

    the headers are set one list after the other                   (continueParams_headers)
    ... so what is supplied last for a name is sent, and once      (header_scoping)
    ... and a form overwrites a name that both lists have          (form_overwrites)
    the two lists of a caller have no name in common               (cdpHeadersByScope_disjoint)
-/

namespace Afhttp.Fetch

open Text

/-- What the code takes from the libraries. -/
structure NavigateLib where
  /-- `Url::parse`. -/
  parseUrl : String → Except String Url
  /-- `Url::origin`, if it is a tuple. -/
  origin : Url → Option (String × Host × ℕ)
  /-- `Value::to_string`. -/
  display : Json → String
  /-- `base64::engine::general_purpose::STANDARD.encode`. -/
  base64 : List UInt8 → String

/-! ## The caller's headers -/

abbrev HeaderList := List (String × String)

/-- One header of the loop of `cdp_headers_by_scope`. -/
def scopeHeader (lists : BTreeMap String × HeaderList) (header : PreparedHeader) : BTreeMap String × HeaderList :=
  if isOriginScopedHeader header.name.str then (lists.1, lists.2 ++ [(header.cdpName, header.cdpValue)])
  else (lists.1.insert header.cdpName header.cdpValue, lists.2)

/-- The caller's headers by where they may go: to every request of the page, or to the requested
URL's origin only. -/
def PreparedRequestOptions.cdpHeadersByScope (options : PreparedRequestOptions) : BTreeMap String × HeaderList :=
  options.headers.foldl scopeHeader (∅, [])

/-- Set a name to a value, replacing any spelling of it. -/
def setHeader (headers : HeaderList) (header : String × String) : HeaderList :=
  headers.filter (fun existing => !eqIgnoreAsciiCase existing.1 header.1) ++ [header]

/-- `set_header` for each of a list. -/
def setHeaders (headers supplied : HeaderList) : HeaderList := supplied.foldl setHeader headers

/-- The entries of a list whose name is `name`, in any case. -/
def named (name : String) (headers : HeaderList) : HeaderList :=
  headers.filter fun header => eqIgnoreAsciiCase header.1 name

def isNamed (name : String) (headers : HeaderList) : Bool :=
  headers.any fun header => eqIgnoreAsciiCase header.1 name

/-! ## One paused request -/

structure MainOverride where
  method : String
  postDataB64 : Option String
  form : Bool
  deriving DecidableEq

structure InterceptScope where
  /-- The target's origin when there are origin-only headers to add. -/
  origin : Option (String × Host × ℕ)
  everywhere : BTreeMap String
  originOnly : HeaderList

/-- The parameters of `Fetch.continueRequest`.  `headers` replaces those of the request. -/
structure ContinueParams where
  requestId : String
  method : Option String
  postData : Option String
  headers : Option HeaderList
  deriving DecidableEq

def formContentType : String × String := ("Content-Type", "application/x-www-form-urlencoded")

section
variable (lib : NavigateLib)

/-- The headers that a paused request carries. -/
def pausedHeaders (paused : Json) : HeaderList :=
  ((((paused.index "request").get "headers").bind Json.asObject).map fun fields =>
    fields.map fun (name, value) => (name, value.asStr.getD (lib.display value))).getD []

/-- The URL of the paused request parses and has the origin of the scope. -/
def sameOrigin (paused : Json) (scope : InterceptScope) : Bool :=
  scope.origin.any fun origin =>
    (((paused.index "request").get "url").bind Json.asStr).any fun url =>
      match lib.parseUrl url with
      | .ok url => lib.origin url == some origin
      | .error _ => false

/-- The answer to one paused request, and whether the caller waits for the reply to it. -/
def continueParams (paused : Json) (main : Option MainOverride) (scope : InterceptScope) :
    ContinueParams × Bool :=
  let headers := pausedHeaders lib paused
  let (headers, replaceHeaders) :=
    if sameOrigin lib paused scope then
      (setHeaders (setHeaders headers scope.everywhere.toList) scope.originOnly, true)
    else (headers, false)
  let requestId := ((paused.get "requestId").bind Json.asStr).getD ""
  match main with
  | some main =>
    let (headers, replaceHeaders) :=
      if main.form then (setHeader (setHeaders headers scope.everywhere.toList) formContentType, true)
      else (headers, replaceHeaders)
    (⟨requestId, some main.method, main.postDataB64, if replaceHeaders then some headers else none⟩, true)
  | none => (⟨requestId, none, none, if replaceHeaders then some headers else none⟩, false)

/-! ## What the headers come to -/

/-- What the caller supplies for a request, in the order in which it is set. -/
def suppliedHeaders (same form : Bool) (scope : InterceptScope) : HeaderList :=
  (if same then scope.everywhere.toList ++ scope.originOnly else []) ++
    (if form then scope.everywhere.toList ++ [formContentType] else [])

/-- The last value that a list has for a name. -/
def lastNamed (name : String) (headers : HeaderList) : Option (String × String) := (named name headers).getLast?

end

section
variable (headers supplied : HeaderList) (name : String)

theorem eqIgnoreAsciiCase_trans_iff {a b : String} (h : eqIgnoreAsciiCase a b = true) (name : String) :
    eqIgnoreAsciiCase a name = eqIgnoreAsciiCase b name := by
  rw [eqIgnoreAsciiCase_iff] at h
  unfold eqIgnoreAsciiCase
  rw [h]

theorem eqIgnoreAsciiCase_comm (a b : String) : eqIgnoreAsciiCase a b = eqIgnoreAsciiCase b a := by
  unfold eqIgnoreAsciiCase
  exact Bool.beq_comm

theorem named_setHeader_self (header : String × String) (h : eqIgnoreAsciiCase header.1 name = true) :
    named name (setHeader headers header) = [header] := by
  have hnone : named name (headers.filter fun existing => !eqIgnoreAsciiCase existing.1 header.1) = [] := by
    unfold named
    rw [List.filter_filter, List.filter_eq_nil_iff]
    intro existing _ he
    rw [Bool.and_eq_true, Bool.not_eq_true', eqIgnoreAsciiCase_comm existing.1 name] at he
    have hs := eqIgnoreAsciiCase_trans_iff h existing.1
    rw [he.1, eqIgnoreAsciiCase_comm, he.2] at hs
    cases hs
  unfold setHeader
  show List.filter _ (_ ++ _) = _
  rw [List.filter_append]
  show named name _ ++ _ = _
  rw [hnone, List.nil_append, List.filter_cons_of_pos (by simpa using h), List.filter_nil]

theorem named_setHeader_of_ne (header : String × String) (h : eqIgnoreAsciiCase header.1 name = false) :
    named name (setHeader headers header) = named name headers := by
  unfold named setHeader
  rw [List.filter_append, List.filter_filter, List.filter_cons_of_neg (by simp [h]), List.filter_nil, List.append_nil]
  apply List.filter_congr
  intro existing _
  cases he : eqIgnoreAsciiCase existing.1 name with
  | false => rfl
  | true =>
    have hne : eqIgnoreAsciiCase existing.1 header.1 = false := by
      rw [eqIgnoreAsciiCase_trans_iff he, eqIgnoreAsciiCase_comm]
      exact h
    rw [hne]
    rfl

/-- **One entry a name.**  What a name has after `set_header` over a list is the list's last entry
for it, or else what it had. -/
theorem named_setHeaders : named name (setHeaders headers supplied) =
    (lastNamed name supplied).elim (named name headers) fun header => [header] := by
  unfold lastNamed
  induction supplied using List.reverseRecOn with
  | nil => rfl
  | append_singleton supplied header ih =>
    have hstep : setHeaders headers (supplied ++ [header]) = setHeader (setHeaders headers supplied) header := by
      unfold setHeaders
      rw [List.foldl_append]
      rfl
    have hnamed : named name (supplied ++ [header]) =
        named name supplied ++ if eqIgnoreAsciiCase header.1 name then [header] else [] := by
      unfold named
      rw [List.filter_append]
      cases h : eqIgnoreAsciiCase header.1 name with
      | true => rw [List.filter_cons_of_pos (by simpa using h)]; rfl
      | false => rw [List.filter_cons_of_neg (by simp [h])]; rfl
    rw [hstep, hnamed]
    cases h : eqIgnoreAsciiCase header.1 name with
    | true => rw [named_setHeader_self _ _ _ h]; simp
    | false => rw [named_setHeader_of_ne _ _ _ h, ih]; simp

end

section
variable (lib : NavigateLib) (paused : Json) (main : Option MainOverride) (scope : InterceptScope)

/-- The headers of an answer are set one list after the other. -/
theorem continueParams_headers : (continueParams lib paused main scope).1.headers =
    if sameOrigin lib paused scope || main.any MainOverride.form then
      some (setHeaders (pausedHeaders lib paused)
        (suppliedHeaders (sameOrigin lib paused scope) (main.any MainOverride.form) scope))
    else none := by
  have happend : ∀ hs l l', setHeaders (setHeaders hs l) l' = setHeaders hs (l ++ l') :=
    fun hs l l' => (List.foldl_append ..).symm
  have hform : ∀ hs, setHeader hs formContentType = setHeaders hs [formContentType] := fun hs => rfl
  unfold continueParams suppliedHeaders
  cases hsame : sameOrigin lib paused scope with
  | true =>
    cases main with
    | none => simp [happend]
    | some main => cases hm : main.form <;> simp [hm, happend, hform]
  | false =>
    cases main with
    | none => simp
    | some main => cases hm : main.form <;> simp [hm, happend, hform]

/-- The name that a caller's list still has where it was set last of all. -/
theorem lastNamed_append (name : String) (l l' : HeaderList) :
    lastNamed name (l ++ l') = (lastNamed name l').or (lastNamed name l) := by
  unfold lastNamed named
  rw [List.filter_append, List.getLast?_append]

theorem lastNamed_eq_none (name : String) (l : HeaderList) : lastNamed name l = none ↔ isNamed name l = false := by
  unfold lastNamed named isNamed
  rw [List.getLast?_eq_none_iff, List.filter_eq_nil_iff, List.any_eq_false]

/-- **Header scoping.**  A request of another origin is answered as if there were no origin-only
headers, and without a main override with no headers, method or body at all.  Headers that are
replaced are the request's own, where each name that the caller supplies has the last value
supplied for it, once.  An origin-only header is among them on the scope's origin, unless a form
has supplied its name again. -/
theorem header_scoping :
    (sameOrigin lib paused scope = false →
      (∀ originOnly, continueParams lib paused main { scope with originOnly := originOnly } =
        continueParams lib paused main scope) ∧
      (main = none → (continueParams lib paused main scope).1 =
        ⟨((paused.get "requestId").bind Json.asStr).getD "", none, none, none⟩)) ∧
    (∀ headers, (continueParams lib paused main scope).1.headers = some headers → ∀ name,
      named name headers =
        (lastNamed name (suppliedHeaders (sameOrigin lib paused scope) (main.any MainOverride.form) scope)).elim
          (named name (pausedHeaders lib paused)) fun header => [header]) ∧
    (sameOrigin lib paused scope = true → ∃ headers, (continueParams lib paused main scope).1.headers = some headers ∧
      ∀ name header, lastNamed name scope.originOnly = some header →
        (main.any MainOverride.form = true → isNamed name (scope.everywhere.toList ++ [formContentType]) = false) →
        named name headers = [header]) := by
  have hheaders : ∀ headers, (continueParams lib paused main scope).1.headers = some headers → headers =
      setHeaders (pausedHeaders lib paused)
        (suppliedHeaders (sameOrigin lib paused scope) (main.any MainOverride.form) scope) := by
    intro headers h
    rw [continueParams_headers] at h
    split at h
    · exact (Option.some.inj h).symm
    · cases h
  refine ⟨fun hsame => ⟨?_, ?_⟩, ?_, fun hsame => ?_⟩
  · intro originOnly
    have hother : sameOrigin lib paused { scope with originOnly := originOnly } = false := hsame
    unfold continueParams
    rw [hsame, hother]
    rfl
  · rintro rfl
    unfold continueParams
    rw [hsame]
    rfl
  · intro headers h name
    rw [hheaders headers h]
    exact named_setHeaders _ _ name
  · have hsome := continueParams_headers lib paused main scope
    rw [hsame, Bool.true_or, if_pos rfl] at hsome
    refine ⟨_, hsome, ?_⟩
    intro name header hlast hform
    rw [named_setHeaders]
    have hfirst : lastNamed name (scope.everywhere.toList ++ scope.originOnly) = some header := by
      rw [lastNamed_append, hlast]
      rfl
    have hlater : lastNamed name (if main.any MainOverride.form then scope.everywhere.toList ++ [formContentType]
        else []) = none := by
      cases hm : main.any MainOverride.form with
      | true => rw [if_pos rfl]; exact (lastNamed_eq_none _ _).mpr (hform hm)
      | false => rfl
    unfold suppliedHeaders
    rw [if_pos rfl, lastNamed_append, hlater, hfirst]
    rfl

end

/-! ## The two lists of a caller -/

/-- The lists that the code makes share no header name, and a form's `Content-Type` is in neither
by scope: what `header_scoping` leaves out does not come up. -/
theorem cdpHeadersByScope_disjoint (options : PreparedRequestOptions)
    (hcdp : ∀ header ∈ options.headers, header.cdpName = header.name.str) (name : String)
    (h : isNamed name options.cdpHeadersByScope.2 = true) :
    isNamed name (options.cdpHeadersByScope.1.toList ++ [formContentType]) = false := by
  have hfold : ∀ (l : List PreparedHeader) (acc : BTreeMap String × HeaderList),
      (∀ header ∈ l, header.cdpName = header.name.str) →
      (∀ k v, acc.1[k]? = some v → toAsciiLowercase k = k ∧ isOriginScopedHeader k = false) →
      (∀ header ∈ acc.2, toAsciiLowercase header.1 = header.1 ∧ isOriginScopedHeader header.1 = true) →
      (∀ k v, (l.foldl scopeHeader acc).1[k]? = some v → toAsciiLowercase k = k ∧ isOriginScopedHeader k = false) ∧
        ∀ header ∈ (l.foldl scopeHeader acc).2,
          toAsciiLowercase header.1 = header.1 ∧ isOriginScopedHeader header.1 = true := by
    intro l
    induction l with
    | nil => exact fun acc _ he ho => ⟨he, ho⟩
    | cons header l ih =>
      intro acc hl he ho
      have hname := hl header (List.mem_cons_self ..)
      have hlower := header.name.lower
      rw [← hname] at hlower
      rw [List.foldl_cons]
      apply ih _ fun header' h' => hl header' (List.mem_cons_of_mem _ h')
      · intro k v hk
        unfold scopeHeader at hk
        split at hk
        · exact he k v hk
        · next hscoped =>
          rw [map_insert] at hk
          split at hk
          · next heq =>
            rw [← heq]
            exact ⟨hlower, by rw [hname]; simpa using hscoped⟩
          · exact he k v hk
      · intro header' h'
        unfold scopeHeader at h'
        split at h'
        · next hscoped =>
          rcases List.mem_append.mp h' with h' | h'
          · exact ho header' h'
          · rw [List.mem_singleton.mp h']
            exact ⟨hlower, by rw [hname]; exact hscoped⟩
        · exact ho header' h'
  obtain ⟨he, ho⟩ := hfold options.headers (∅, []) hcdp
    (fun k v hk => by simp at hk) (fun header hheader => by simp at hheader)
  obtain ⟨header, hmem, hname⟩ := List.any_eq_true.mp h
  obtain ⟨hlower, hscoped⟩ := ho header hmem
  refine List.any_eq_false.mpr ?_
  intro other hother hsame
  -- the two entries have one name in lower case, and the lower-case name decides the list
  have hsame' : toAsciiLowercase other.1 = header.1 := by
    rw [eqIgnoreAsciiCase_iff] at hname hsame
    rw [hsame, ← hname, hlower]
  rcases List.mem_append.mp hother with hother | hother
  · obtain ⟨k, v⟩ := other
    obtain ⟨hk, hnot⟩ := he k v (Std.ExtTreeMap.mem_toList_iff_getElem?_eq_some.mp hother)
    rw [hk] at hsame'
    rw [hsame', hscoped] at hnot
    cases hnot
  · rw [List.mem_singleton.mp hother] at hsame'
    rw [← hsame'] at hscoped
    revert hscoped
    decide

/-! ## A name in both lists -/

def siteOrigin : String × Host × ℕ := ("https", .domain "site.test", 443)

/-- Every URL is one of `https://site.test`. -/
def siteLib : NavigateLib where
  parseUrl := fun url => .ok ⟨"https", some (.domain "site.test"), none, "/", url⟩
  origin := Url.origin
  display := fun _ => ""
  base64 := fun _ => ""

/-- **A name in both lists.**  A form to the scope's own origin: the value that both lists
have a name for is the one of `everywhere`, and the origin-only one is not sent. -/
theorem form_overwrites :
    let paused : Json := .obj [("requestId", .str "r1"), ("request", .obj [("url", .str "https://site.test/login")])]
    let scope : InterceptScope :=
      ⟨some siteOrigin, (∅ : BTreeMap String).insert "Authorization" "public", [("authorization", "Bearer secret")]⟩
    sameOrigin siteLib paused scope = true ∧
      ∀ headers, (continueParams siteLib paused (some ⟨"POST", none, true⟩) scope).1.headers = some headers →
        ("authorization", "Bearer secret") ∉ headers := by
  refine ⟨by decide, ?_⟩
  intro headers h
  have hvalue : (continueParams siteLib (.obj [("requestId", .str "r1"),
      ("request", .obj [("url", .str "https://site.test/login")])]) (some ⟨"POST", none, true⟩)
      ⟨some siteOrigin, (∅ : BTreeMap String).insert "Authorization" "public",
        [("authorization", "Bearer secret")]⟩).1.headers =
      some [("Authorization", "public"), formContentType] := by decide
  rw [hvalue] at h
  rw [← Option.some.inj h]
  decide

end Afhttp.Fetch

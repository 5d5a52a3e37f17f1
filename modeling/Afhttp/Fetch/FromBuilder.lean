import Afhttp.Fetch.RequestOpts

/-!
# What a caller's options become

`PreparedRequestOptions::from_builder` of `sdk/fetch/pipeline/request_opts.rs`.  A caller has
a list of cookies or a raw `Cookie` header, never both; what it sets is checked here, before
any request.  What the code takes from the libraries besides `HttpLib` is `BuilderLib`.
-/

namespace Afhttp.Fetch

open Profile Text

/-- The caller's modifiers, as the builder collects them. -/
structure RequestOptions where
  headers : List (String × String)
  userAgent : Option String
  cookies : List Cookie
  evaluateAfterWait : List String
  method : Option String
  body : Option (List UInt8)
  form : List (String × String)

structure BuilderLib extends HttpLib where
  /-- `HeaderName::from_bytes`. -/
  headerName : String → Except String HeaderName
  /-- `cookie::Cookie::split_parse`. -/
  splitParse : String → List (Except String Cookie)
  /-- `str::to_uppercase`. -/
  toUppercase : String → String

/-- The headers of a caller, sorted by where they go. -/
structure SortedHeaders where
  headers : List PreparedHeader
  userAgent : Option (String × HeaderValue)
  rawCookieHeader : Option (String × HeaderValue)

section
variable (lib : BuilderLib)

def parseHeader (name value source : String) : Except Error (HeaderName × HeaderValue) :=
  match lib.headerName name with
  | .error e => .error (invalidArgument s!"{source}: invalid header name {lib.fmt.str name}: {e}")
  | .ok headerName =>
    match lib.headerValue value with
    | .error e => .error (invalidArgument s!"{source}: invalid value for header {lib.fmt.str name}: {e}")
    | .ok headerValue => .ok (headerName, headerValue)

def sortHeader (sorted : SortedHeaders) (header : String × String) : Except Error SortedHeaders := do
  let (headerName, headerValue) ← parseHeader lib header.1 header.2 ".header(...)"
  if headerName = .userAgent then
    if sorted.userAgent.isSome then
      throw (invalidArgument "multiple User-Agent headers were provided")
    return { sorted with userAgent := some (header.2, headerValue) }
  if headerName = .cookie then
    if sorted.rawCookieHeader.isSome then
      throw (invalidArgument "multiple Cookie headers were provided")
    return { sorted with rawCookieHeader := some (header.2, headerValue) }
  return { sorted with headers := sorted.headers ++ [⟨headerName, headerValue, headerName.str, header.2⟩] }

def callerUserAgent (request : RequestOptions) (sorted : SortedHeaders) :
    Except Error (Option (String × HeaderValue)) := do
  if request.userAgent.isSome && sorted.userAgent.isSome then
    throw (invalidArgument ".user_agent(...) conflicts with .header(\"User-Agent\", ...)")
  match request.userAgent with
  | some value =>
    let (_, headerValue) ← parseHeader lib "User-Agent" value ".user_agent(...)"
    return some (value, headerValue)
  | none => return sorted.userAgent

/-- The cookies of a raw `Cookie` header. -/
def parseCookieHeader (now : Int) (value : String) : Except Error (List PreparedCookie) :=
  (lib.splitParse value).mapM fun parsed =>
    match parsed with
    | .error e => .error (invalidArgument s!".header(\"Cookie\", ...): invalid cookie header: {e}")
    | .ok cookie => prepareCookie lib.toHttpLib now cookie ".header(\"Cookie\", ...)"

/-- `raw_cookie_pairs`: the cookies of the raw header, if there is one. -/
def rawCookiePairs (now : Int) (raw : Option (String × HeaderValue)) : Except Error (List PreparedCookie) :=
  match raw with
  | some (value, _) => parseCookieHeader lib now value
  | none => .ok []

def fromBuilder (now : Int) (request : RequestOptions) : Except Error PreparedRequestOptions := do
  let sorted ← request.headers.foldlM (sortHeader lib) ⟨[], none, none⟩
  let userAgent ← callerUserAgent lib request sorted
  if sorted.rawCookieHeader.isSome && !request.cookies.isEmpty then
    throw (invalidArgument ".cookie(...) conflicts with .header(\"Cookie\", ...)")
  let cookies ← request.cookies.mapM fun cookie => prepareCookie lib.toHttpLib now cookie ".cookie(...)"
  let pairs ← rawCookiePairs lib now sorted.rawCookieHeader
  if request.body.isSome && !request.form.isEmpty then
    throw (invalidArgument "--data and --form are mutually exclusive")
  return {
    headers := sorted.headers
    userAgent := userAgent
    rawCookieHeader := sorted.rawCookieHeader
    cookies := cookies
    rawCookiePairs := pairs
    evaluateAfterWait := request.evaluateAfterWait
    method := lib.toUppercase (request.method.getD "GET")
    bodyPayload :=
      match request.body with
      | some bytes => .bytes bytes
      | none => if request.form = [] then .none else .form request.form }

/-! ## What the options promise -/

/-- `Cookie` is not among the headers, and a raw one leaves no list of cookies. -/
structure PreparedRequestOptions.Built (lib : HttpLib) (options : PreparedRequestOptions) : Prop where
  headers : ∀ header ∈ options.headers, header.name ≠ .cookie
  cookies : options.rawCookieHeader.isSome = true → options.cookies = []
  raw : ∀ raw ∈ options.rawCookieHeader, lib.headerValue raw.1 = .ok raw.2

variable {lib}

theorem parseHeader_ok {name value source : String} {parsed : HeaderName × HeaderValue}
    (h : parseHeader lib name value source = .ok parsed) : lib.headerValue value = .ok parsed.2 := by
  unfold parseHeader at h
  split at h
  · cases h
  · split at h
    · cases h
    · next hv =>
      cases h
      exact hv

/-- **One header.**  It is the user agent, the raw `Cookie` header, or any other. -/
theorem sortHeader_ok {sorted sorted' : SortedHeaders} {header : String × String}
    (h : sortHeader lib sorted header = .ok sorted') :
    (sorted'.headers = sorted.headers ∧ sorted'.rawCookieHeader = sorted.rawCookieHeader) ∨
    (sorted'.headers = sorted.headers ∧
      ∃ value, lib.headerValue header.2 = .ok value ∧ sorted'.rawCookieHeader = some (header.2, value)) ∨
    (sorted'.rawCookieHeader = sorted.rawCookieHeader ∧
      ∃ other : PreparedHeader, other.name ≠ .cookie ∧ sorted'.headers = sorted.headers ++ [other]) := by
  unfold sortHeader at h
  obtain ⟨⟨headerName, headerValue⟩, hp, h⟩ := except_bind_ok h
  have hv : lib.headerValue header.2 = .ok headerValue := parseHeader_ok hp
  simp only [] at h
  split at h
  · split at h
    · cases h
    · cases h
      exact Or.inl ⟨rfl, rfl⟩
  · split at h
    · split at h
      · cases h
      · cases h
        exact Or.inr (Or.inl ⟨rfl, headerValue, hv, rfl⟩)
    · next hc =>
      cases h
      exact Or.inr (Or.inr ⟨rfl, _, hc, rfl⟩)

theorem sortHeaders_ok {headers : List (String × String)} {sorted sorted' : SortedHeaders}
    (h : headers.foldlM (sortHeader lib) sorted = .ok sorted')
    (hh : ∀ header ∈ sorted.headers, header.name ≠ .cookie)
    (hr : ∀ raw ∈ sorted.rawCookieHeader, lib.headerValue raw.1 = .ok raw.2) :
    (∀ header ∈ sorted'.headers, header.name ≠ .cookie) ∧
      ∀ raw ∈ sorted'.rawCookieHeader, lib.headerValue raw.1 = .ok raw.2 := by
  induction headers generalizing sorted with
  | nil =>
    cases h
    exact ⟨hh, hr⟩
  | cons header headers ih =>
    rw [List.foldlM_cons] at h
    obtain ⟨next, hn, h⟩ := except_bind_ok h
    apply ih h
    · rcases sortHeader_ok hn with ⟨he, -⟩ | ⟨he, -⟩ | ⟨-, other, ho, he⟩ <;> rw [he]
      · exact hh
      · exact hh
      · intro x hx
        rcases List.mem_append.mp hx with hx | hx
        · exact hh x hx
        · rw [List.mem_singleton.mp hx]
          exact ho
    · rcases sortHeader_ok hn with ⟨-, he⟩ | ⟨-, value, hv, he⟩ | ⟨he, -⟩ <;> rw [he]
      · exact hr
      · intro raw hraw
        cases hraw
        exact hv
      · exact hr

/-- **The options of a caller** are built as every request expects them. -/
theorem fromBuilder_built {now : Int} {request : RequestOptions} {options : PreparedRequestOptions}
    (h : fromBuilder lib now request = .ok options) : options.Built lib.toHttpLib := by
  unfold fromBuilder at h
  obtain ⟨sorted, hs, h⟩ := except_bind_ok h
  obtain ⟨userAgent, -, h⟩ := except_bind_ok h
  have hsorted := sortHeaders_ok hs (by simp) (by simp)
  simp only [] at h
  split at h
  · cases h
  · next hconflict =>
    obtain ⟨cookies, hc, h⟩ := except_bind_ok h
    obtain ⟨pairs, -, h⟩ := except_bind_ok h
    split at h
    · cases h
    · cases h
      refine ⟨hsorted.1, fun hraw => ?_, hsorted.2⟩
      have hnone : request.cookies = [] := by
        simpa [hraw] using hconflict
      rw [hnone] at hc
      cases hc
      rfl

end

/-! ## The text of a header -/

/-- A character of a header value.  The bytes of one outside ASCII are all above 0x7f. -/
def isHeaderChar (c : Char) : Bool := c == '\t' || !isAsciiControl c

def isHeaderText (s : String) : Bool := s.toList.all isHeaderChar

/-- `HeaderValue::from_str` takes tabs and what is no control character, and keeps the text. -/
structure HttpLib.HeaderText (lib : HttpLib) : Prop where
  accepts : ∀ s, isHeaderText s = true → lib.headerValue s = .ok s
  rejects : ∀ s, isHeaderText s = false → ∃ e, lib.headerValue s = .error e

theorem isHeaderText_append (s t : String) : isHeaderText (s ++ t) = (isHeaderText s && isHeaderText t) := by
  unfold isHeaderText
  rw [String.toList_append, List.all_append]

theorem HttpLib.HeaderText.ok {lib : HttpLib} (h : lib.HeaderText) {s : String} {value : HeaderValue}
    (hv : lib.headerValue s = .ok value) : value = s ∧ isHeaderText s = true := by
  cases ht : isHeaderText s with
  | true =>
    rw [h.accepts s ht] at hv
    cases hv
    exact ⟨rfl, rfl⟩
  | false =>
    obtain ⟨e, he⟩ := h.rejects s ht
    rw [he] at hv
    cases hv

end Afhttp.Fetch

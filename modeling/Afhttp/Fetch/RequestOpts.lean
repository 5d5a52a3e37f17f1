import Afhttp.Profile.CookieJar

/-!
# Request options

`sdk/fetch/pipeline/request_opts.rs`: the validated form of what a caller asks of a fetch,
and the headers it makes of that for one URL.  The URL parser and the checks of the HTTP
library are parameters (`HttpLib`).
-/

namespace Afhttp.Fetch

open Profile Text

abbrev HeaderValue := String

/-- `HeaderName`: a lower-case name. -/
structure HeaderName where
  str : String
  lower : toAsciiLowercase str = str
  deriving DecidableEq

namespace HeaderName

def userAgent : HeaderName := ⟨"user-agent", by decide⟩

def cookie : HeaderName := ⟨"cookie", by decide⟩

end HeaderName

/-- `HeaderMap`, as far as only `insert` fills it: one value a name. -/
structure HeaderMap where
  entries : List (HeaderName × HeaderValue)
  deriving DecidableEq

namespace HeaderMap

def new : HeaderMap := ⟨[]⟩

def get (map : HeaderMap) (name : HeaderName) : Option HeaderValue := map.entries.lookup name

/-- The value replaces that of the name. -/
def insert (map : HeaderMap) (name : HeaderName) (value : HeaderValue) : HeaderMap :=
  ⟨(name, value) :: map.entries.filter (·.1 ≠ name)⟩

@[simp] theorem get_insert_self (map : HeaderMap) (name : HeaderName) (value : HeaderValue) :
    (map.insert name value).get name = some value := by
  simp [insert, get]

theorem get_insert_of_ne (map : HeaderMap) {name name' : HeaderName} (value : HeaderValue)
    (h : name' ≠ name) : (map.insert name value).get name' = map.get name' := by
  have hf : (map.entries.filter (·.1 ≠ name)).lookup name' = map.entries.lookup name' := by
    induction map.entries with
    | nil => rfl
    | cons p l ih =>
      by_cases hp : p.1 = name
      · have hn : (name' == p.1) = false := by
          rw [hp]
          exact beq_eq_false_iff_ne.mpr h
        rw [List.filter_cons_of_neg (by simpa using hp), List.lookup_cons, hn]
        exact ih
      · rw [List.filter_cons_of_pos (by simpa using hp), List.lookup_cons, List.lookup_cons, ih]
  unfold insert get
  rw [List.lookup_cons, beq_eq_false_iff_ne.mpr h]
  exact hf

end HeaderMap

/-- What the code takes from the libraries. -/
structure HttpLib where
  /-- `Url::parse`. -/
  parseUrl : String → Except String Url
  /-- `Url::join`. -/
  joinUrl : Url → String → Except String Url
  /-- `HeaderValue::from_str`. -/
  headerValue : String → Except String HeaderValue
  /-- `Method::from_bytes` accepts the text. -/
  isMethod : String → Bool
  /-- `cookie::Cookie::parse`. -/
  parseCookie : String → Option Cookie
  /-- `psl::suffix_str`. -/
  suffixStr : String → Option String
  fmt : DebugFormat

inductive BodyPayload where
  | none
  | bytes (body : List UInt8)
  | form (fields : List (String × String))
  deriving DecidableEq

structure PreparedHeader where
  name : HeaderName
  value : HeaderValue
  cdpName : String
  cdpValue : String
  deriving DecidableEq

structure PreparedCookie where
  name : String
  value : String
  domain : Option String
  path : Option String
  secure : Option Bool
  httpOnly : Option Bool
  sameSite : Option SameSite
  partitioned : Option Bool
  expiresEpochS : Option Int
  deriving DecidableEq

structure PreparedRequestOptions where
  headers : List PreparedHeader
  userAgent : Option (String × HeaderValue)
  rawCookieHeader : Option (String × HeaderValue)
  cookies : List PreparedCookie
  rawCookiePairs : List PreparedCookie
  evaluateAfterWait : List String
  method : String
  bodyPayload : BodyPayload
  deriving DecidableEq

/-- Headers that carry the caller's credentials for the URL it asked for. -/
def isOriginScopedHeader (name : String) : Bool :=
  ["authorization", "proxy-authorization", "cookie", "cookie2", "host", "www-authenticate"].contains name

/-! ## Cookies -/

def invalidArgument (detail : String) : Error := .new .invalidArgument detail

section
variable (lib : HttpLib)

def validateCookiePair (name value source : String) : Except Error Unit :=
  let trimmedName := trim name
  if trimmedName.isEmpty then .error (invalidArgument s!"{source}: cookie name must not be empty")
  else if trimmedName.toList.any
      (fun c => c == ';' || c == '=' || isAsciiControl c || isAsciiWhitespace c) then
    .error (invalidArgument s!"{source}: invalid cookie name {lib.fmt.str name}")
  else if value.toList.any (fun c => c == ';' || c == '\r' || c == '\n') then
    .error (invalidArgument s!"{source}: invalid cookie value for {lib.fmt.str trimmedName}")
  else .ok ()

/-- To the second; an age past the last date of the library is none. -/
def cookieExpiresEpochS (now : Int) (cookie : Cookie) : Option Int :=
  match cookie.maxAge with
  | some age => if JarEntry.dateInRange (now + age.wholeSeconds) then some (now + age.wholeSeconds) else none
  | none =>
    match cookie.expires with
    | some (.dateTime t) => some t
    | _ => none

def prepareCookie (now : Int) (cookie : Cookie) (source : String) : Except Error PreparedCookie := do
  validateCookiePair lib cookie.name cookie.value source
  if cookie.partitioned = some true ∧ cookie.secure = some false then
    throw (invalidArgument s!"{source}: Partitioned cookies require Secure")
  if cookie.sameSite = some .none ∧ cookie.secure = some false then
    throw (invalidArgument s!"{source}: SameSite=None cookies require Secure")
  return {
    name := cookie.name
    value := cookie.value
    domain := cookie.domain.map toAsciiLowercase
    path := cookie.path
    secure := cookie.secure
    httpOnly := cookie.httpOnly
    sameSite := cookie.sameSite
    partitioned := cookie.partitioned
    expiresEpochS := cookieExpiresEpochS now cookie }

/-- A cookie that can be prepared is passed through, its domain in lower case. -/
theorem prepareCookie_ok {now : Int} {cookie : Cookie} {source : String} {c : PreparedCookie}
    (h : prepareCookie lib now cookie source = .ok c) :
    validateCookiePair lib cookie.name cookie.value source = .ok () ∧
      c = ⟨cookie.name, cookie.value, cookie.domain.map toAsciiLowercase, cookie.path, cookie.secure,
        cookie.httpOnly, cookie.sameSite, cookie.partitioned, cookieExpiresEpochS now cookie⟩ := by
  unfold prepareCookie at h
  obtain ⟨_, hv, h⟩ := except_bind_ok h
  refine ⟨hv, ?_⟩
  simp only [] at h
  split at h
  · cases h
  · split at h
    · cases h
    · cases h
      rfl

def cookieIsExpired (now : Int) (cookie : PreparedCookie) : Bool :=
  cookie.expiresEpochS.any fun expires => decide (expires ≤ now)

def effectiveCookieSecure (cookie : PreparedCookie) : Bool :=
  cookie.secure == some true || cookie.sameSite == some .none || cookie.partitioned == some true

def parseCookieUrl (url : String) : Except Error Url :=
  match lib.parseUrl url with
  | .ok url => .ok url
  | .error e => .error (invalidArgument s!"cookie URL scope requires an absolute URL: {e}")

def validateCookieDomain (cookie : PreparedCookie) (url : Url) (source : String) : Except Error Unit :=
  match cookie.domain with
  | none => .ok ()
  | some domain =>
    match url.hostStr.map toAsciiLowercase with
    | none =>
      .error (invalidArgument s!"{source}: cookie {lib.fmt.str cookie.name} has Domain but URL has no host")
    | some host =>
      if host ≠ domain ∧ endsWith host ("." ++ domain) = false then
        .error (invalidArgument
          s!"{source}: cookie {lib.fmt.str cookie.name} Domain={lib.fmt.str domain} does not match URL host {lib.fmt.str host}")
      else .ok ()

def validateCookiePath (cookie : PreparedCookie) (url : Url) (source : String) : Except Error Unit :=
  match cookie.path with
  | none => .ok ()
  | some path =>
    if pathMatches (some path) url.path then .ok ()
    else
      .error (invalidArgument
        s!"{source}: cookie {lib.fmt.str cookie.name} Path={lib.fmt.str path} does not match URL path {lib.fmt.str url.path}")

def validateCookieScope (cookie : PreparedCookie) (url : Url) (source : String) : Except Error Unit := do
  validateCookieDomain lib cookie url source
  validateCookiePath lib cookie url source

/-! ## The headers of a request -/

/-- The `name=value` pairs of the cookies that go to `url`; all of them have to be in scope. -/
def cookiePairs (now : Int) (url : Url) : List PreparedCookie → Except Error (List String)
  | [] => .ok []
  | cookie :: cookies => do
    validateCookieScope lib cookie url ".cookie(...)"
    let pairs ← cookiePairs now url cookies
    if effectiveCookieSecure cookie && url.scheme != "https" then return pairs
    else if cookieIsExpired now cookie then return pairs
    else return s!"{cookie.name}={cookie.value}" :: pairs

def cookieHeaderForUrl (now : Int) (cookies : List PreparedCookie) (url : String) :
    Except Error (Option HeaderValue) :=
  if cookies = [] then .ok none
  else do
    let url ← parseCookieUrl lib url
    let pairs ← cookiePairs lib now url cookies
    if pairs = [] then return none
    else
      match lib.headerValue ("; ".intercalate pairs) with
      | .ok value => return some value
      | .error e => throw (invalidArgument s!"cookie header value is invalid: {e}")

namespace PreparedRequestOptions

/-- The caller's own headers and its user agent. -/
def callerHeaders (options : PreparedRequestOptions) : HeaderMap :=
  let map := options.headers.foldl (fun map header => map.insert header.name header.value) .new
  match options.userAgent with
  | some (_, value) => map.insert .userAgent value
  | none => map

def httpHeaderMap (now : Int) (options : PreparedRequestOptions) (url : String) : Except Error HeaderMap :=
  match options.rawCookieHeader with
  | some (_, value) => .ok (options.callerHeaders.insert .cookie value)
  | none => do
    match ← cookieHeaderForUrl lib now options.cookies url with
    | some value => return options.callerHeaders.insert .cookie value
    | none => return options.callerHeaders

/-- A jar cookie joins a raw `Cookie` header, unless the caller's has its name. -/
def joinRaw (existing : List String) (acc : (String × HeaderValue) × List PreparedCookie) (c : PreparedCookie) :
    (String × HeaderValue) × List PreparedCookie :=
  if existing.contains c.name then acc
  else
    let joined := s!"{acc.1.1}; {c.name}={c.value}"
    match lib.headerValue joined with
    | .ok value => ((joined, value), acc.2 ++ [c])
    | .error _ => acc

/-- Add the jar's cookies under those the caller set; a caller's cookie of the same name wins. -/
def mergeJarCookies (options : PreparedRequestOptions) (extras : List PreparedCookie) :
    PreparedRequestOptions :=
  match options.rawCookieHeader with
  | some header =>
    let existing := options.rawCookiePairs.map PreparedCookie.name
    let r := extras.foldl (joinRaw lib existing) (header, options.rawCookiePairs)
    { options with rawCookieHeader := some r.1, rawCookiePairs := r.2 }
  | none =>
    let existing := options.cookies.map PreparedCookie.name
    { options with cookies := options.cookies ++ extras.filter fun c => !existing.contains c.name }

end PreparedRequestOptions

end

end Afhttp.Fetch

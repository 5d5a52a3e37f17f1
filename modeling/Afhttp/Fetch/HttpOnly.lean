import Afhttp.Fetch.RequestOpts
import Afhttp.Profile.JarSecure

/-!
# The HTTP path

`sdk/fetch/pipeline/http_only.rs`: one request after another until a response is no redirect,
the jar read before each and written after each.  With a jar the HTTP client follows no
redirect by itself; without one it does, and this code sends one request.

What a hop meets (the clock and the jar file at each point that reads them, the answer) is an
argument: other processes may write the jar in between.  `sendHttpResponse` returns the
requests it sent with its result.  Where none does, `persistSetCookies` is a run of the jar's
sessions (`persistSetCookies_run`).
-/

namespace Afhttp.Fetch

open Profile

structure CookieJarOptions where
  path : Option JarPath
  deriving DecidableEq

structure FetchBuilder where
  url : String
  cookieJar : CookieJarOptions
  deriving DecidableEq

/-- What is handed to the HTTP client. -/
structure Request where
  method : String
  url : Url
  headers : HeaderMap
  bodyPayload : BodyPayload
  deriving DecidableEq

/-- A response up to its body.  A header value is `none` where `to_str` fails. -/
structure Response where
  url : Url
  status : ℕ
  setCookie : List (Option String)
  location : Option (Option String)
  deriving DecidableEq

/-- What one hop meets, in this order. -/
structure Hop where
  jarFile : JarFile
  resolveNow : Int
  sendNow : Int
  response : Except Error Response
  /-- The error of the blocking task that writes the jar. -/
  taskFault : Option String
  mergeFile : JarFile
  mergeNow : Int
  persistFile : JarFile
  persistNow : Int
  io : CookieJar.PersistCall → Option String

section
variable (lib : HttpLib)

/-! ## Before a request -/

/-- The jar's cookies for `url`; one that could not be sent is left out. -/
def jarCookies (jarPath : JarPath) (url : Url) (hop : Hop) : Except Error (List PreparedCookie) := do
  let jar ← CookieJar.load jarPath hop.jarFile
  return (jar.applicableCookies hop.resolveNow url).filterMap fun c =>
    (prepareCookie lib hop.resolveNow c "cookie_jar").toOption

def resolveJarCookies (builder : FetchBuilder) (requestOptions : PreparedRequestOptions) (url : Url)
    (hop : Hop) : Except Error PreparedRequestOptions :=
  match builder.cookieJar.path with
  | none => .ok requestOptions
  | some jarPath => do
    let prepared ← jarCookies lib jarPath url hop
    return requestOptions.mergeJarCookies lib prepared

/-- A cookie of the caller that does not apply at a redirect's target is not sent. -/
def retainCookies (redirects : ℕ) (url : Url) (cookies : List PreparedCookie) : List PreparedCookie :=
  if redirects > 0 then
    cookies.filter fun cookie => (validateCookieScope lib cookie url ".cookie(...)").isOk
  else cookies

/-- The request of one hop. -/
def prepareRequest (builder : FetchBuilder) (redirects : ℕ) (options : PreparedRequestOptions)
    (url : Url) (hop : Hop) : Except Error Request := do
  let resolved ← resolveJarCookies lib builder options url hop
  let opts := { resolved with cookies := retainCookies lib redirects url resolved.cookies }
  if lib.isMethod opts.method = false then
    throw (invalidArgument s!"invalid HTTP method {lib.fmt.str opts.method}")
  let headers ← opts.httpHeaderMap lib hop.sendNow url.serialization
  return ⟨opts.method, url, headers, opts.bodyPayload⟩

/-! ## After a response -/

def mergeLine (now : Int) (url : Url) (jar : CookieJar) (line : String) : CookieJar :=
  match lib.parseCookie line with
  | some c => (jar.mergeResponse lib.suffixStr now c url).1
  | none => jar

/-- `persist_set_cookies` of `cookie_jar_resolve.rs`: the file it writes, if it writes one. -/
def persistSetCookies (jarPath : JarPath) (setCookieLines : List String) (requestUrl : Url) (hop : Hop) :
    Except Error (Option JarFile) :=
  if setCookieLines = [] then .ok none
  else do
    let jar ← CookieJar.load jarPath hop.mergeFile
    let jar := setCookieLines.foldl (mergeLine lib hop.mergeNow requestUrl) jar
    let file ← jar.persist hop.persistNow hop.io hop.persistFile
    return some file

def persistOffRuntime (hop : Hop) (write : Except Error (Option JarFile)) : Except Error (Option JarFile) :=
  match hop.taskFault with
  | some e => .error (.new .internalError s!"cookie jar write task failed: {e}")
  | none => write

/-- The options for a URL of another origin: nothing of the caller's that its own was for. -/
def PreparedRequestOptions.leaveOrigin (options : PreparedRequestOptions) : PreparedRequestOptions :=
  { options with
    headers := options.headers.filter fun header => !isOriginScopedHeader header.name.str
    rawCookieHeader := none
    rawCookiePairs := []
    cookies := [] }

def isContentHeader (name : String) : Bool :=
  ["content-type", "content-encoding", "content-length", "transfer-encoding"].contains name

def PreparedRequestOptions.toGet (options : PreparedRequestOptions) : PreparedRequestOptions :=
  { options with
    method := "GET"
    bodyPayload := .none
    headers := options.headers.filter fun header => !isContentHeader header.name.str }

def rewritesMethod (status : ℕ) (method : String) : Bool :=
  ((status == 301 || status == 302) && method == "POST") || (status == 303 && method != "HEAD")

/-- The options for the next hop. -/
def PreparedRequestOptions.redirected (options : PreparedRequestOptions) (url next : Url) (status : ℕ) :
    PreparedRequestOptions :=
  let options := if url.sameOrigin next then options else options.leaveOrigin
  if rewritesMethod status options.method then options.toGet else options

def isRedirect (status : ℕ) : Bool := [301, 302, 303, 307, 308].contains status

/-- The URL a `Location` leads to, relative to `url`. -/
def nextUrl (url : Url) (location : Option String) : Option Url :=
  match location with
  | none => none
  | some location =>
    match lib.joinUrl url location with
    | .error _ => none
    | .ok next => if next.scheme = "http" ∨ next.scheme = "https" then some next else none

/-- Whether the loop returns or goes on. -/
inductive Outcome where
  | returns (result : Except Error Response)
  | follows (url : Url) (options : PreparedRequestOptions)

def afterResponse (builder : FetchBuilder) (redirects : ℕ) (url : Url) (options : PreparedRequestOptions)
    (hop : Hop) (response : Response) : Outcome :=
  match builder.cookieJar.path with
  | none => .returns (.ok response)
  | some jarPath =>
    let cookies := response.setCookie.filterMap id
    match persistOffRuntime hop (persistSetCookies lib jarPath cookies response.url hop) with
    | .error e => .returns (.error e)
    | .ok _ =>
      if isRedirect response.status = false then .returns (.ok response)
      else
        match response.location with
        | none => .returns (.ok response)
        | some location =>
          if redirects = 10 then
            .returns (.error (.new .ioError "HTTP redirect limit exceeded (10 hops)"))
          else
            match nextUrl lib url location with
            | none => .returns (.error (.new .ioError "invalid HTTP redirect location"))
            | some next => .follows next (options.redirected url next response.status)

/-! ## The loop -/

/-- The passes of the loop from `redirects` on, `left` of them at most. -/
def sendHops (builder : FetchBuilder) (hops : ℕ → Hop) :
    ℕ → ℕ → Url → PreparedRequestOptions → List Request × Except Error Response
  | 0, _, _, _ => ([], .error (.new .internalError "HTTP redirect loop ended unexpectedly"))
  | left + 1, redirects, url, options =>
    match prepareRequest lib builder redirects options url (hops redirects) with
    | .error e => ([], .error e)
    | .ok request =>
      match (hops redirects).response with
      | .error e => ([request], .error e)
      | .ok response =>
        match afterResponse lib builder redirects url options (hops redirects) response with
        | .returns result => ([request], result)
        | .follows next options' =>
          let rest := sendHops builder hops left (redirects + 1) next options'
          (request :: rest.1, rest.2)

def sendHttpResponse (builder : FetchBuilder) (requestOptions : PreparedRequestOptions) (hops : ℕ → Hop) :
    List Request × Except Error Response :=
  match lib.parseUrl builder.url with
  | .error _ =>
    let code := if builder.cookieJar.path.isSome then ErrorCode.invalidArgument else .ioError
    ([], .error (.new code "invalid HTTP request URL"))
  | .ok url => sendHops lib builder hops 11 0 url requestOptions

/-! ## The jar's side of a hop -/

/-- The lines are merged one by one, and nothing else changes. -/
theorem run_mergeLines {S : Type} [DecidableEq S] {s : S} (url : Url) (lines : List String) {w : World S}
    {x : Session} (hx : w.sessions s = some x) :
    ∃ w' x', Run.run (World.step lib.suffixStr) w
        (lines.filterMap fun line => (lib.parseCookie line).map fun c => .mergeResponse s c url) = some w' ∧
      w'.sessions s = some x' ∧ x'.jar = lines.foldl (mergeLine lib w.now url) x.jar ∧
      w'.path = w.path ∧ w'.file = w.file ∧ w'.now = w.now := by
  induction lines generalizing w x with
  | nil => exact ⟨w, x, rfl, hx, rfl, rfl, rfl, rfl⟩
  | cons line lines ih =>
    rw [List.filterMap_cons, List.foldl_cons]
    cases hc : lib.parseCookie line with
    | none =>
      have hline : mergeLine lib w.now url x.jar line = x.jar := by
        unfold mergeLine
        rw [hc]
      rw [hline]
      exact ih hx
    | some c =>
      have hline : mergeLine lib w.now url x.jar line =
          (x.jar.mergeResponse lib.suffixStr w.now c url).1 := by
        unfold mergeLine
        rw [hc]
      have hstep : w.step lib.suffixStr (.mergeResponse s c url) = some (w.afterMerge s x
          (.fromSetCookie w.now c url) (x.jar.mergeResponse lib.suffixStr w.now c url)) := by
        show (w.sessions s).map _ = _
        rw [hx]
        rfl
      obtain ⟨w', x', hrun, hx', hjar, hpath, hfile, hnow⟩ := ih (World.setSession_self w s _)
      refine ⟨w', x', ?_, hx', ?_, hpath, hfile, hnow⟩
      · show Run.run (World.step lib.suffixStr) w (JarEvent.mergeResponse s c url :: _) = some w'
        rw [Run.run_cons, hstep]
        exact hrun
      · rw [hjar, hline]
        rfl

/-- **One call by itself** is its steps on the shared jar, one after the other. -/
theorem persistSetCookies_run {S : Type} [DecidableEq S] {w : World S} {s : S} (hs : w.sessions s = none)
    {lines : List String} {url : Url} {hop : Hop} {file : JarFile}
    (hm : hop.mergeFile = w.file ∧ hop.mergeNow = w.now)
    (hp : hop.persistFile = w.file ∧ hop.persistNow = w.now)
    (h : persistSetCookies lib w.path lines url hop = .ok (some file)) :
    ∃ w', Run.run (World.step lib.suffixStr) w
        (Profile.persistSetCookies lib.parseCookie s ⟨lines, url, hop.io⟩) = some w' ∧ w'.file = file := by
  unfold persistSetCookies at h
  split at h
  · cases h
  · next hlines =>
    rw [hm.1, hm.2, hp.1, hp.2] at h
    obtain ⟨jar, hload, h⟩ := except_bind_ok h
    obtain ⟨_, hpersist, h⟩ := except_bind_ok h
    cases h
    have hstart : w.step lib.suffixStr (.load s) = some (w.setSession s (some ⟨jar, jar.entries, []⟩)) := by
      simp only [World.step, hs, hload]
    obtain ⟨w', x', hrun, hx', hjar, -, hfile, hnow⟩ :=
      run_mergeLines lib url lines (World.setSession_self w s (some ⟨jar, jar.entries, []⟩))
    have hlast : w'.step lib.suffixStr (.persist s hop.io) =
        some { w'.setSession s none with file := file, log := w'.log ++ [⟨w'.now, x'.accepted⟩] } := by
      have hpersist' : x'.jar.persist w'.now hop.io w'.file = .ok file := by
        rw [hjar, hnow, hfile]
        exact hpersist
      simp only [World.step, hx', Option.map_some, hpersist']
    refine ⟨{ w'.setSession s none with file := file, log := w'.log ++ [⟨w'.now, x'.accepted⟩] }, ?_, rfl⟩
    unfold Profile.persistSetCookies
    rw [if_neg hlines, List.cons_append, Run.run_cons, hstart, Option.bind_some, Run.run_append, hrun,
      Option.bind_some, Run.run_cons, hlast]
    rfl

end

end Afhttp.Fetch

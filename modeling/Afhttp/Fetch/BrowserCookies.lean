import Afhttp.Fetch.HopCookies

/-!
# The jar and the browser's cookies

The browser path of a fetch with a jar: `browser_path` merges the jar's cookies into the
options and keeps the snapshot, `apply_browser_request_options` installs them
(`sdk/fetch/pipeline/browser/mod.rs`), and after the navigation
`sync_browser_cookies_to_jar` (`cookie_jar_resolve.rs`) merges what the browser holds for the
final URL, but for what the snapshot holds unchanged.

A field of a JSON object is what its accessor reads: none where it is absent or of another
type.  A double is the rational it is.
-/

namespace Afhttp.Fetch

open Profile Text

/-! ## To the browser -/

/-- One parameter of `Network.setCookies`. -/
structure CookieParam where
  name : String
  value : String
  url : String
  domain : Option String
  path : Option String
  secure : Option Bool
  httpOnly : Option Bool
  sameSite : Option String
  expires : Option Int
  /-- Its `topLevelSite`; `hasCrossSiteAncestor` is false. -/
  partitionKey : Option String
  deriving DecidableEq

def cdpSameSite : SameSite → String
  | .strict => "Strict"
  | .lax => "Lax"
  | .none => "None"

def cookieTopLevelSite (url : Url) : String :=
  let host := url.hostStr.getD ""
  s!"{url.scheme}://{host}"

def cdpCookieParam (cookie : PreparedCookie) (url : Url) : CookieParam where
  name := cookie.name
  value := cookie.value
  url := url.serialization
  domain := cookie.domain
  path := cookie.path
  secure :=
    if cookie.secure.isSome || effectiveCookieSecure cookie then some (effectiveCookieSecure cookie) else none
  httpOnly := cookie.httpOnly
  sameSite := cookie.sameSite.map cdpSameSite
  expires := cookie.expiresEpochS
  partitionKey := if cookie.partitioned = some true then some (cookieTopLevelSite url) else none

def PreparedRequestOptions.browserCookies (options : PreparedRequestOptions) : List PreparedCookie :=
  if options.rawCookieHeader.isSome then options.rawCookiePairs else options.cookies

section
variable (lib : HttpLib)

def cookieParams (now : Int) (url : Url) : List PreparedCookie → Except Error (List CookieParam)
  | [] => .ok []
  | cookie :: cookies => do
    validateCookieScope lib cookie url ".cookie(...)"
    let params ← cookieParams now url cookies
    if effectiveCookieSecure cookie && url.scheme != "https" then return params
    else if cookieIsExpired now cookie then return params
    else return cdpCookieParam cookie url :: params

/-- The cookies that `apply_browser_request_options` installs. -/
def installedCookies (now : Int) (options : PreparedRequestOptions) (url : String) :
    Except Error (List CookieParam) :=
  if options.browserCookies = [] then .ok []
  else do
    let url ← parseCookieUrl lib url
    cookieParams lib now url options.browserCookies

/-- What `browser_path` takes from the jar, and the snapshot it keeps.  A jar that cannot be
read is no jar. -/
def injectJar (builder : FetchBuilder) (options : PreparedRequestOptions) (now : Int) (file : JarFile) :
    PreparedRequestOptions × Option CookieJar :=
  match builder.cookieJar.path, lib.parseUrl builder.url with
  | some jarPath, .ok url =>
    match CookieJar.load jarPath file with
    | .ok jar =>
      let prepared := (jar.applicableCookies now url).filterMap fun c =>
        (prepareCookie lib now c "cookie_jar").toOption
      (options.mergeJarCookies lib prepared, some jar)
    | .error _ => (options, none)
  | _, _ => (options, none)

end

/-! ## From the browser -/

/-- One cookie of the list that `Network.getCookies` answers. -/
structure CdpCookie where
  name : Option String
  value : Option String
  domain : Option String
  path : Option String
  secure : Option Bool
  httpOnly : Option Bool
  sameSite : Option String
  expires : Option ℚ
  deriving DecidableEq

/-- `as i64`: towards zero, within the range. -/
def toI64 (x : ℚ) : Int := max i64Min (min i64Max (x.num.tdiv x.den))

/-- A date that `from_unix_timestamp` accepts. -/
def cdpExpiration (expires : Option ℚ) : Option Expiration :=
  match expires with
  | some s => if 0 < s ∧ JarEntry.dateInRange (toI64 s) = true then some (.dateTime (toI64 s)) else none
  | none => none

/-- CDP writes a domain cookie with a leading dot, a host-only one with the bare host. -/
def cdpCookieToSetCookie (entry : CdpCookie) : Option Cookie :=
  match entry.name, entry.value with
  | some name, some value =>
    some { Cookie.build name value with
      domain := (entry.domain.filter (startsWith · ".")).map fun d => (stripPrefix d ".").getD d
      path := entry.path.filter (· ≠ "")
      secure := if entry.secure.getD false then some true else none
      httpOnly := if entry.httpOnly.getD false then some true else none
      expires := cdpExpiration entry.expires
      sameSite :=
        match entry.sameSite with
        | some "Strict" => some .strict
        | some "Lax" => some .lax
        | some "None" => some .none
        | _ => none }
  | _, _ => none

section
variable (suffixStr : String → Option String) (now : Int) (finalUrl : Url) (injected : Option CookieJar)

/-- One cookie of the list: the jar, and how many it has refused. -/
def mergeBrowserCookie (acc : CookieJar × ℕ) (entry : CdpCookie) : CookieJar × ℕ :=
  match cdpCookieToSetCookie entry with
  | none => acc
  | some c =>
    if injected.any (·.holdsUnchanged now c finalUrl) then acc
    else
      let r := acc.1.merge suffixStr now c finalUrl
      (r.1, if r.2 then acc.2 else acc.2 + 1)

def mergeBrowserCookies (jar : CookieJar) (cookies : List CdpCookie) : CookieJar × ℕ :=
  cookies.foldl (mergeBrowserCookie suffixStr now finalUrl injected) (jar, 0)

end

/-- What a sync meets, in this order. -/
structure BrowserSync where
  /-- `cookies` of the answer, where it is an array. -/
  answer : Except Error (Option (List CdpCookie))
  loadFile : JarFile
  mergeNow : Int
  /-- The error of the blocking task that writes the jar. -/
  taskFault : Option String
  persistFile : JarFile
  persistNow : Int
  io : CookieJar.PersistCall → Option String

/-- The file it writes, if it writes one, and how many cookies the jar refused. -/
def syncBrowserCookiesToJar (lib : HttpLib) (finalUrl : String) (jarPath : JarPath)
    (injected : Option CookieJar) (sync : BrowserSync) : Except Error (Option JarFile × ℕ) :=
  match lib.parseUrl finalUrl with
  | .error e => .error (.new .internalError s!"cookie jar sync: parse final_url {lib.fmt.str finalUrl}: {e}")
  | .ok url => do
    match ← sync.answer with
    | none => return (none, 0)
    | some cookies =>
      if cookies = [] then return (none, 0)
      else
        let jar ← CookieJar.load jarPath sync.loadFile
        let merged := mergeBrowserCookies lib.suffixStr sync.mergeNow url injected jar cookies
        match sync.taskFault with
        | some e => throw (.new .internalError s!"cookie jar write task failed: {e}")
        | none =>
          let file ← merged.1.persist sync.persistNow sync.io sync.persistFile
          return (some file, merged.2)

/-! ## The jar's side of a sync -/

section
variable (lib : HttpLib) {S : Type} [DecidableEq S]

/-- The merges of a list, as events of a session on the jar. -/
def mergeEvents (s : S) (now : Int) (url : Url) (injected : Option CookieJar) (cookies : List CdpCookie) :
    List (JarEvent S) :=
  cookies.filterMap fun entry => (cdpCookieToSetCookie entry).bind fun c =>
    if injected.any (·.holdsUnchanged now c url) then none else some (.merge s c url)

/-- The cookies are merged one by one, and nothing else changes. -/
theorem run_mergeEvents {s : S} (url : Url) (injected : Option CookieJar) (cookies : List CdpCookie) {w : World S}
    {x : Session} (hx : w.sessions s = some x) (rejected : ℕ) :
    ∃ w' x', Run.run (World.step lib.suffixStr) w (mergeEvents s w.now url injected cookies) = some w' ∧
      w'.sessions s = some x' ∧
      x'.jar = (cookies.foldl (mergeBrowserCookie lib.suffixStr w.now url injected) (x.jar, rejected)).1 ∧
      w'.file = w.file ∧ w'.now = w.now := by
  induction cookies generalizing w x rejected with
  | nil => exact ⟨w, x, rfl, hx, rfl, rfl, rfl⟩
  | cons entry cookies ih =>
    rw [List.foldl_cons]
    unfold mergeEvents
    cases hc : cdpCookieToSetCookie entry with
    | none =>
      have hskip : mergeBrowserCookie lib.suffixStr w.now url injected (x.jar, rejected) entry =
          (x.jar, rejected) := by
        unfold mergeBrowserCookie
        rw [hc]
      rw [List.filterMap_cons_none (by rw [hc]; rfl), hskip]
      exact ih hx rejected
    | some c =>
      by_cases hh : injected.any (·.holdsUnchanged w.now c url) = true
      · have hskip : mergeBrowserCookie lib.suffixStr w.now url injected (x.jar, rejected) entry =
            (x.jar, rejected) := by
          unfold mergeBrowserCookie
          rw [hc]
          exact if_pos hh
        rw [List.filterMap_cons_none (by rw [hc]; exact if_pos hh), hskip]
        exact ih hx rejected
      · have hmerge : ∃ rejected', mergeBrowserCookie lib.suffixStr w.now url injected (x.jar, rejected) entry =
            ((x.jar.merge lib.suffixStr w.now c url).1, rejected') := by
          unfold mergeBrowserCookie
          rw [hc]
          simp only [if_neg hh]
          exact ⟨_, rfl⟩
        obtain ⟨rejected', hmerge⟩ := hmerge
        have hstep : w.step lib.suffixStr (.merge s c url) = some (w.afterMerge s x
            (.fromSetCookie w.now c url) (x.jar.merge lib.suffixStr w.now c url)) := by
          show (w.sessions s).map _ = _
          rw [hx]
          rfl
        rw [List.filterMap_cons_some (by rw [hc]; exact if_neg hh), hmerge, Run.run_cons, hstep]
        exact ih (World.setSession_self w s _) rejected'

/-- **One sync by itself** is its steps on the shared jar, one after the other. -/
theorem syncBrowserCookies_run {w : World S} {s : S} (hs : w.sessions s = none) {finalUrl : String} {url : Url}
    (hu : lib.parseUrl finalUrl = .ok url) {injected : Option CookieJar} {sync : BrowserSync}
    {cookies : List CdpCookie} (ha : sync.answer = .ok (some cookies))
    (hm : sync.loadFile = w.file ∧ sync.mergeNow = w.now)
    (hp : sync.persistFile = w.file ∧ sync.persistNow = w.now) {file : JarFile} {rejected : ℕ}
    (h : syncBrowserCookiesToJar lib finalUrl w.path injected sync = .ok (some file, rejected)) :
    ∃ w', Run.run (World.step lib.suffixStr) w
        (.load s :: mergeEvents s w.now url injected cookies ++ [.persist s sync.io]) = some w' ∧
      w'.file = file := by
  unfold syncBrowserCookiesToJar at h
  rw [hu, hm.1, hm.2, hp.1, hp.2] at h
  simp only [ha] at h
  obtain ⟨answer, hans, h⟩ := except_bind_ok h
  cases hans
  simp only [] at h
  split at h
  · cases h
  · obtain ⟨jar, hload, h⟩ := except_bind_ok h
    cases hf : sync.taskFault with
    | some e =>
      rw [hf] at h
      cases h
    | none =>
      rw [hf] at h
      obtain ⟨_, hpersist, h⟩ := except_bind_ok h
      cases h
      have hstart : w.step lib.suffixStr (.load s) = some (w.setSession s (some ⟨jar, jar.entries, []⟩)) := by
        simp only [World.step, hs, hload]
      obtain ⟨w', x', hrun, hx', hjar, hfile, hnow⟩ := run_mergeEvents lib url injected cookies
        (World.setSession_self w s (some ⟨jar, jar.entries, []⟩)) 0
      have hlast : w'.step lib.suffixStr (.persist s sync.io) =
          some { w'.setSession s none with file := file, log := w'.log ++ [⟨w'.now, x'.accepted⟩] } := by
        have hpersist' : x'.jar.persist w'.now sync.io w'.file = .ok file := by
          rw [hjar, hnow, hfile]
          exact hpersist
        simp only [World.step, hx', Option.map_some, hpersist']
      refine ⟨{ w'.setSession s none with file := file, log := w'.log ++ [⟨w'.now, x'.accepted⟩] }, ?_, rfl⟩
      have hmerges : Run.run (World.step lib.suffixStr) (w.setSession s (some ⟨jar, jar.entries, []⟩))
          (mergeEvents s w.now url injected cookies) = some w' := hrun
      rw [List.cons_append, Run.run_cons, hstart, Option.bind_some, Run.run_append, hmerges, Option.bind_some,
        Run.run_cons, hlast]
      rfl

end

end Afhttp.Fetch

import Afhttp.Lib.Overlay
import Afhttp.Shared.Error
import Afhttp.Shared.Url
import Mathlib.Algebra.Group.Int.Defs

/-!
# The cookie jar

`sdk/profile/cookie_jar.rs`: one jar file per profile, loaded before a request,
merged with the `Set-Cookie` lines of the response, and persisted under a lock.
A loaded jar is a snapshot; `updated` holds the indices of the entries merged since.

The public-suffix list is a parameter `suffixStr` (`psl::suffix_str`), the clock an
argument `now`.  Results, for the run modules:

    merge = write of one entry, if the response may set it                    (merge_eq)
    persist = overlay of the changed entries, then prune                      (persist_ok)
    two entries are the same cookie iff their identities are equal            (sameIdentity_iff)
-/

namespace Afhttp.Profile

open Text

/-! ## Cookies -/

inductive SameSite where
  | strict | lax | none
  deriving DecidableEq, Repr

/-- `cookie::Expiration`: a date in unix seconds, or the end of the session. -/
inductive Expiration where
  | dateTime (unixTimestamp : Int)
  | session
  deriving DecidableEq, Repr

/-- `cookie::time::Duration`: whole seconds, and nanoseconds of the same sign. -/
structure Duration where
  wholeSeconds : Int
  subsecNanoseconds : Int
  deriving DecidableEq, Repr

def Duration.isPositive (d : Duration) : Bool := 0 < d.wholeSeconds || 0 < d.subsecNanoseconds

/-- A `cookie::Cookie`, as its accessors report it (`domain` without one leading dot). -/
structure Cookie where
  name : String
  value : String
  domain : Option String
  path : Option String
  maxAge : Option Duration
  expires : Option Expiration
  secure : Option Bool
  httpOnly : Option Bool
  sameSite : Option SameSite
  partitioned : Option Bool
  deriving DecidableEq, Repr

/-- `Cookie::build((name, value))`. -/
def Cookie.build (name value : String) : Cookie :=
  ⟨name, value, none, none, none, none, none, none, none, none⟩

structure JarEntry where
  name : String
  value : String
  domain : Option String
  hostOnly : Bool
  path : Option String
  expiresEpochS : Option Int
  secure : Bool
  httpOnly : Bool
  sameSite : Option String
  deriving DecidableEq, Repr

def i64Max : Int := 2 ^ 63 - 1

def i64Min : Int := -2 ^ 63

def saturatingAdd (a b : Int) : Int := max i64Min (min i64Max (a + b))

/-! ## Matching -/

def domainMatches (cookieDomain : Option String) (hostOnly : Bool) (host : String) : Bool :=
  let host := canon host
  match cookieDomain with
  | some d =>
    let d := canon d
    if hostOnly then host == d else host == d || endsWith host ("." ++ d)
  | none => false

def pathMatches (cookiePath : Option String) (requestPath : String) : Bool :=
  let cp := cookiePath.getD "/"
  if cp == requestPath then true
  else
    match stripPrefix requestPath cp with
    | some rest => endsWith cp "/" || startsWith rest "/"
    | none => false

/-- The directory of the request path. -/
def defaultPath (url : Url) : String :=
  let path := url.path
  if !startsWith path "/" then "/"
  else
    match beforeLast '/' path with
    | some dir => if dir == "" then "/" else dir
    | none => "/"

namespace JarEntry

def sameIdentity (e other : JarEntry) : Bool :=
  e.name == other.name &&
    eqIgnoreAsciiCase (e.domain.getD "") (other.domain.getD "") &&
    e.path.getD "/" == other.path.getD "/"

def isExpired (e : JarEntry) (now : Int) : Bool :=
  match e.expiresEpochS with
  | some t => t ≤ now
  | none => false

/-- The entry a response to `requestUrl` stores.  `Max-Age` outranks `Expires`; a
`Path` that does not start with `/` counts as absent. -/
def fromSetCookie (now : Int) (c : Cookie) (requestUrl : Url) : JarEntry where
  name := c.name
  value := c.value
  domain := (c.domain.map canon).or requestUrl.hostStr
  hostOnly := c.domain.isNone
  path := (c.path.filter (startsWith · "/")).or (some (defaultPath requestUrl))
  expiresEpochS :=
    match c.maxAge with
    | some age => if age.isPositive then some (saturatingAdd now age.wholeSeconds) else some 0
    | none =>
      match c.expires with
      | some (.dateTime t) => some t
      | _ => none
  secure := c.secure.getD false
  httpOnly := c.httpOnly.getD false
  sameSite := c.sameSite.map fun
    | .strict => "Strict"
    | .lax => "Lax"
    | .none => "None"

/-- The years `OffsetDateTime::from_unix_timestamp` accepts: -9999 to 9999. -/
def dateInRange (t : Int) : Bool := -377705116800 ≤ t && t ≤ 253402300799

def toCookie (e : JarEntry) : Cookie :=
  { Cookie.build e.name e.value with
    domain := if e.hostOnly then none else e.domain.map fun d => (stripPrefix d ".").getD d
    path := e.path
    secure := if e.secure then some true else none
    httpOnly := if e.httpOnly then some true else none
    expires := (e.expiresEpochS.filter dateInRange).map .dateTime
    sameSite :=
      match e.sameSite with
      | some "Strict" => some .strict
      | some "Lax" => some .lax
      | some "None" => some .none
      | _ => none }

def sameContent (e other : JarEntry) : Bool :=
  e.sameIdentity other && e.value == other.value && e.hostOnly == other.hostOnly &&
    e.expiresEpochS == other.expiresEpochS && e.secure == other.secure && e.httpOnly == other.httpOnly

end JarEntry

/-! ## The jar -/

/-- The jar's path, its parent directory and its `.lock` sibling. -/
structure JarPath where
  display : String
  parent : Option String
  lock : String
  deriving DecidableEq, Repr

/-- What reading the jar's path gives. -/
inductive JarFile where
  | notFound
  | unreadable (error : String)
  | empty
  | malformed (error : String)
  | entries (list : List JarEntry)
  deriving DecidableEq, Repr

structure CookieJar where
  path : JarPath
  entries : List JarEntry
  updated : Finset ℕ
  deriving DecidableEq

namespace CookieJar

def load (path : JarPath) (file : JarFile) : Except Error CookieJar :=
  match file with
  | .empty | .notFound => .ok ⟨path, [], ∅⟩
  | .entries list => .ok ⟨path, list, ∅⟩
  | .malformed e => .error (.new .ioError s!"cookie jar {path.display}: parse error: {e}")
  | .unreadable e => .error (.new .ioError s!"cookie jar {path.display}: read error: {e}")

/-- The entries sent with a request for `url`. -/
def applicableEntries (now : Int) (jar : CookieJar) (url : Url) : List JarEntry :=
  let host := url.hostStr.getD ""
  let https := url.scheme == "https"
  jar.entries.filter fun e =>
    !e.isExpired now && (!e.secure || https) && domainMatches e.domain e.hostOnly host &&
      pathMatches e.path url.path

def applicableCookies (now : Int) (jar : CookieJar) (url : Url) : List Cookie :=
  (jar.applicableEntries now url).map JarEntry.toCookie

/-- Whether the jar holds `cookie` exactly as `requestUrl` would store it. -/
def holdsUnchanged (now : Int) (jar : CookieJar) (cookie : Cookie) (requestUrl : Url) : Bool :=
  let entry := JarEntry.fromSetCookie now cookie requestUrl
  jar.entries.any (·.sameContent entry)

section
variable (suffixStr : String → Option String)

/-- Whether a response from `host` may set a cookie for `cookieDomain`. -/
def maySetDomain (cookieDomain : Option String) (host : String) : Bool :=
  match cookieDomain with
  | none => true
  | some domain =>
    let domain := canon domain
    let host := canon host
    -- a trailing dot would hide the suffix from the list
    if domain == "" || endsWith domain "." then false
    else if parsesAsIpAddr host then false
    else if !contains domain '.' || suffixStr domain == some domain then false
    else host == domain || endsWith host ("." ++ domain)

/-- Merge a `Set-Cookie` into the jar in memory; `false` when it is refused. -/
def merge (now : Int) (jar : CookieJar) (setCookie : Cookie) (requestUrl : Url) : CookieJar × Bool :=
  match requestUrl.hostStr with
  | none => (jar, false)
  | some host =>
    if !maySetDomain suffixStr setCookie.domain host then (jar, false)
    else
      let entry := JarEntry.fromSetCookie now setCookie requestUrl
      match jar.entries.findIdx? (·.sameIdentity entry) with
      | some idx =>
        ({ jar with entries := jar.entries.set idx entry, updated := insert idx jar.updated }, true)
      | none =>
        ({ jar with
            entries := jar.entries ++ [entry]
            updated := insert jar.entries.length jar.updated }, true)

/-- `merge` for a `Set-Cookie` of an HTTP response. -/
def mergeResponse (now : Int) (jar : CookieJar) (setCookie : Cookie) (requestUrl : Url) :
    CookieJar × Bool :=
  let entry := JarEntry.fromSetCookie now setCookie requestUrl
  if requestUrl.scheme ≠ "https" ∧ setCookie.secure = some true then (jar, false)
  else if requestUrl.scheme ≠ "https" ∧
      jar.entries.any (fun existing => existing.secure && existing.sameIdentity entry) then (jar, false)
  else jar.merge suffixStr now setCookie requestUrl

end

def pruneExpired (now : Int) (entries : List JarEntry) : List JarEntry :=
  entries.filter fun e => !e.isExpired now

def parentDir (path : JarPath) : Except Error String :=
  match path.parent with
  | some dir => .ok dir
  | none => .error (.new .ioError s!"cookie jar {path.display} has no parent dir")

/-- The calls of `persist` that the system may fail. -/
inductive PersistCall where
  | createDirAll | openLock | lockExclusive | serialize | atomicWrite
  deriving DecidableEq, Repr

/-- One call: its system error, if any, becomes `mkError` of it. -/
def attempt (io : PersistCall → Option String) (call : PersistCall) (mkError : String → String) :
    Except Error Unit :=
  match io call with
  | some e => .error (.new .ioError (mkError e))
  | none => .ok ()

/-- The entry at `index`, if merged since the load, replaces the first entry of its
identity or is pushed. -/
def overlayUpdated (updated : Finset ℕ) (merged : List JarEntry) (p : JarEntry × ℕ) : List JarEntry :=
  if p.2 ∈ updated then
    match merged.findIdx? (·.sameIdentity p.1) with
    | some idx => merged.set idx p.1
    | none => merged ++ [p.1]
  else merged

/-- Under the lock: re-read the file, overlay the updated entries, prune, replace the file. -/
def persist (now : Int) (io : PersistCall → Option String) (jar : CookieJar) (file : JarFile) :
    Except Error JarFile := do
  let parent ← parentDir jar.path
  attempt io .createDirAll fun e => s!"create cookie jar dir {parent}: {e}"
  attempt io .openLock fun e => s!"open cookie jar lock {jar.path.lock}: {e}"
  attempt io .lockExclusive fun e => s!"acquire cookie jar lock {jar.path.lock}: {e}"
  let onDisk ← load jar.path file
  let merged := jar.entries.zipIdx.foldl (overlayUpdated jar.updated) onDisk.entries
  let entries := pruneExpired now merged
  attempt io .serialize fun e => s!"serialize cookie jar: {e}"
  attempt io .atomicWrite fun e => s!"write cookie jar {jar.path.display}: {e}"
  return .entries entries

end CookieJar

/-! ## Identity -/

/-- The key of a cookie: its name, domain and path, an absent domain as `""`, an absent
path as `/`. -/
def JarEntry.identity (e : JarEntry) : String × String × String :=
  (e.name, toAsciiLowercase (e.domain.getD ""), e.path.getD "/")

theorem JarEntry.sameIdentity_iff (e other : JarEntry) :
    e.sameIdentity other = true ↔ e.identity = other.identity := by
  simp only [JarEntry.sameIdentity, JarEntry.identity, Bool.and_eq_true, beq_iff_eq,
    eqIgnoreAsciiCase_iff, Prod.mk.injEq]
  exact and_assoc

theorem sameIdentity_eq (entry : JarEntry) :
    (fun e : JarEntry => e.sameIdentity entry) = fun e => decide (e.identity = entry.identity) := by
  funext e
  rw [Bool.eq_iff_iff, e.sameIdentity_iff, decide_eq_true_eq]

namespace CookieJar

/-- The jar as a snapshot with tracked changes. -/
def tracked (jar : CookieJar) : Overlay.Tracked JarEntry := ⟨jar.entries, jar.updated⟩

/-- The entries merged since the load. -/
def changed (jar : CookieJar) : List JarEntry := jar.tracked.changed

end CookieJar

/-- What a jar file holds, as far as `load` reads it. -/
def JarFile.list : JarFile → List JarEntry
  | .entries list => list
  | _ => []

theorem CookieJar.load_ok {path : JarPath} {file : JarFile} {jar : CookieJar}
    (h : load path file = .ok jar) : jar = ⟨path, file.list, ∅⟩ := by
  cases file <;> simp only [load, reduceCtorEq, Except.ok.injEq] at h <;> exact h.symm

/-! ## Merging and persisting, on the snapshot -/

section
variable (suffixStr : String → Option String)

/-- **One merge.**  It is refused and changes nothing, or writes the response's entry. -/
theorem CookieJar.merge_cases (now : Int) (jar : CookieJar) (c : Cookie) (u : Url) :
    merge suffixStr now jar c u = (jar, false) ∨
    ∃ host, u.hostStr = some host ∧ maySetDomain suffixStr c.domain host = true ∧
      (merge suffixStr now jar c u).2 = true ∧
      (merge suffixStr now jar c u).1.path = jar.path ∧
      (merge suffixStr now jar c u).1.tracked =
        jar.tracked.write JarEntry.identity (.fromSetCookie now c u) := by
  unfold merge
  cases hh : u.hostStr with
  | none => exact Or.inl rfl
  | some host =>
    simp only []
    by_cases hm : maySetDomain suffixStr c.domain host = true
    · right
      refine ⟨host, rfl, hm, ?_⟩
      rw [hm, sameIdentity_eq]
      unfold tracked Overlay.Tracked.write
      simp only [Bool.not_true, Bool.false_eq_true, if_false]
      split <;> next hf => simp [hf]
    · left
      rw [if_pos (by simpa using hm)]

/-- **One merge of a response.**  A plaintext response writes no `Secure` entry, and
none of the identity of a `Secure` entry of the snapshot. -/
theorem CookieJar.mergeResponse_cases (now : Int) (jar : CookieJar) (c : Cookie) (u : Url) :
    mergeResponse suffixStr now jar c u = (jar, false) ∨
    (mergeResponse suffixStr now jar c u = merge suffixStr now jar c u ∧
      (u.scheme ≠ "https" → c.secure ≠ some true ∧ ∀ existing ∈ jar.entries,
        existing.secure = true → existing.identity ≠ (JarEntry.fromSetCookie now c u).identity)) := by
  unfold mergeResponse
  simp only []
  split
  · exact Or.inl rfl
  · next h1 =>
    split
    · exact Or.inl rfl
    · next h2 =>
      refine Or.inr ⟨rfl, fun hs => ⟨fun hc => h1 ⟨hs, hc⟩, fun existing he hsec hid => h2 ⟨hs, ?_⟩⟩⟩
      rw [List.any_eq_true]
      exact ⟨existing, he, by rw [hsec, Bool.true_and, existing.sameIdentity_iff, hid]⟩

end

theorem foldl_overlayUpdated (updated : Finset ℕ) (l : List (JarEntry × ℕ)) (merged : List JarEntry) :
    l.foldl (CookieJar.overlayUpdated updated) merged =
      Overlay.overlay JarEntry.identity merged
        ((l.filter fun p => decide (p.2 ∈ updated)).map Prod.fst) := by
  induction l generalizing merged with
  | nil => rfl
  | cons p l ih =>
    rw [List.foldl_cons, ih]
    unfold CookieJar.overlayUpdated
    by_cases hp : p.2 ∈ updated
    · rw [if_pos hp, List.filter_cons_of_pos (by simpa using hp), List.map_cons, sameIdentity_eq]
      rfl
    · rw [if_neg hp, List.filter_cons_of_neg (by simpa using hp)]

theorem except_bind_ok {ε α β : Type} {x : Except ε α} {f : α → Except ε β} {b : β}
    (h : (x >>= f) = .ok b) : ∃ a, x = .ok a ∧ f a = .ok b := by
  cases x with
  | error e => cases h
  | ok a => exact ⟨a, rfl, h⟩

/-- **One persist.**  The changed entries go over what the file holds by then. -/
theorem CookieJar.persist_ok {now : Int} {io : PersistCall → Option String} {jar : CookieJar}
    {file file' : JarFile} (h : persist now io jar file = .ok file') :
    file' = .entries (pruneExpired now (Overlay.overlay JarEntry.identity file.list jar.changed)) := by
  unfold persist at h
  obtain ⟨parent, -, h⟩ := except_bind_ok h
  obtain ⟨_, -, h⟩ := except_bind_ok h
  obtain ⟨_, -, h⟩ := except_bind_ok h
  obtain ⟨_, -, h⟩ := except_bind_ok h
  obtain ⟨onDisk, hl, h⟩ := except_bind_ok h
  obtain ⟨_, -, h⟩ := except_bind_ok h
  obtain ⟨_, -, h⟩ := except_bind_ok h
  rw [load_ok hl, foldl_overlayUpdated] at h
  exact (Except.ok.inj h).symm

/-! ## Inputs for the runs on fixed inputs -/

def samplePath : JarPath := ⟨"jar.json", some "", "jar.json.lock"⟩

def sampleUrl (scheme host path : String) : Url :=
  ⟨scheme, some (.domain host), none, path, scheme ++ "://" ++ host ++ path⟩

/-- No call of `persist` fails. -/
def noFault : CookieJar.PersistCall → Option String := fun _ => none

end Afhttp.Profile

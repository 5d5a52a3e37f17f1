import Afhttp.Host.Loopback
import Afhttp.Host.TakeoverQuery
import Afhttp.Host.TakeoverRuns
import Mathlib

/-!
# Who may reach a handler

`token_middleware` and `build_router` of `host/listener/mod.rs`.  The middleware looks at the path,
at three carriers of a credential and at the handoffs of the host, and lets a request on to the
router or answers it itself.

    the comparison of tokens is equality             (constantTimeEq_iff)
    what a request needs to be let on                (tokenMiddleware_run)
    ... and to reach a handler                       (handler_authorized)

What splits a `Cookie` header and what decodes a query are parameters, as is the time that a
credential has left.
-/

namespace Afhttp.Host

open Text

/-- What the middleware takes from other crates. -/
structure RequestLib where
  form : Form
  /-- `Cookie::split_parse`: the cookies that it can read. -/
  cookies : String → List (String × String)
  /-- `UiAccessToken::remaining_ttl`, in seconds. -/
  remainingTtl : UiAccessToken → Option ℕ

structure Request where
  method : String
  uri : Uri
  scheme : Option String
  headers : HeaderMap
  arrivedOverUnixSocket : Bool

def Request.path (req : Request) : String := req.uri.path

inductive HealthPublic where
  | off
  | minimal
  deriving DecidableEq

structure AppState (R : Type) where
  token : Option String
  healthPublic : HealthPublic
  takeoverEnabled : Bool
  takeover : TakeoverHost R

/-! ## Credentials of a request -/

def constantTimeEq (a b : List UInt8) : Bool :=
  if a.length ≠ b.length then false
  else ((a.zip b).foldl (fun diff p => diff ||| (p.1 ^^^ p.2)) 0) == 0

def asBytes (s : String) : List UInt8 := s.toByteArray.data.toList

def bearerToken (req : Request) : Option String :=
  (req.headers.get "authorization").bind fun h => h.toStr.bind fun s =>
    (stripPrefix s "Bearer ").or (stripPrefix s "bearer ")

def queryToken (lib : RequestLib) (req : Request) : Option String :=
  req.uri.query.bind fun q => ((lib.form.parse q).find? fun p => p.1 == "token_secret").map (·.2)

def suppliedLongToken (lib : RequestLib) (req : Request) (acceptQuery : Bool) : Option String :=
  (bearerToken req).or (if acceptQuery then queryToken lib req else none)

def handoffHeader (headers : HeaderMap) : Option String :=
  (headers.get "authorization").bind fun h => h.toStr.bind fun s => stripPrefix s "Handoff "

def takeoverHandoffCookie : String := "afhttp_handoff"

def cookieHandoff (lib : RequestLib) (req : Request) : Option String :=
  (req.headers.get "cookie").bind fun h => h.toStr.bind fun s =>
    ((lib.cookies s).find? fun c => c.1 == takeoverHandoffCookie).map (·.2)

/-- What `takeover_handoff_auth` looks at: the header, else the query, else the cookie. -/
def handoffSecret (lib : RequestLib) (req : Request) : Option String :=
  ((handoffHeader req.headers).or (queryHandoff lib.form req.uri)).or (cookieHandoff lib req)

def requestScheme (req : Request) : String :=
  req.scheme.getD ((((req.headers.get "x-forwarded-proto").bind HeaderValue.toStr).map fun v =>
    trim (beforeFirst ',' v)).filter (· == "https") |>.getD "http")

structure HandoffAuth where
  secret : String
  remainingS : ℕ
  secureCookie : Bool
  deriving DecidableEq, Repr

variable {R : Type}

/-- The credential, and the list without the dead ones. -/
def takeoverHandoffAuth (ui : UiAccess) (lib : RequestLib) (s : TakeoverHost R) (req : Request) :
    Option HandoffAuth × TakeoverHost R :=
  match handoffSecret lib req with
  | none => (none, s)
  | some secret =>
    ((s.authorizing ui secret).bind fun token => (lib.remainingTtl token).map fun ttl =>
      ⟨secret, max ttl 1, requestScheme req == "https"⟩, s.retainLive)

/-! ## The middleware -/

/-- What a request carries on to its handler, and whether the response sets the panel's cookie. -/
structure RequestInfo where
  authenticated : Bool
  handoff : Option HandoffAuth
  setsCookie : Bool
  deriving DecidableEq, Repr

inductive Verdict where
  | run (info : RequestInfo)
  | unauthorized
  | forbiddenOrigin
  deriving DecidableEq, Repr

def isTakeoverDisplayPath (path : String) : Bool := startsWith path "/takeover/" && path != "/takeover/handoff"

/-- On with the host's own token, or without one. -/
def RequestInfo.plain (authenticated : Bool) : RequestInfo := ⟨authenticated, none, false⟩

def isHostToken (expected : String) (supplied : Option String) : Bool :=
  supplied.any fun t => constantTimeEq (asBytes t) (asBytes expected)

/-- On the takeover paths. -/
def displayVerdict (ui : UiAccess) (lib : RequestLib) (state : AppState R) (req : Request) :
    Verdict × TakeoverHost R :=
  if state.token.any fun expected => isHostToken expected (bearerToken req) then
    (.run (.plain true), state.takeover)
  else
    match takeoverHandoffAuth ui lib state.takeover req with
    | (some handoff, s) => (.run ⟨true, some handoff, startsWith req.path "/takeover/panel"⟩, s)
    | (none, s) => (if state.token.isSome then .unauthorized else .run (.plain false), s)

/-- On the other paths. -/
def otherVerdict (lib : RequestLib) (state : AppState R) (req : Request) : Verdict :=
  match state.token with
  | none => .run (.plain false)
  | some expected =>
    if req.path == "/health" && state.healthPublic == .minimal then
      match suppliedLongToken lib req true with
      | some t => if constantTimeEq (asBytes t) (asBytes expected) then .run (.plain true) else .unauthorized
      | none => .run (.plain false)
    else
      match suppliedLongToken lib req true with
      | some t => if constantTimeEq (asBytes t) (asBytes expected) then .run (.plain true) else .unauthorized
      | none => .unauthorized

def tokenMiddleware (ui : UiAccess) (lib : RequestLib) (state : AppState R) (req : Request) :
    Verdict × TakeoverHost R :=
  if state.token.isNone && !req.arrivedOverUnixSocket && !reachableWithoutToken req.headers then
    (.forbiddenOrigin, state.takeover)
  else if isTakeoverDisplayPath req.path then displayVerdict ui lib state req
  else (otherVerdict lib state req, state.takeover)

/-! ## The router -/

inductive Handler where
  | health
  | capabilities
  | profile
  | recentRequests
  | diagnostics
  | cdp
  | takeoverHandoff
  | uiSessionCreate
  | uiSessionKeepAlive
  | uiSessionRevoke
  | displayProxy
  deriving DecidableEq, Repr

/-- `axum::routing::get` answers `HEAD` too. -/
def routingGet (handler : Handler) : List (String × Handler) := [("GET", handler), ("HEAD", handler)]

/-- The routes of one path each, by method. -/
def routes : List (String × List (String × Handler)) :=
  [("/health", routingGet .health),
    ("/capabilities", routingGet .capabilities),
    ("/profile", routingGet .profile),
    ("/recent-requests", routingGet .recentRequests),
    ("/diagnostics", routingGet .diagnostics),
    ("/cdp", routingGet .cdp),
    ("/takeover/handoff", [("POST", .takeoverHandoff)]),
    ("/takeover/ui-session",
      [("POST", .uiSessionCreate), ("PUT", .uiSessionKeepAlive), ("DELETE", .uiSessionRevoke)])]

/-- The panel, the panel with a slash, and `{*path}` behind it. -/
def isPanelRoute (path : String) : Bool := path == "/takeover/panel" || startsWith path "/takeover/panel/"

def buildRouter (takeoverEnabled : Bool) (method path : String) : Option Handler :=
  match routes.lookup path with
  | some methods => methods.lookup method
  | none => if takeoverEnabled && isPanelRoute path then some .displayProxy else none

/-- The handler that a request comes to, and what it carries there. -/
def serve (ui : UiAccess) (lib : RequestLib) (state : AppState R) (req : Request) :
    Option (Handler × RequestInfo) :=
  match (tokenMiddleware ui lib state req).1 with
  | .run info => (buildRouter state.takeoverEnabled req.method req.path).map fun h => (h, info)
  | _ => none

/-! ## What a request may carry -/

/-- The host's own token, as a bearer token or, off the takeover paths, in the query. -/
def CarriesToken (lib : RequestLib) (token : String) (req : Request) : Prop :=
  bearerToken req = some token ∨ (isTakeoverDisplayPath req.path = false ∧ queryToken lib req = some token)

/-- On a takeover path that mints no handoff, the secret of one that is neither revoked nor expired. -/
def CarriesHandoff (lib : RequestLib) (s : TakeoverHost R) (req : Request) : Prop :=
  startsWith req.path "/takeover/" ∧ req.path ≠ "/takeover/handoff" ∧ ∃ handoff ∈ s.handoffs,
    handoff.secret ∉ s.revoked ∧ handoff.secret ∉ s.expired ∧
      (handoffHeader req.headers = some handoff.secret ∨ queryHandoff lib.form req.uri = some handoff.secret ∨
        cookieHandoff lib req = some handoff.secret)

/-- The public health check, with no token, marked unauthenticated. -/
def PublicHealth (lib : RequestLib) (state : AppState R) (req : Request) (info : RequestInfo) : Prop :=
  req.path = "/health" ∧ state.healthPublic = .minimal ∧ suppliedLongToken lib req true = none ∧
    info = .plain false

/-! ## The comparison of tokens -/

theorem foldl_diff (l : List (UInt8 × UInt8)) (diff : UInt8) :
    l.foldl (fun diff p => diff ||| (p.1 ^^^ p.2)) diff = 0 ↔ diff = 0 ∧ ∀ p ∈ l, p.1 = p.2 := by
  induction l generalizing diff with
  | nil => simp
  | cons p l ih =>
    rw [List.foldl_cons, ih, UInt8.or_eq_zero_iff, UInt8.xor_eq_zero_iff]
    simp [and_assoc]

/-- The comparison looks at every byte, and is equality. -/
theorem constantTimeEq_iff (a b : List UInt8) : constantTimeEq a b = true ↔ a = b := by
  unfold constantTimeEq
  by_cases hlen : a.length = b.length
  · rw [if_neg (not_not.mpr hlen), beq_iff_eq, foldl_diff]
    constructor
    · rintro ⟨-, h⟩
      apply List.ext_getElem hlen
      intro i ha hb
      have hi : i < (a.zip b).length := by
        rw [List.length_zip]
        omega
      have := h _ (List.getElem_mem hi)
      simpa using this
    · rintro rfl
      refine ⟨rfl, fun p hp => ?_⟩
      obtain ⟨i, hi, rfl⟩ := List.getElem_of_mem hp
      simp
  · rw [if_pos hlen]
    constructor
    · intro h
      cases h
    · rintro rfl
      exact absurd rfl hlen

theorem asBytes_inj {s t : String} (h : asBytes s = asBytes t) : s = t := by
  apply String.toByteArray_inj.mp
  apply ByteArray.ext
  exact Array.toList_inj.mp h

theorem isHostToken_iff (expected : String) (supplied : Option String) :
    isHostToken expected supplied = true ↔ supplied = some expected := by
  unfold isHostToken
  match supplied with
  | none => simp
  | some t =>
    rw [Option.any_some, constantTimeEq_iff, Option.some.injEq]
    exact ⟨asBytes_inj, fun h => h ▸ rfl⟩

/-! ## Who is let on -/

/-- What the middleware accepts as a handoff is a live one of the list that the request carries. -/
theorem takeoverHandoffAuth_some {ui : UiAccess} (hui : ui.Exact) {lib : RequestLib} {s : TakeoverHost R}
    {req : Request} {auth : HandoffAuth} (h : (takeoverHandoffAuth ui lib s req).1 = some auth) :
    ∃ handoff ∈ s.handoffs, handoff.secret ∉ s.revoked ∧ handoff.secret ∉ s.expired ∧
      handoffSecret lib req = some handoff.secret := by
  unfold takeoverHandoffAuth at h
  match hsecret : handoffSecret lib req with
  | none =>
    rw [hsecret] at h
    cases h
  | some secret =>
    rw [hsecret] at h
    obtain ⟨token, htoken, -⟩ := Option.bind_eq_some_iff.mp h
    obtain ⟨hmem, hsec, hexpired, hrevoked⟩ := TakeoverHost.authorizing_some hui htoken
    subst hsec
    exact ⟨token, hmem, hrevoked, hexpired, rfl⟩

theorem handoffSecret_carrier {lib : RequestLib} {req : Request} {secret : String}
    (h : handoffSecret lib req = some secret) :
    handoffHeader req.headers = some secret ∨ queryHandoff lib.form req.uri = some secret ∨
      cookieHandoff lib req = some secret := by
  unfold handoffSecret at h
  rw [Option.or_eq_some_iff, Option.or_eq_some_iff] at h
  rcases h with (h | ⟨-, h⟩) | ⟨-, h⟩
  · exact Or.inl h
  · exact Or.inr (Or.inl h)
  · exact Or.inr (Or.inr h)

theorem displayVerdict_run {ui : UiAccess} (hui : ui.Exact) {lib : RequestLib} {state : AppState R}
    {token : String} (htoken : state.token = some token) {req : Request} {info : RequestInfo}
    (hpath : isTakeoverDisplayPath req.path = true) (h : (displayVerdict ui lib state req).1 = .run info) :
    CarriesToken lib token req ∨ CarriesHandoff lib state.takeover req := by
  unfold displayVerdict at h
  rw [htoken, Option.any_some] at h
  by_cases hbearer : isHostToken token (bearerToken req) = true
  · exact Or.inl (Or.inl ((isHostToken_iff token _).mp hbearer))
  · right
    rw [if_neg hbearer] at h
    match hauth : takeoverHandoffAuth ui lib state.takeover req with
    | (none, s) =>
      rw [hauth] at h
      cases h
    | (some auth, s) =>
      obtain ⟨handoff, hmem, hrevoked, hexpired, hsecret⟩ :=
        takeoverHandoffAuth_some hui (congrArg Prod.fst hauth)
      unfold isTakeoverDisplayPath at hpath
      rw [Bool.and_eq_true, bne_iff_ne] at hpath
      exact ⟨hpath.1, hpath.2, handoff, hmem, hrevoked, hexpired, handoffSecret_carrier hsecret⟩

theorem suppliedLongToken_carries {lib : RequestLib} {req : Request} {token : String}
    (hpath : isTakeoverDisplayPath req.path = false) (h : suppliedLongToken lib req true = some token) :
    CarriesToken lib token req := by
  unfold suppliedLongToken at h
  rcases Option.or_eq_some_iff.mp h with h | ⟨-, h⟩
  · exact Or.inl h
  · exact Or.inr ⟨hpath, h⟩

theorem otherVerdict_run {lib : RequestLib} {state : AppState R} {token : String}
    (htoken : state.token = some token) {req : Request} {info : RequestInfo}
    (hpath : isTakeoverDisplayPath req.path = false) (h : otherVerdict lib state req = .run info) :
    CarriesToken lib token req ∨ PublicHealth lib state req info := by
  have htaken : ∀ t v, suppliedLongToken lib req true = some t →
      (if constantTimeEq (asBytes t) (asBytes token) then v else Verdict.unauthorized) = .run info →
        CarriesToken lib token req := by
    intro t v ht hv
    by_cases heq : constantTimeEq (asBytes t) (asBytes token) = true
    · have e := asBytes_inj ((constantTimeEq_iff _ _).mp heq)
      exact suppliedLongToken_carries hpath (e ▸ ht)
    · rw [if_neg heq] at hv
      cases hv
  unfold otherVerdict at h
  rw [htoken] at h
  simp only at h
  by_cases hhealth : (req.path == "/health" && state.healthPublic == .minimal) = true
  · rw [if_pos hhealth] at h
    match hsup : suppliedLongToken lib req true with
    | some t =>
      rw [hsup] at h
      exact Or.inl (htaken t _ hsup h)
    | none =>
      rw [hsup] at h
      cases h
      rw [Bool.and_eq_true, beq_iff_eq, beq_iff_eq] at hhealth
      exact Or.inr ⟨hhealth.1, hhealth.2, hsup, rfl⟩
  · rw [if_neg hhealth] at h
    match hsup : suppliedLongToken lib req true with
    | some t =>
      rw [hsup] at h
      exact Or.inl (htaken t _ hsup h)
    | none =>
      rw [hsup] at h
      cases h

/-- **What a request needs to be let on.** -/
theorem tokenMiddleware_run {ui : UiAccess} (hui : ui.Exact) {lib : RequestLib} {state : AppState R}
    {token : String} (htoken : state.token = some token) {req : Request} {info : RequestInfo}
    (h : (tokenMiddleware ui lib state req).1 = .run info) :
    CarriesToken lib token req ∨ CarriesHandoff lib state.takeover req ∨ PublicHealth lib state req info := by
  unfold tokenMiddleware at h
  rw [if_neg (by simp [htoken])] at h
  by_cases hpath : isTakeoverDisplayPath req.path = true
  · rw [if_pos hpath] at h
    exact (displayVerdict_run hui htoken hpath h).imp_right Or.inl
  · rw [if_neg hpath] at h
    rw [Bool.not_eq_true] at hpath
    exact (otherVerdict_run htoken hpath h).imp_right Or.inr

/-! ## Who reaches a handler -/

theorem mem_of_lookup {α : Type} {key : String} {value : α} {l : List (String × α)}
    (h : l.lookup key = some value) : (key, value) ∈ l := by
  obtain ⟨l₁, l₂, rfl, -⟩ := List.lookup_eq_some_iff.mp h
  simp

/-- The paths of the handlers that no handoff reaches. -/
theorem buildRouter_path {takeoverEnabled : Bool} {method path : String} {handler : Handler}
    (h : buildRouter takeoverEnabled method path = some handler)
    (hhandler : handler ∈ [Handler.cdp, .profile, .diagnostics, .takeoverHandoff]) :
    path ∈ ["/cdp", "/profile", "/diagnostics", "/takeover/handoff"] := by
  have hroutes : ∀ route ∈ routes, ∀ m ∈ route.2,
      m.2 ∈ [Handler.cdp, .profile, .diagnostics, .takeoverHandoff] →
        route.1 ∈ ["/cdp", "/profile", "/diagnostics", "/takeover/handoff"] := by decide
  unfold buildRouter at h
  match hlookup : routes.lookup path with
  | some methods =>
    rw [hlookup] at h
    exact hroutes _ (mem_of_lookup hlookup) _ (mem_of_lookup h) hhandler
  | none =>
    rw [hlookup] at h
    simp only at h
    by_cases hpanel : (takeoverEnabled && isPanelRoute path) = true
    · rw [if_pos hpanel] at h
      cases h
      exact absurd hhandler (by decide)
    · rw [if_neg hpanel] at h
      cases h

theorem not_display_of_mem {path : String}
    (h : path ∈ ["/cdp", "/profile", "/diagnostics", "/takeover/handoff"]) :
    ¬ (startsWith path "/takeover/" = true ∧ path ≠ "/takeover/handoff") ∧ path ≠ "/health" := by
  have hall : ∀ p ∈ ["/cdp", "/profile", "/diagnostics", "/takeover/handoff"],
      ¬ (startsWith p "/takeover/" = true ∧ p ≠ "/takeover/handoff") ∧ p ≠ "/health" := by decide
  exact hall path h

/-- **Who may reach a handler.**  With a token configured: who carries it; on the takeover paths but
the one that mints handoffs, who carries a handoff that is neither revoked nor expired; and anyone
the public health check.  The protocol, the profile, the diagnostics and the minting of handoffs
take the token. -/
theorem handler_authorized {ui : UiAccess} (hui : ui.Exact) (lib : RequestLib) (state : AppState R)
    {token : String} (htoken : state.token = some token) (req : Request) {handler : Handler}
    {info : RequestInfo} (h : serve ui lib state req = some (handler, info)) :
    (CarriesToken lib token req ∨ CarriesHandoff lib state.takeover req ∨ PublicHealth lib state req info) ∧
      (handler ∈ [Handler.cdp, .profile, .diagnostics, .takeoverHandoff] → CarriesToken lib token req) := by
  unfold serve at h
  match hverdict : (tokenMiddleware ui lib state req).1 with
  | .unauthorized =>
    rw [hverdict] at h
    cases h
  | .forbiddenOrigin =>
    rw [hverdict] at h
    cases h
  | .run info' =>
    rw [hverdict] at h
    obtain ⟨handler', hroute, e⟩ := Option.map_eq_some_iff.mp h
    cases e
    have hcarries := tokenMiddleware_run hui htoken hverdict
    refine ⟨hcarries, fun hhandler => ?_⟩
    obtain ⟨hdisplay, hhealth⟩ := not_display_of_mem (buildRouter_path hroute hhandler)
    rcases hcarries with hc | hc | hc
    · exact hc
    · exact absurd ⟨hc.1, hc.2.1⟩ hdisplay
    · exact absurd hc.1 hhealth

/-- A host with a token, one handoff revoked and one live. -/
def sampleState : AppState Unit where
  token := some "token"
  healthPublic := .minimal
  takeoverEnabled := true
  takeover := { TakeoverHost.start Unit with
    handoffs := [⟨"old", .after 60⟩, ⟨"live", .after 60⟩], issued := {"old", "live"}, revoked := {"old"} }

def sampleLib : RequestLib := ⟨asciiForm, fun _ => [], fun _ => some 60⟩

/-- A panel request with the secret of the live one in its query. -/
def samplePanel : Request := ⟨"GET", ⟨"/takeover/panel/", some "handoff=live", by decide⟩, none, ⟨[]⟩, false⟩

theorem handler_authorized_panel :
    CarriesToken sampleLib "token" samplePanel ∨ CarriesHandoff sampleLib sampleState.takeover samplePanel ∨
      PublicHealth sampleLib sampleState samplePanel ⟨true, some ⟨"live", 60, false⟩, true⟩ := by
  have hui : UiAccess.Exact ⟨fun secret given => given == secret⟩ := fun secret given => beq_iff_eq
  have hserve : serve ⟨fun secret given => given == secret⟩ sampleLib sampleState samplePanel =
      some (.displayProxy, ⟨true, some ⟨"live", 60, false⟩, true⟩) := by decide
  exact (handler_authorized hui sampleLib sampleState rfl samplePanel hserve).1

end Afhttp.Host

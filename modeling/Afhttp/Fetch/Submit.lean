import Mathlib
import Afhttp.Fetch.BrowserPath
import Afhttp.Fetch.FromBuilder
import Afhttp.Fetch.HopCookies
import Afhttp.Fetch.HttpOnly
import Afhttp.Fetch.Intercept

/-!
# How often a request is submitted

`send_detailed` of `sdk/fetch/mod.rs` and `execute` of `sdk/fetch/pipeline/mod.rs`: the retries of
a fetch, and within one execution the step from the HTTP path to the browser.

What an execution meets is an `Attempt`: what each stage comes to, a deadline passed among it, the
answers to the HTTP requests, what the intercept is told, and how far the execution had got when
the outer timer dropped it.  An execution leaves what it has put on the wire (`Sent`) with its
result.  A redirect that the HTTP path follows is no submission of its own.

    one HTTP attempt submits once                            (httpOnly_once)
    one browser attempt submits once                         (browserFetch_once)
    an execution takes one of the two, if the method is
    neither GET nor HEAD                                     (execute_once)
    the loop runs attempts + 1 times at most                 (sendLoop_length)
    so such a request is submitted once                      (submitted_at_most_once)
-/

namespace Afhttp.Fetch

open Text

/-! ## What is asked for -/

inductive RenderMode where
  | none
  | auto
  | always
  deriving DecidableEq

inductive Artifact where
  | body | renderedHtml | text | content | contentJson | screenshot | network | console | observation | storage
  deriving DecidableEq

/-- `send_detailed` only sleeps for its `backoff_ms`. -/
structure RetryOptions where
  attempts : UInt32

/-- What a call of `send_detailed` reads of its builder. -/
structure FetchCall where
  builder : FetchBuilder
  request : RequestOptions
  render : RenderMode
  retry : RetryOptions
  want : List Artifact
  path : PathConfig

/-- True for GET and HEAD. -/
def methodIsIdempotent (request : RequestOptions) : Bool :=
  request.method.all fun m => eqIgnoreAsciiCase m "GET" || eqIgnoreAsciiCase m "HEAD"

/-! ## What is sent -/

/-- What an execution puts on the wire for its request. -/
structure Sent where
  /-- The requests of the HTTP path, each with the number of redirects before it. -/
  requests : List (Request × ℕ)
  /-- The URLs of its `Page.navigate` commands. -/
  navigates : List String
  /-- The commands of the intercept. -/
  commands : List Command

namespace Sent

def nothing : Sent := ⟨[], [], []⟩

def append (s t : Sent) : Sent :=
  ⟨s.requests ++ t.requests, s.navigates ++ t.navigates, s.commands ++ t.commands⟩

/-- Requests of the HTTP path that follow no redirect. -/
def first (s : Sent) : ℕ := (s.requests.filter fun request => request.2 == 0).length

/-- The initial submissions: each of the HTTP path, and each navigation. -/
def initial (s : Sent) : ℕ := s.first + s.navigates.length

/-- The requests that leave with the caller's own method, over both paths. -/
def reissued (s : Sent) : ℕ := s.first + (s.commands.filter Command.overrides).length

end Sent

/-- How much of each had been sent when an execution was dropped. -/
structure Cut where
  requests : ℕ
  navigates : ℕ
  commands : ℕ

def Sent.cut (s : Sent) (c : Cut) : Sent :=
  ⟨s.requests.take c.requests, s.navigates.take c.navigates, s.commands.take c.commands⟩

/-! ## The HTTP attempt -/

/-- What the stages of `http_only` come to. -/
structure HttpOutcomes where
  ensureDir : Except Error Unit
  /-- `build_per_fetch_http_client`. -/
  client : Except Error Unit
  hops : ℕ → Hop
  /-- The deadline passes while requests are out: how many are, and the error. -/
  timedOut : Option (ℕ × Error)
  readBody : Except Error (List UInt8)
  contentType : Option String
  writeBody : Except Error Unit

/-- `HttpOnlyOutcome`, of its result the status. -/
structure HttpOnlyOutcome where
  status : ℕ
  bodyBytes : List UInt8
  contentType : Option String

/-- What the code makes of a body. -/
structure PageLib where
  /-- The code of `classify_http_body`, if the page is a challenge. -/
  classifyHttpBody : List UInt8 → Option String → Option ErrorCode
  looksLikeEmptyHtmlShell : List UInt8 → Option String → Bool

section
variable (lib : HttpLib)

/-- The stage `navigate` of the HTTP path. -/
def navigateHttp (builder : FetchBuilder) (options : PreparedRequestOptions) (o : HttpOutcomes) :
    List Request × Except Error Response :=
  let sent := sendHttpResponse lib builder options o.hops
  match o.timedOut with
  | none => sent
  | some (n, e) => (sent.1.take n, .error e)

/-- What follows the response. -/
def afterNavigate (want : List Artifact) (o : HttpOutcomes) (response : Response) : Except Error HttpOnlyOutcome := do
  let bytes ← o.readBody
  if want.contains .body then o.writeBody
  return ⟨response.status, bytes, o.contentType⟩

def httpOnly (builder : FetchBuilder) (options : PreparedRequestOptions) (want : List Artifact) (o : HttpOutcomes) :
    Sent × Except Error HttpOnlyOutcome :=
  match o.ensureDir with
  | .error e => (.nothing, .error e)
  | .ok () =>
    match o.client with
    | .error e => (.nothing, .error e)
    | .ok () =>
      let sent := navigateHttp lib builder options o
      (⟨sent.1.zipIdx, [], []⟩, sent.2.bind (afterNavigate want o))

end

/-! ## The browser attempt -/

/-- What the stages of `browser_path` come to. -/
structure BrowserOutcomes where
  resolveInlineHost : Except Error Unit
  ensureDir : Except Error Unit
  endpointIsRemote : Bool
  /-- The jar's cookies for the URL. -/
  injected : List PreparedCookie
  connectCdp : Except Error Unit
  stages : StageOutcomes
  fetchEnable : Except Error Unit
  /-- `Page.navigate` was sent: the deadline may pass before it. -/
  navigateSent : Bool
  /-- What the intercept is told while it runs. -/
  received : List Received

section
variable (nav : NavigateLib)

/-- The session of a fetch that gets as far as its navigation. -/
def navigatingSession (cfg : PathConfig) (o : StageOutcomes) : Option String :=
  if cfg.tab.isSome || o.createTarget.isOk then
    match o.attachTarget, o.browserEnable, o.prepareRequest with
    | .ok sessionId, .ok (), .ok () => some sessionId
    | _, _, _ => none
  else none

/-- The navigation of a session: what it sends, and what `Fetch.enable` makes of its result. -/
def navigateSession (url : String) (options : PreparedRequestOptions) (o : BrowserOutcomes) (sessionId : String) :
    Sent × Except Error Json :=
  let headers := options.cdpHeadersByScope
  let navigates := if o.navigateSent then [url] else []
  match navigateWithMethod nav url options.method options.bodyPayload headers.1 headers.2 with
  | .plain => (⟨[], navigates, []⟩, o.stages.navigate)
  | .intercept _ main scope =>
    match o.fetchEnable with
    | .error e => (.nothing, .error e)
    | .ok () => (⟨[], navigates, runIntercept nav sessionId scope main o.received⟩, o.stages.navigate)

/-- `browser_path` with a connection. -/
def connectedFetch (cfg : PathConfig) (url : String) (options : PreparedRequestOptions) (o : BrowserOutcomes) :
    Sent × Except Error PathResult :=
  match navigatingSession cfg o.stages with
  | none => (.nothing, (browserPath cfg o.stages).1)
  | some sessionId =>
    let navigated := navigateSession nav url options o sessionId
    (navigated.1, (browserPath cfg { o.stages with navigate := navigated.2 }).1)

def browserFetch (lib : HttpLib) (call : FetchCall) (options : PreparedRequestOptions) (o : BrowserOutcomes) :
    Sent × Except Error PathResult :=
  match o.resolveInlineHost with
  | .error e => (.nothing, .error e)
  | .ok () =>
    match o.ensureDir with
    | .error e => (.nothing, .error e)
    | .ok () =>
      if !o.endpointIsRemote then
        (.nothing, .error (.new .renderUnavailable "browser fetch requires --endpoint-url pointing at an afhttp host"))
      else
        match o.connectCdp with
        | .error e => (.nothing, .error e)
        | .ok () => connectedFetch nav call.path call.builder.url (options.mergeJarCookies lib o.injected) o

end

/-! ## One execution -/

/-- What one execution meets. -/
structure Attempt where
  /-- The jar that `resolve_cookie_jar_path` comes to. -/
  resolveCookieJar : Except Error CookieJarOptions
  now : Int
  /-- The deadline passes before the options are prepared. -/
  prepareDeadline : Except Error Unit
  http : HttpOutcomes
  browser : BrowserOutcomes
  /-- The outer timer drops the execution: what was sent by then, and the error. -/
  dropped : Option (Cut × Error)

inductive FetchResult where
  | http (o : HttpOnlyOutcome)
  | browser (r : PathResult)

def rejectHttpOnlyEvaluate (options : PreparedRequestOptions) : Except Error Unit :=
  if !options.evaluateAfterWait.isEmpty then
    .error (invalidArgument ".evaluate_after_wait(...) requires a browser-backed fetch; use --render always or let --render auto escalate for another reason")
  else .ok ()

section
variable (lib : BuilderLib) (nav : NavigateLib) (page : PageLib)

/-- Why an HTTP outcome leads to the browser. -/
def escalationReason (want : List Artifact) (outcome : Except Error HttpOnlyOutcome) : Option String :=
  match outcome with
  | .ok o =>
    if o.status < 400 then
      match page.classifyHttpBody o.bodyBytes o.contentType with
      | some code => some code.asStr
      | none =>
        if page.looksLikeEmptyHtmlShell o.bodyBytes o.contentType then some "empty_html_shell"
        else if want.contains .content || want.contains .contentJson then some "requested_content_artifact"
        else none
    else some s!"http_status_{o.status}"
  | .error e => if e.errorCode = .invalidArgument then none else some s!"http_failed_{e.errorCode.asStr}"

/-- An HTTP attempt without a browser: the evaluations are refused before it is made. -/
def httpAlone (builder : FetchBuilder) (options : PreparedRequestOptions) (call : FetchCall) (a : Attempt) :
    Sent × Except Error FetchResult :=
  match rejectHttpOnlyEvaluate options with
  | .error e => (.nothing, .error e)
  | .ok () =>
    let attempt := httpOnly lib.toHttpLib builder options call.want a.http
    (attempt.1, attempt.2.map .http)

def browserAlone (options : PreparedRequestOptions) (call : FetchCall) (a : Attempt) :
    Sent × Except Error FetchResult :=
  let attempt := browserFetch nav lib.toHttpLib call options a.browser
  (attempt.1, attempt.2.map .browser)

/-- `RenderMode::Auto`. -/
def executeAuto (builder : FetchBuilder) (options : PreparedRequestOptions) (call : FetchCall) (a : Attempt) :
    Sent × Except Error FetchResult :=
  if !methodIsIdempotent call.request then httpAlone lib builder options call a
  else
    let attempt := httpOnly lib.toHttpLib builder options call.want a.http
    match escalationReason page call.want attempt.2 with
    | some _ =>
      let second := browserAlone lib nav options call a
      (attempt.1.append second.1, second.2)
    | none => (attempt.1, attempt.2.bind fun o => (rejectHttpOnlyEvaluate options).map fun _ => .http o)

def execute (call : FetchCall) (a : Attempt) : Sent × Except Error FetchResult :=
  match a.resolveCookieJar with
  | .error e => (.nothing, .error e)
  | .ok cookieJar =>
    match a.prepareDeadline.bind fun _ => fromBuilder lib a.now call.request with
    | .error e => (.nothing, .error e)
    | .ok options =>
      let builder := { call.builder with cookieJar }
      match call.render with
      | .none => httpAlone lib builder options call a
      | .auto => executeAuto lib nav page builder options call a
      | .always => browserAlone lib nav options call a

def executeOnceWithTimeout (call : FetchCall) (a : Attempt) : Sent × Except Error FetchResult :=
  let whole := execute lib nav page call a
  match a.dropped with
  | none => whole
  | some (c, e) => (whole.1.cut c, .error e)

/-! ## The retries -/

/-- The loop of `send_detailed`, from `attempt` on: what its executions sent, and the result. -/
def sendLoop (call : FetchCall) (world : ℕ → Attempt) (maxAttempts attempt : ℕ) :
    List Sent × Except Error FetchResult :=
  let once := executeOnceWithTimeout lib nav page call (world attempt)
  match once.2 with
  | .ok r => ([once.1], .ok r)
  | .error e =>
    if e.retryable = true ∧ attempt + 1 < maxAttempts then
      let rest := sendLoop call world maxAttempts (attempt + 1)
      (once.1 :: rest.1, rest.2)
    else ([once.1], .error e)
termination_by maxAttempts - attempt

/-- `u32::saturating_add` of 1. -/
def RetryOptions.maxAttempts (retry : RetryOptions) : ℕ := min (retry.attempts.toNat + 1) (2 ^ 32 - 1)

/-- What each execution sends, and the result. -/
def sendDetailed (call : FetchCall) (world : ℕ → Attempt) : List Sent × Except Error FetchResult :=
  if call.retry.attempts = 0 || !methodIsIdempotent call.request then
    let once := executeOnceWithTimeout lib nav page call (world 0)
    ([once.1], once.2)
  else sendLoop lib nav page call world call.retry.maxAttempts 0

end

/-! ## One submission -/

/-- The request is submitted once at most. -/
structure Sent.Once (s : Sent) : Prop where
  initial : s.initial ≤ 1
  reissued : s.reissued ≤ 1

theorem Sent.once_nothing : Sent.nothing.Once := ⟨Nat.zero_le 1, Nat.zero_le 1⟩

theorem Sent.once_of_browser {navigates : List String} {commands : List Command} (hnavigates : navigates.length ≤ 1)
    (hcommands : (commands.filter Command.overrides).length ≤ 1) : (Sent.mk [] navigates commands).Once := by
  constructor
  · show 0 + navigates.length ≤ 1
    omega
  · show 0 + (commands.filter Command.overrides).length ≤ 1
    omega

theorem filter_zipIdx_succ {α : Type} (l : List α) (k : ℕ) : (l.zipIdx (k + 1)).filter (fun x => x.2 == 0) = [] := by
  rw [List.filter_eq_nil_iff]
  intro x hx
  have hle : k + 1 ≤ x.2 := List.le_snd_of_mem_zipIdx hx
  rw [beq_iff_eq]
  omega

/-- The first of a list is the only one with the number 0. -/
theorem length_filter_zipIdx {α : Type} (l : List α) : (l.zipIdx.filter fun x => x.2 == 0).length ≤ 1 := by
  cases l with
  | nil => exact Nat.zero_le 1
  | cons x l =>
    rw [List.zipIdx_cons, List.filter_cons_of_pos rfl, filter_zipIdx_succ]
    exact Nat.le_refl 1

/-- A dropped execution has sent no more. -/
theorem Sent.Once.cut {s : Sent} (h : s.Once) (c : Cut) : (s.cut c).Once := by
  have hrequests : (s.cut c).first ≤ s.first :=
    ((List.take_sublist c.requests s.requests).filter _).length_le
  have hnavigates : (s.cut c).navigates.length ≤ s.navigates.length :=
    (List.take_sublist c.navigates s.navigates).length_le
  have hcommands : ((s.cut c).commands.filter Command.overrides).length ≤
      (s.commands.filter Command.overrides).length :=
    ((List.take_sublist c.commands s.commands).filter _).length_le
  obtain ⟨hinitial, hreissued⟩ := h
  unfold Sent.initial at hinitial
  unfold Sent.reissued at hreissued
  constructor
  · unfold Sent.initial
    omega
  · unfold Sent.reissued
    omega

section
variable (lib : BuilderLib) (nav : NavigateLib) (page : PageLib)

/-- **One HTTP attempt** makes one request that follows no redirect. -/
theorem httpOnly_once (builder : FetchBuilder) (options : PreparedRequestOptions) (want : List Artifact)
    (o : HttpOutcomes) : (httpOnly lib.toHttpLib builder options want o).1.Once := by
  unfold httpOnly
  split
  · exact Sent.once_nothing
  · split
    · exact Sent.once_nothing
    · have hfirst := length_filter_zipIdx (navigateHttp lib.toHttpLib builder options o).1
      exact ⟨hfirst, hfirst⟩

/-- One navigation, and one Document that is reissued. -/
theorem navigateSession_once (url : String) (options : PreparedRequestOptions) (o : BrowserOutcomes)
    (sessionId : String) : (navigateSession nav url options o sessionId).1.Once := by
  have hnavigates : (if o.navigateSent then [url] else []).length ≤ 1 := by
    split
    · exact Nat.le_refl 1
    · exact Nat.zero_le 1
  unfold navigateSession
  dsimp only
  split
  · exact Sent.once_of_browser hnavigates (Nat.zero_le 1)
  · next main scope _ =>
    split
    · exact Sent.once_nothing
    · have hreissued : ((runIntercept nav sessionId scope main o.received).filter Command.overrides).length ≤ 1 := by
        rw [filter_overrides]
        exact Option.length_toList_le
      exact Sent.once_of_browser hnavigates hreissued

/-- **One browser attempt** navigates once. -/
theorem browserFetch_once (call : FetchCall) (options : PreparedRequestOptions) (o : BrowserOutcomes) :
    (browserFetch nav lib.toHttpLib call options o).1.Once := by
  unfold browserFetch
  split
  · exact Sent.once_nothing
  · split
    · exact Sent.once_nothing
    · split
      · exact Sent.once_nothing
      · split
        · exact Sent.once_nothing
        · unfold connectedFetch
          split
          · exact Sent.once_nothing
          · exact navigateSession_once nav call.builder.url _ o _

theorem httpAlone_once (builder : FetchBuilder) (options : PreparedRequestOptions) (call : FetchCall)
    (a : Attempt) : (httpAlone lib builder options call a).1.Once := by
  unfold httpAlone
  split
  · exact Sent.once_nothing
  · exact httpOnly_once lib builder options call.want a.http

/-- **One execution** of a request that is neither GET nor HEAD takes one of the two paths. -/
theorem execute_once {call : FetchCall} (h : methodIsIdempotent call.request = false) (a : Attempt) :
    (execute lib nav page call a).1.Once := by
  unfold execute
  split
  · exact Sent.once_nothing
  · split
    · exact Sent.once_nothing
    · next options _ =>
      dsimp only
      split
      · exact httpAlone_once lib _ options call a
      · unfold executeAuto
        rw [h]
        exact httpAlone_once lib _ options call a
      · exact browserFetch_once lib nav call options a.browser

theorem executeOnceWithTimeout_once {call : FetchCall} (h : methodIsIdempotent call.request = false)
    (a : Attempt) : (executeOnceWithTimeout lib nav page call a).1.Once := by
  have hexecute := execute_once lib nav page h a
  unfold executeOnceWithTimeout
  dsimp only
  split
  · exact hexecute
  · exact hexecute.cut _

/-- **The loop** ends: `attempt` never passes the last one. -/
theorem sendLoop_length (call : FetchCall) (world : ℕ → Attempt) {maxAttempts attempt : ℕ}
    (h : attempt < maxAttempts) :
    (sendLoop lib nav page call world maxAttempts attempt).1.length ≤ maxAttempts - attempt := by
  induction hleft : maxAttempts - attempt generalizing attempt with
  | zero => omega
  | succ left ih =>
    unfold sendLoop
    dsimp only
    split
    · show 1 ≤ left + 1
      omega
    · split
      · next hmore =>
        have hrest := ih hmore.2 (by omega)
        show _ + 1 ≤ left + 1
        omega
      · show 1 ≤ left + 1
        omega

theorem methodIsIdempotent_eq_false {request : RequestOptions} {method : String}
    (hmethod : request.method = some method) (hget : eqIgnoreAsciiCase method "GET" = false)
    (hhead : eqIgnoreAsciiCase method "HEAD" = false) : methodIsIdempotent request = false := by
  unfold methodIsIdempotent
  rw [hmethod]
  show (eqIgnoreAsciiCase method "GET" || eqIgnoreAsciiCase method "HEAD") = false
  rw [hget, hhead]
  rfl

end

/-! ## A payment that fails -/

/-- A `POST` that may be retried three times. -/
def paymentCall : FetchCall where
  builder := sampleBuilder
  request := { loginRequest "sid" with method := some "Post" }
  render := .auto
  retry := ⟨3⟩
  want := [.body]
  path := ⟨none, false⟩

/-- The server takes the request and answers nothing. -/
def unanswered : Attempt where
  resolveCookieJar := .ok ⟨none⟩
  now := 0
  prepareDeadline := .ok ()
  http := {
    ensureDir := .ok ()
    client := .ok ()
    hops := fun k => { sampleHops k with response := .error (.new .ioError "HTTP request: connection closed") }
    timedOut := none
    readBody := .ok []
    contentType := none
    writeBody := .ok () }
  browser := {
    resolveInlineHost := .ok ()
    ensureDir := .ok ()
    endpointIsRemote := true
    injected := []
    connectCdp := .ok ()
    stages := failedAttach
    fetchEnable := .ok ()
    navigateSent := true
    received := [] }
  dropped := none

/-- No page is a challenge, and none is empty. -/
def plainPages : PageLib := ⟨fun _ _ => none, fun _ _ => false⟩

end Afhttp.Fetch

import Afhttp.Fetch.Navigate

/-!
# The request intercept

`navigate_with_method` and `run_intercept` of `sdk/fetch/pipeline/browser/navigate.rs`.  The
intercept listens to a channel that drops events when it falls behind.  It answers each paused
request of its session; the first Document among them is reissued with the caller's method and
body, and if there is nothing else to add, `Fetch.disable` then releases the rest.

    the reissued request is the first Document that is received      (filter_overrides)
    Fetch.disable is sent after it, if no origin is scoped           (disable_mem_iff)
    without it each request received is answered once                (answered_isPrefix)
    the override is right, and nothing stays paused, exactly if
    that Document is the navigation and no pause is lost for good    (intercept_right)
-/

namespace Afhttp.Fetch

open Text

/-! ## What a fetch intercepts -/

/-- A byte in hexadecimal, upper case. -/
def hexByte (b : UInt8) : String :=
  let digit := fun n : ℕ => if n < 10 then Char.ofNat (48 + n) else Char.ofNat (55 + n)
  String.ofList [digit (b.toNat / 16), digit (b.toNat % 16)]

def urlencodingSimple (s : String) : String :=
  String.join (s.toUTF8.toList.map fun b =>
    let c := Char.ofNat b.toNat
    if b.toNat < 128 && (c.isAlphanum || c == '-' || c == '_' || c == '.' || c == '~') then c.toString
    else if c == ' ' then "+"
    else "%" ++ hexByte b)

/-- The serialization of a tuple origin. -/
def asciiSerialization (origin : String × Host × ℕ) : String :=
  let (scheme, host, port) := origin
  let default := (Url.mk scheme (some host) none "" "").knownDefaultPort
  if default = some port then scheme ++ "://" ++ host.str else scheme ++ "://" ++ host.str ++ ":" ++ toString port

section
variable (lib : NavigateLib)

def postDataB64 : BodyPayload → Option String
  | .none => none
  | .bytes body => some (lib.base64 body)
  | .form fields =>
    let encoded := "&".intercalate (fields.map fun (k, v) => urlencodingSimple k ++ "=" ++ urlencodingSimple v)
    some (lib.base64 encoded.toUTF8.toList)

/-- What `navigate_with_method` sets up before it navigates. -/
inductive NavigatePlan where
  /-- `Page.navigate` alone. -/
  | plain
  /-- `Fetch.enable` with these patterns, and the intercept. -/
  | intercept (patterns : List Json) (main : Option MainOverride) (scope : InterceptScope)

def navigateWithMethod (url method : String) (body : BodyPayload) (everywhere : BTreeMap String)
    (originOnly : HeaderList) : NavigatePlan :=
  let overrideMain := !eqIgnoreAsciiCase method "GET" || body != .none
  let origin := if originOnly.isEmpty then none else
    match lib.parseUrl url with
    | .ok url => lib.origin url
    | .error _ => none
  if !overrideMain && origin.isNone then .plain
  else
    let documents := [("resourceType", Json.str "Document"), ("requestStage", Json.str "Request")]
    let sameOrigin := fun origin =>
      [("urlPattern", Json.str (asciiSerialization origin ++ "/*")), ("requestStage", Json.str "Request")]
    let isForm := match body with
      | .form _ => true
      | _ => false
    .intercept ((if overrideMain then [Json.obj documents] else []) ++ (origin.map (Json.obj <| sameOrigin ·)).toList)
      (if overrideMain then some ⟨method, postDataB64 lib body, isForm⟩ else none) ⟨origin, everywhere, originOnly⟩

/-! ## The loop -/

/-- What `events.recv()` yields.  A receiver that fell behind learns how many events it lost;
`lost` are those events. -/
inductive Received where
  | ok (event : CdpEvent)
  | lagged (lost : List CdpEvent)

/-- What the intercept sends.  `paused` is the event that it answers, and no part of the message. -/
inductive Command where
  | continueRequest (paused : CdpEvent) (params : ContinueParams)
  | fetchDisable

variable (sessionId : String)

/-- A pause of the intercepted session. -/
def isPausedOn (event : CdpEvent) : Bool := event.method == "Fetch.requestPaused" && event.sessionId == some sessionId

def isDocument (event : CdpEvent) : Bool := (event.params.get "resourceType").bind Json.asStr == some "Document"

variable (scope : InterceptScope)

/-- The commands for the events received until the channel closes. -/
def runIntercept (main : Option MainOverride) : List Received → List Command
  | [] => []
  | .lagged _ :: rest => runIntercept main rest
  | .ok event :: rest =>
    if isPausedOn sessionId event then
      let (here, later) := if isDocument event then (main, none) else (none, main)
      let (params, reply) := continueParams lib event.params here scope
      if reply && scope.origin.isNone then [.continueRequest event params, .fetchDisable]
      else .continueRequest event params :: runIntercept later rest
    else runIntercept main rest

end

namespace Command

/-- The command carries the caller's method. -/
def overrides : Command → Bool
  | continueRequest _ params => params.method.isSome
  | fetchDisable => false

def paused : Command → Option CdpEvent
  | continueRequest event _ => some event
  | fetchDisable => none

end Command

/-! ## What was paused -/

section
variable (sessionId : String)

/-- The pause that the intercept is told of. -/
def Received.received : Received → List CdpEvent
  | ok event => if isPausedOn sessionId event then [event] else []
  | lagged _ => []

/-- The pauses lost to lag. -/
def Received.lost : Received → List CdpEvent
  | ok _ => []
  | lagged lost => lost.filter (isPausedOn sessionId)

def receivedOn (inputs : List Received) : List CdpEvent := inputs.flatMap (Received.received sessionId)

def lostOn (inputs : List Received) : List CdpEvent := inputs.flatMap (Received.lost sessionId)

/-- Every request paused on the session, in order. -/
def pausedOn (inputs : List Received) : List CdpEvent :=
  inputs.flatMap fun input => input.received sessionId ++ input.lost sessionId

/-- The first Document among those received. -/
def firstDocument (inputs : List Received) : Option CdpEvent := (receivedOn sessionId inputs).find? isDocument

theorem receivedOn_sublist (inputs : List Received) : (receivedOn sessionId inputs).Sublist (pausedOn sessionId inputs) := by
  induction inputs with
  | nil => exact List.Sublist.slnil
  | cons input inputs ih =>
    show (_ ++ receivedOn sessionId inputs).Sublist (_ ++ pausedOn sessionId inputs)
    exact (List.sublist_append_left ..).append ih

theorem pausedOn_length (inputs : List Received) :
    (pausedOn sessionId inputs).length = (receivedOn sessionId inputs).length + (lostOn sessionId inputs).length := by
  induction inputs with
  | nil => rfl
  | cons input inputs ih =>
    unfold receivedOn pausedOn lostOn at ih ⊢
    rw [List.flatMap_cons, List.flatMap_cons, List.flatMap_cons]
    simp only [List.length_append]
    omega

/-- All that was paused was received exactly if none was lost. -/
theorem receivedOn_eq_iff (inputs : List Received) :
    receivedOn sessionId inputs = pausedOn sessionId inputs ↔ lostOn sessionId inputs = [] := by
  have hlen := pausedOn_length sessionId inputs
  constructor
  · intro h
    rw [h] at hlen
    exact List.length_eq_zero_iff.mp (by omega)
  · intro h
    rw [h, List.length_nil] at hlen
    exact (receivedOn_sublist sessionId inputs).eq_of_length (by omega)

theorem receivedOn_skip {input : Received} {inputs : List Received} (h : input.received sessionId = []) :
    receivedOn sessionId (input :: inputs) = receivedOn sessionId inputs := by
  show _ ++ receivedOn sessionId inputs = _
  rw [h, List.nil_append]

theorem receivedOn_pause {event : CdpEvent} {inputs : List Received} (h : isPausedOn sessionId event = true) :
    receivedOn sessionId (.ok event :: inputs) = event :: receivedOn sessionId inputs := by
  show (if isPausedOn sessionId event then [event] else []) ++ receivedOn sessionId inputs = _
  rw [h]
  rfl

end

/-! ## What is sent -/

section
variable (lib : NavigateLib) (sessionId : String) (scope : InterceptScope)

/-- What one input makes the loop do. -/
theorem runIntercept_cons (main : Option MainOverride) (input : Received) (rest : List Received) :
    (input.received sessionId = [] ∧
      runIntercept lib sessionId scope main (input :: rest) = runIntercept lib sessionId scope main rest) ∨
    ∃ event, input = .ok event ∧ isPausedOn sessionId event = true ∧
      ((∃ m, isDocument event = true ∧ main = some m ∧
        runIntercept lib sessionId scope main (input :: rest) =
          .continueRequest event (continueParams lib event.params main scope).1 ::
            if scope.origin.isNone then [.fetchDisable] else runIntercept lib sessionId scope none rest) ∨
      ((isDocument event = false ∨ main = none) ∧
        runIntercept lib sessionId scope main (input :: rest) =
          .continueRequest event (continueParams lib event.params none scope).1 ::
            runIntercept lib sessionId scope main rest)) := by
  have hreply : ∀ event m, (continueParams lib event (some m) scope).2 = true := fun event m => rfl
  have hnone : ∀ event, (continueParams lib event none scope).2 = false := fun event => rfl
  cases input with
  | lagged lost => exact Or.inl ⟨rfl, rfl⟩
  | ok event =>
    cases hp : isPausedOn sessionId event with
    | false =>
      left
      refine ⟨by show (if _ then _ else _) = _; rw [hp]; rfl, ?_⟩
      rw [runIntercept, hp]
      rfl
    | true =>
      refine Or.inr ⟨event, rfl, hp, ?_⟩
      rw [runIntercept, hp, if_pos rfl]
      cases hd : isDocument event with
      | false =>
        refine Or.inr ⟨Or.inl rfl, ?_⟩
        simp [hnone]
      | true =>
        cases main with
        | none =>
          refine Or.inr ⟨Or.inr rfl, ?_⟩
          simp [hnone]
        | some m =>
          refine Or.inl ⟨m, rfl, rfl, ?_⟩
          cases scope.origin <;> simp [hreply]

/-- The events that the commands answer, in order. -/
def answered (commands : List Command) : List CdpEvent := commands.filterMap Command.paused

/-- A paused request that is not the main one is continued as it is. -/
theorem continueParams_none_method (paused : Json) : (continueParams lib paused none scope).1.method = none := rfl

theorem firstDocument_skip {input : Received} {inputs : List Received} (h : input.received sessionId = []) :
    firstDocument sessionId (input :: inputs) = firstDocument sessionId inputs := by
  unfold firstDocument
  rw [receivedOn_skip sessionId h]

theorem firstDocument_pause {event : CdpEvent} {inputs : List Received} (h : isPausedOn sessionId event = true) :
    firstDocument sessionId (.ok event :: inputs) =
      if isDocument event then some event else firstDocument sessionId inputs := by
  unfold firstDocument
  rw [receivedOn_pause sessionId h, List.find?_cons]
  cases isDocument event <;> rfl

/-- **The reissued request** is the first Document received, if there is an override. -/
theorem filter_overrides (main : Option MainOverride) (inputs : List Received) :
    (runIntercept lib sessionId scope main inputs).filter Command.overrides =
      (main.bind fun m => (firstDocument sessionId inputs).map fun event =>
        .continueRequest event (continueParams lib event.params (some m) scope).1).toList := by
  induction inputs generalizing main with
  | nil => cases main <;> rfl
  | cons input rest ih =>
    rcases runIntercept_cons lib sessionId scope main input rest with
      ⟨hnone, hrun⟩ | ⟨event, rfl, hp, ⟨m, hd, rfl, hrun⟩ | ⟨hplain, hrun⟩⟩
    · rw [hrun, ih, firstDocument_skip sessionId hnone]
    · rw [hrun, firstDocument_pause sessionId hp, hd, if_pos rfl, List.filter_cons_of_pos rfl]
      show _ :: _ = [_]
      congr 1
      split
      · rfl
      · rw [ih]
        rfl
    · rw [hrun, firstDocument_pause sessionId hp,
        List.filter_cons_of_neg (by simp [Command.overrides, continueParams_none_method]), ih]
      rcases hplain with hd | rfl
      · rw [hd]
        rfl
      · rfl

/-- What has no method of the caller's is continued as it is. -/
theorem params_of_not_overrides {main : Option MainOverride} {inputs : List Received} {event : CdpEvent}
    {params : ContinueParams} (h : .continueRequest event params ∈ runIntercept lib sessionId scope main inputs)
    (hmethod : params.method = none) : params = (continueParams lib event.params none scope).1 := by
  induction inputs generalizing main with
  | nil => cases h
  | cons input rest ih =>
    rcases runIntercept_cons lib sessionId scope main input rest with
      ⟨-, hrun⟩ | ⟨event', -, -, ⟨m, -, rfl, hrun⟩ | ⟨-, hrun⟩⟩
    · rw [hrun] at h
      exact ih h
    · rw [hrun] at h
      rcases List.mem_cons.mp h with h | h
      · cases h
        cases hmethod
      · split at h
        · simp at h
        · exact ih h
    · rw [hrun] at h
      rcases List.mem_cons.mp h with h | h
      · cases h
        rfl
      · exact ih h

/-- **`Fetch.disable`** is sent once the main request is out, unless an origin is scoped. -/
theorem disable_mem_iff (main : Option MainOverride) (inputs : List Received) :
    .fetchDisable ∈ runIntercept lib sessionId scope main inputs ↔
      main.isSome = true ∧ scope.origin = none ∧ (firstDocument sessionId inputs).isSome = true := by
  induction inputs generalizing main with
  | nil => simp [runIntercept, firstDocument, receivedOn]
  | cons input rest ih =>
    rcases runIntercept_cons lib sessionId scope main input rest with
      ⟨hnone, hrun⟩ | ⟨event, rfl, hp, ⟨m, hd, rfl, hrun⟩ | ⟨hplain, hrun⟩⟩
    · rw [hrun, ih, firstDocument_skip sessionId hnone]
    · rw [hrun, firstDocument_pause sessionId hp, hd, if_pos rfl]
      cases ho : scope.origin with
      | none => simp
      | some origin => simp [ih, ho]
    · rw [hrun, firstDocument_pause sessionId hp, List.mem_cons, ih]
      rcases hplain with hd | rfl
      · simp [hd]
      · simp

/-- **Each request received is answered once**, up to a `Fetch.disable`. -/
theorem answered_isPrefix (main : Option MainOverride) (inputs : List Received) :
    answered (runIntercept lib sessionId scope main inputs) <+: receivedOn sessionId inputs ∧
      (.fetchDisable ∉ runIntercept lib sessionId scope main inputs →
        answered (runIntercept lib sessionId scope main inputs) = receivedOn sessionId inputs) := by
  induction inputs generalizing main with
  | nil => exact ⟨List.prefix_rfl, fun _ => rfl⟩
  | cons input rest ih =>
    rcases runIntercept_cons lib sessionId scope main input rest with
      ⟨hnone, hrun⟩ | ⟨event, rfl, hp, ⟨m, hd, rfl, hrun⟩ | ⟨hplain, hrun⟩⟩
    · rw [hrun, receivedOn_skip sessionId hnone]
      exact ih main
    · rw [hrun, receivedOn_pause sessionId hp]
      cases ho : scope.origin.isNone with
      | true => exact ⟨⟨_, rfl⟩, fun h => absurd (by simp) h⟩
      | false =>
        obtain ⟨hpre, heq⟩ := ih none
        refine ⟨List.cons_prefix_cons.mpr ⟨rfl, hpre⟩, fun h => ?_⟩
        exact congrArg (event :: ·) (heq fun hmem => h (List.mem_cons_of_mem _ hmem))
    · rw [hrun, receivedOn_pause sessionId hp]
      obtain ⟨hpre, heq⟩ := ih main
      refine ⟨List.cons_prefix_cons.mpr ⟨rfl, hpre⟩, fun h => ?_⟩
      exact congrArg (event :: ·) (heq fun hmem => h (List.mem_cons_of_mem _ hmem))

/-! ## The right request -/

/-- The pause of the navigation of the frame to the URL. -/
def isRootNavigation (rootFrame url : String) (event : CdpEvent) : Bool :=
  isDocument event && (event.params.get "frameId").bind Json.asStr == some rootFrame &&
    ((event.params.index "request").get "url").bind Json.asStr == some url

variable (rootFrame url : String)

/-- The override is applied once, and to the navigation; what else is answered is answered as it
is; and of the requests paused on the session, each is continued once or `Fetch.disable` releases
what is left. -/
structure InterceptRight (main : Option MainOverride) (inputs : List Received) : Prop where
  once : ((runIntercept lib sessionId scope main inputs).filter Command.overrides).length ≤ 1
  right : ∀ event params, .continueRequest event params ∈ runIntercept lib sessionId scope main inputs →
    params = (continueParams lib event.params none scope).1 ∨ isRootNavigation rootFrame url event = true
  continued : (answered (runIntercept lib sessionId scope main inputs)).Sublist (pausedOn sessionId inputs)
  released : answered (runIntercept lib sessionId scope main inputs) = pausedOn sessionId inputs ∨
    .fetchDisable ∈ runIntercept lib sessionId scope main inputs

/-- Nothing of what was paused stays paused exactly if none was lost, or `Fetch.disable` comes. -/
theorem released_iff (main : Option MainOverride) (inputs : List Received) :
    (answered (runIntercept lib sessionId scope main inputs) = pausedOn sessionId inputs ∨
        .fetchDisable ∈ runIntercept lib sessionId scope main inputs) ↔
      lostOn sessionId inputs = [] ∨
        (main.isSome = true ∧ scope.origin = none ∧ (firstDocument sessionId inputs).isSome = true) := by
  rw [← disable_mem_iff lib sessionId scope main inputs]
  by_cases hdisable : .fetchDisable ∈ runIntercept lib sessionId scope main inputs
  · simp [hdisable]
  · obtain ⟨-, heq⟩ := answered_isPrefix lib sessionId scope main inputs
    rw [heq hdisable, receivedOn_eq_iff]

/-- **The intercept.**  In every sequence of events the override is right, and every paused
request is continued once or released, exactly if the first Document received is the navigation
and no pause is lost to lag, or the loss is made up for by the `Fetch.disable` that follows the
reissued request. -/
theorem intercept_right (main : Option MainOverride) (inputs : List Received) :
    InterceptRight lib sessionId scope rootFrame url main inputs ↔
      (main.isSome = true → ∀ event, firstDocument sessionId inputs = some event →
        isRootNavigation rootFrame url event = true) ∧
      (lostOn sessionId inputs = [] ∨
        (main.isSome = true ∧ scope.origin = none ∧ (firstDocument sessionId inputs).isSome = true)) := by
  have hoverrides := filter_overrides lib sessionId scope main inputs
  constructor
  · intro h
    refine ⟨?_, (released_iff lib sessionId scope main inputs).mp h.released⟩
    intro hmain event hfirst
    obtain ⟨m, rfl⟩ := Option.isSome_iff_exists.mp hmain
    have hmem : Command.continueRequest event (continueParams lib event.params (some m) scope).1 ∈
        (runIntercept lib sessionId scope (some m) inputs).filter Command.overrides := by
      rw [hoverrides, hfirst]
      exact List.mem_singleton_self _
    rcases h.right event _ (List.mem_of_mem_filter hmem) with hplain | hroot
    · have hmethod := congrArg ContinueParams.method hplain
      cases hmethod
    · exact hroot
  · rintro ⟨hroot, hlost⟩
    refine ⟨?_, ?_, ?_, (released_iff lib sessionId scope main inputs).mpr hlost⟩
    · rw [hoverrides]
      exact Option.length_toList_le
    · intro event params hmem
      cases hmethod : params.method with
      | none => exact Or.inl (params_of_not_overrides lib sessionId scope hmem hmethod)
      | some method =>
        right
        have hfilter : Command.continueRequest event params ∈
            (runIntercept lib sessionId scope main inputs).filter Command.overrides :=
          List.mem_filter.mpr ⟨hmem, by show params.method.isSome = true; rw [hmethod]; rfl⟩
        rw [hoverrides, Option.mem_toList, Option.bind_eq_some_iff] at hfilter
        obtain ⟨m, hm, hmap⟩ := hfilter
        obtain ⟨event', hfirst, heq⟩ := Option.map_eq_some_iff.mp hmap
        cases heq
        exact hroot (by rw [hm]; rfl) event hfirst
    · exact (answered_isPrefix lib sessionId scope main inputs).1.sublist.trans (receivedOn_sublist sessionId inputs)

end

/-! ## An iframe comes first -/

def pausedAt (requestId frame url : String) : CdpEvent :=
  ⟨"Fetch.requestPaused", some "s", .obj [("requestId", .str requestId), ("frameId", .str frame),
    ("resourceType", .str "Document"), ("request", .obj [("url", .str url)])]⟩

/-- **The wrong frame.**  A frame of the tab's old page loads before the navigation
does: the caller's method and body go to the frame's server. -/
theorem iframe_gets_override :
    ¬ InterceptRight siteLib "s" ⟨none, ∅, []⟩ "root" "https://site.test/login" (some ⟨"POST", some "YT0x", false⟩)
      [.ok (pausedAt "1" "ad" "https://ads.test/"), .ok (pausedAt "2" "root" "https://site.test/login")] := by
  intro h
  have hright := h.right (pausedAt "1" "ad" "https://ads.test/") ⟨"1", some "POST", some "YT0x", none⟩
    (List.mem_cons_self ..)
  exact absurd hright (by decide)

end Afhttp.Fetch

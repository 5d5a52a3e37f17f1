import Afhttp.Fetch.Download
import Afhttp.Shared.Maps

/-!
# The network collector

`sdk/fetch/artifacts/collectors.rs` and `network.rs`: CDP `Network.*` events of one session, kept
as one entry a request.  A request that is redirected keeps its id; the hop that ended moves to an
entry of its own, `{id}#redirect{n}`, and the request's new entry names it.

`handleEvent` is one event.  `now` is what the clock reads for it.  The passes over the map
(`selectMainDocument`, `summarizeEntries`, ...) take the entries in the order in which they meet
them.  The streams (WebSocket, SSE) have collectors of their own in the source and are left out.
-/

namespace Afhttp.Collect

open Text Fetch

/-- What the code takes from the libraries. -/
structure CollectorLib where
  /-- `(v.as_f64().unwrap_or(0.0) * 1000.0) as u64`. -/
  millis : Json → ℕ
  /-- `as_f64` is finite and not negative. -/
  isSize : Json → Bool
  /-- `Value::to_string`. -/
  display : Json → String
  /-- `serde_json::from_str`. -/
  fromStr : String → Option Json

/-! ## Redaction -/

def alwaysRedacted : List String := ["cookie", "set-cookie", "authorization", "proxy-authorization"]

def redactedSuffixes : List String := ["-token", "-secret"]

def shouldRedact (headerName : String) : Bool :=
  let lower := toAsciiLowercase headerName
  alwaysRedacted.contains lower || redactedSuffixes.any (endsWith lower)

/-! ## Entries -/

inductive NetworkEntryState where
  | pending | responded | finished | failed
  deriving DecidableEq

/-- `matches!(state, Pending | Responded)`. -/
def NetworkEntryState.unfinished : NetworkEntryState → Bool
  | pending | responded => true
  | finished | failed => false

structure NetworkTiming where
  startMonotonicMs : ℕ
  endMonotonicMs : Option ℕ
  deriving DecidableEq

structure NetworkEntry where
  requestId : String
  state : NetworkEntryState
  redirectFromRequestId : Option String
  frameId : Option String
  loaderId : Option String
  resourceType : String
  requestUrl : String
  method : String
  initiator : Option Json
  status : Option ℕ
  mimeType : Option String
  requestHeaders : BTreeMap String
  responseHeaders : BTreeMap String
  requestPostDataPresent : Bool
  requestPostDataSizeBytes : Option ℕ
  bodyFile : Option PathBuf
  timing : NetworkTiming
  failure : Option String
  hints : BTreeMap Json

def defaultEntry : NetworkEntry where
  requestId := ""
  state := .pending
  redirectFromRequestId := none
  frameId := none
  loaderId := none
  resourceType := "Other"
  requestUrl := ""
  method := "GET"
  initiator := none
  status := none
  mimeType := none
  requestHeaders := ∅
  responseHeaders := ∅
  requestPostDataPresent := false
  requestPostDataSizeBytes := none
  bodyFile := none
  timing := ⟨0, none⟩
  failure := none
  hints := ∅

structure NetworkSlot where
  entry : NetworkEntry
  startedAt : ℕ
  updatedAt : ℕ

structure NetworkInner where
  slots : HashMap NetworkSlot
  mainRequestId : Option String
  /-- Request ids whose end was seen since the last drain. -/
  finished : Finset String
  /-- Redirect hops already moved to their own entry, by request id. -/
  redirectHops : HashMap ℕ
  lastActivity : Option ℕ
  eventsDropped : ℕ
  truncated : Bool

def NetworkInner.default : NetworkInner := ⟨∅, none, ∅, ∅, none, 0, false⟩

def networkEntryLimit : ℕ := 4096

/-! ## One event -/

def stringField (params : Json) (key : String) : String := ((params.get key).bind Json.asStr).getD ""

def asU16 (status : ℕ) : ℕ := status % 2 ^ 16

section
variable (lib : CollectorLib) (redactHeaders : Bool) (now : ℕ)

/-- `headers_map`, with credentials redacted if that is asked for. -/
def headersMap (value : Option Json) : BTreeMap String :=
  let fields := (value.bind Json.asObject).getD []
  fields.foldl (fun out (k, v) =>
    out.insert k (if redactHeaders && shouldRedact k then "[redacted]" else v.asStr.getD (lib.display v))) ∅

/-- `timestamp`, in milliseconds. -/
def timestampMs (params : Json) : ℕ := (params.get "timestamp").elim 0 lib.millis

def insertHint (hints : BTreeMap Json) (key : String) (value : Option Json) : BTreeMap Json :=
  value.elim hints (hints.insert key)

/-- The hints on a request body. -/
def postHints (post : String) : BTreeMap Json :=
  match lib.fromStr post with
  | none => ∅
  | some v =>
    let hints := (∅ : BTreeMap Json).insert "request_body_json_valid" (.bool true)
    let hints := insertHint hints "graphql_operation_name" (((v.get "operationName").bind Json.asStr).map Json.str)
    insertHint hints "graphql_operation_type" ((v.get "query").map fun _ => .str "request")

/-- The entry that an announcement makes, but for its link to a redirect hop. -/
def announcedEntry (params : Json) : NetworkEntry :=
  let request := params.index "request"
  let post := (request.get "postData").bind Json.asStr
  { defaultEntry with
    requestId := stringField params "requestId"
    frameId := (params.get "frameId").bind Json.asStr
    loaderId := (params.get "loaderId").bind Json.asStr
    resourceType := ((params.get "type").bind Json.asStr).getD "Other"
    requestUrl := ((request.get "url").bind Json.asStr).getD ""
    method := ((request.get "method").bind Json.asStr).getD "GET"
    initiator := params.get "initiator"
    requestHeaders := headersMap lib redactHeaders (request.get "headers")
    timing := ⟨timestampMs lib params, none⟩
    requestPostDataPresent := post.isSome
    requestPostDataSizeBytes := post.map String.utf8ByteSize
    hints := post.elim ∅ (postHints lib) }

def hopId (requestId : String) (count : ℕ) : String := requestId ++ "#redirect" ++ toString count

/-- The entry of the hop that a redirect has ended. -/
def endedHop (params redirect : Json) (id : String) (hop : NetworkEntry) : NetworkEntry :=
  { hop with
    requestId := id
    status := ((redirect.get "status").bind Json.asU64).map asU16
    state := .finished
    timing := { hop.timing with endMonotonicMs := some (timestampMs lib params) }
    responseHeaders := headersMap lib redactHeaders (redirect.get "headers")
    hints := hop.hints.insert "redirected" (.bool true) }

/-- The hop that an announcement ends, with the response that ended it. -/
def endingHop (params : Json) (inner : NetworkInner) : Option (Json × NetworkSlot) :=
  (params.get "redirectResponse").bind fun redirect =>
    inner.slots[stringField params "requestId"]?.map fun hop => (redirect, hop)

/-- The hop that ended moves to its own entry, if the limit leaves room. -/
def endHop (params : Json) (inner : NetworkInner) : NetworkInner × Option String :=
  match endingHop params inner with
  | some (redirect, hop) =>
    let reqId := stringField params "requestId"
    let slots := inner.slots.erase reqId
    if slots.size + 2 > networkEntryLimit then ({ inner with slots := slots, truncated := true }, none)
    else
      let count := inner.redirectHops[reqId]?.getD 0
      let id := hopId reqId count
      ({ inner with
          slots := slots.insert id { hop with entry := endedHop lib redactHeaders params redirect id hop.entry }
          redirectHops := inner.redirectHops.insert reqId (count + 1) }, some id)
  | none => (inner, none)

/-- How many requests there may be when this one comes: one slot is for the main document. -/
def slotLimit (inner : NetworkInner) (resourceType : String) : ℕ :=
  if inner.mainRequestId.isNone && resourceType != "Document" then networkEntryLimit - 1 else networkEntryLimit

def requestWillBeSent (params : Json) (inner : NetworkInner) : NetworkInner × Bool :=
  let reqId := stringField params "requestId"
  let entry := announcedEntry lib redactHeaders params
  if reqId.isEmpty || (!inner.slots.contains reqId && decide (slotLimit inner entry.resourceType ≤ inner.slots.size)) then
    ({ inner with truncated := true }, false)
  else
    let inner :=
      if entry.resourceType == "Document" && inner.mainRequestId.isNone then { inner with mainRequestId := some reqId }
      else inner
    let ended := endHop lib redactHeaders params inner
    let slot := ⟨{ entry with redirectFromRequestId := ended.2 }, now, now⟩
    ({ ended.1 with slots := ended.1.slots.insert reqId slot }, ended.1.mainRequestId == some reqId)

/-- `slots.get_mut(id)`, if there is such a slot. -/
def NetworkInner.update (inner : NetworkInner) (id : String) (f : NetworkEntry → NetworkEntry) : NetworkInner :=
  { inner with slots := inner.slots.modify id fun slot => { slot with entry := f slot.entry } }

def NetworkInner.isMain (inner : NetworkInner) (id : String) : Bool := inner.mainRequestId == some id

/-- A number of bytes. -/
def sizeField (params : Json) (key : String) : Option Json := (params.get key).filter lib.isSize

def respond (params : Json) (entry : NetworkEntry) : NetworkEntry :=
  let response := params.index "response"
  let hints := insertHint entry.hints "protocol" (((response.get "protocol").bind Json.asStr).map Json.str)
  let hints := insertHint hints "remote_address" (((response.get "remoteIPAddress").bind Json.asStr).map Json.str)
  { entry with
    status := ((response.get "status").bind Json.asU64).map asU16
    state := .responded
    mimeType := ((response.get "mimeType").bind Json.asStr).or entry.mimeType
    responseHeaders := headersMap lib redactHeaders (response.get "headers")
    hints := insertHint hints "encoded_header_length" (sizeField lib response "encodedDataLength") }

def finishLoading (params : Json) (entry : NetworkEntry) : NetworkEntry :=
  { entry with
    timing := { entry.timing with endMonotonicMs := some (timestampMs lib params) }
    state := .finished
    hints := insertHint entry.hints "encoded_data_length" (sizeField lib params "encodedDataLength") }

def failLoading (params : Json) (entry : NetworkEntry) : NetworkEntry :=
  { entry with failure := some (stringField params "errorText"), state := .failed }

def NetworkInner.recordFinished (inner : NetworkInner) (id : String) : NetworkInner :=
  if inner.slots.contains id then { inner with finished := insert id inner.finished } else inner

/-- The events that count as activity. -/
def activityMethods : List String :=
  ["Network.requestWillBeSent", "Network.responseReceived", "Network.loadingFinished", "Network.loadingFailed",
    "Network.requestServedFromCache"]

/-- What every event does before its own method is looked at. -/
def touch (event : CdpEvent) (inner : NetworkInner) : NetworkInner :=
  { inner with
    slots := match (event.params.get "requestId").bind Json.asStr with
      | some id =>
        if startsWith event.method "Network." then inner.slots.modify id fun slot => { slot with updatedAt := now }
        else inner.slots
      | none => inner.slots
    lastActivity := if activityMethods.contains event.method then some now else inner.lastActivity }

/-- One event; true if it has changed the main document's entry. -/
def handleEvent (event : CdpEvent) (inner : NetworkInner) : NetworkInner × Bool :=
  let inner := touch now event inner
  let params := event.params
  let id := stringField params "requestId"
  if event.method = "Network.requestWillBeSent" then requestWillBeSent lib redactHeaders now params inner
  else if event.method = "Network.responseReceived" then
    (inner.update id (respond lib redactHeaders params), inner.isMain id)
  else if event.method = "Network.loadingFinished" then
    ((inner.update id (finishLoading lib params)).recordFinished id, inner.isMain id)
  else if event.method = "Network.loadingFailed" then
    ((inner.update id (failLoading params)).recordFinished id, inner.isMain id)
  else if event.method = "Network.requestServedFromCache" then
    (inner.update id fun entry => { entry with hints := entry.hints.insert "served_from_cache" (.bool true) }, false)
  else (inner, false)

end

/-! ## The main document -/

def NetworkEntry.isRedirectHop (entry : NetworkEntry) : Bool :=
  match entry.hints["redirected"]? with
  | some (.bool true) => true
  | _ => false

/-- `max_by_key`: of several greatest elements, the last. -/
def maxByKey {α : Type*} (key : α → ℕ) : List α → Option α :=
  List.foldl (fun best x => match best with
    | some b => if key b ≤ key x then some x else some b
    | none => some x) none

/-- A root-frame Document that is no redirect hop. -/
def isMainCandidate (mainFrameId : String) (slot : NetworkSlot) : Bool :=
  slot.entry.resourceType == "Document" && slot.entry.frameId == some mainFrameId && !slot.entry.isRedirectHop

/-- `slots.values()`, as a pass meets them that meets the ids in this order. -/
def NetworkInner.values (inner : NetworkInner) (order : List String) : List NetworkSlot :=
  order.filterMap (inner.slots[·]?)

/-- The latest root-frame navigation owns main status.  Without one the choice stays. -/
def selectMainDocument (values : List NetworkSlot) (mainFrameId : String) (inner : NetworkInner) : NetworkInner :=
  match maxByKey (·.entry.timing.startMonotonicMs) (values.filter (isMainCandidate mainFrameId)) with
  | some main => { inner with mainRequestId := some main.entry.requestId }
  | none => inner

def NetworkInner.mainEntry (inner : NetworkInner) : Option NetworkEntry :=
  inner.mainRequestId.bind fun id => inner.slots[id]?.map NetworkSlot.entry

/-! ## The log -/

structure NetworkSummary where
  requestsTotal : ℕ
  responsesTotal : ℕ
  finishedTotal : ℕ
  failedTotal : ℕ
  incompleteTotal : ℕ
  inflightTotalAtCapture : ℕ
  pendingByResourceType : BTreeMap ℕ
  capturedBodyFiles : ℕ
  redacted : Bool
  eventsDropped : ℕ
  truncated : Bool

def pendingByResourceType (entries : List NetworkEntry) : BTreeMap ℕ :=
  entries.foldl (fun out entry =>
    if entry.state.unfinished then out.insert entry.resourceType (out[entry.resourceType]?.getD 0 + 1) else out) ∅

/-- The sum of the values of a count by type. -/
def inflightTotal (pending : BTreeMap ℕ) : ℕ := (pending.toList.map Prod.snd).sum

def summarizeEntries (entries : List NetworkEntry) (redacted : Bool) : NetworkSummary where
  requestsTotal := entries.length
  responsesTotal := entries.countP fun e => e.status.isSome
  finishedTotal := entries.countP fun e => e.state == .finished
  failedTotal := entries.countP fun e => e.state == .failed || e.failure.isSome
  incompleteTotal := inflightTotal (pendingByResourceType entries)
  inflightTotalAtCapture := inflightTotal (pendingByResourceType entries)
  pendingByResourceType := pendingByResourceType entries
  capturedBodyFiles := entries.countP fun e => e.bodyFile.isSome
  redacted := redacted
  eventsDropped := 0
  truncated := false

structure NetworkLog where
  mainRequestId : Option String
  entries : List NetworkEntry
  summary : NetworkSummary

/-- `finish`: the entries by request id. -/
def NetworkInner.finish (inner : NetworkInner) (values : List NetworkSlot) (redacted : Bool) : NetworkLog :=
  let entries := (values.map NetworkSlot.entry).mergeSort fun a b => decide (a.requestId ≤ b.requestId)
  { mainRequestId := inner.mainRequestId
    entries := entries
    summary := { summarizeEntries entries redacted with
      eventsDropped := inner.eventsDropped
      truncated := inner.truncated } }

/-! ## The collector -/

structure CollectorConfig where
  lib : CollectorLib
  sessionId : String
  redactHeaders : Bool

inductive CollectorStep where
  /-- The task receives an event. -/
  | event (event : CdpEvent) (now : ℕ)
  /-- It learns that it has lost some. -/
  | lagged (count now : ℕ)
  /-- A caller selects the main document; the pass meets the slots in this order. -/
  | select (mainFrameId : String) (order : List String)

/-- An event of another session is left alone. -/
def onEvent (cfg : CollectorConfig) (event : CdpEvent) (now : ℕ) (inner : NetworkInner) : NetworkInner × Bool :=
  if event.sessionId = some cfg.sessionId then handleEvent cfg.lib cfg.redactHeaders now event inner else (inner, false)

def collectorStep (cfg : CollectorConfig) (inner : NetworkInner) : CollectorStep → NetworkInner
  | .event event now => (onEvent cfg event now inner).1
  | .lagged count now =>
    { inner with eventsDropped := min (inner.eventsDropped + count) (2 ^ 64 - 1), lastActivity := some now }
  | .select mainFrameId order => selectMainDocument (inner.values order) mainFrameId inner

/-- The state after the steps. -/
def collect (cfg : CollectorConfig) (es : List CollectorStep) : NetworkInner :=
  es.foldl (collectorStep cfg) .default

end Afhttp.Collect

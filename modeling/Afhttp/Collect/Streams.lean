import Mathlib
import Afhttp.Collect.Network

/-!
# The streams of a page

The second half of `sdk/fetch/artifacts/collectors.rs`: the frames of WebSockets and the events of
event sources, kept by request id beside the network entries, each as far as the limits on its
request allow.  `captureStep` is what the collector's task does with one event when both kinds of
capture are asked for, or one, or none.

    a request's stream never holds more than its limits            (pushStreamEvent_bounded)
    nor do the collector's streams, whatever the browser sends          (captured_bounded)
-/

namespace Afhttp.Collect

open Text Fetch

/-! ## One request's stream -/

structure StreamEvents where
  events : List Json
  /-- Kept after a drain, as is `capturedBytes`. -/
  capturedTotal : ℕ
  capturedBytes : ℕ

def StreamEvents.default : StreamEvents := ⟨[], 0, 0⟩

abbrev StreamMap := HashMap StreamEvents

def streamEventLimitPerRequest : ℕ := 1024

def streamPayloadBytesPerRequest : ℕ := 1024 * 1024

/-- `&s[..s.floor_char_boundary(budget)]`. -/
def floorChars : ℕ → List Char → List Char
  | _, [] => []
  | budget, c :: rest => if c.utf8Size ≤ budget then c :: floorChars (budget - c.utf8Size) rest else []

/-- `event[key] = value` on an object. -/
def setField (key : String) (value : Json) (event : Json) : Json :=
  match event with
  | .obj fields =>
    if (fields.lookup key).isSome then
      .obj (fields.map fun field => if field.1 = key then (key, value) else field)
    else .obj (fields ++ [(key, value)])
  | other => other

/-- An event whose payload is cut to the budget. -/
def cutPayload (budget : ℕ) (event : Json) (payloadKey : String) (payloadLen : ℕ) : Json :=
  let payload := ((event.index payloadKey).asStr).getD ""
  let kept := String.ofList (floorChars budget payload.toList)
  setField "payload_bytes" (.posInt payloadLen)
    (setField "payload_truncated" (.bool true) (setField payloadKey (.str kept) event))

/-- Keeps the event under the limits; false if something was dropped or cut. -/
def pushStreamEvent (map : StreamMap) (requestId : String) (event : Json) (payloadKey : String) :
    StreamMap × Bool :=
  if !map.contains requestId && decide (networkEntryLimit ≤ map.size) then (map, false)
  else
    let bucket := map[requestId]?.getD .default
    if streamEventLimitPerRequest ≤ bucket.capturedTotal then (map.insert requestId bucket, false)
    else
      let budget := streamPayloadBytesPerRequest - bucket.capturedBytes
      let payloadLen := (((event.get payloadKey).bind Json.asStr).map String.utf8ByteSize).getD 0
      if budget < payloadLen then
        if budget = 0 then (map.insert requestId bucket, false)
        else
          (map.insert requestId ⟨bucket.events ++ [cutPayload budget event payloadKey payloadLen],
            bucket.capturedTotal + 1, bucket.capturedBytes + budget⟩, false)
      else
        (map.insert requestId
          ⟨bucket.events ++ [event], bucket.capturedTotal + 1, bucket.capturedBytes + payloadLen⟩, true)

/-- The events of each request that has some, as a pass meets the ids in this order, and what is
left in the map. -/
def takeStreamEvents (map : StreamMap) (order : List String) : List (String × List Json) × StreamMap :=
  (order.filterMap fun id => (map[id]?.filter fun bucket => !bucket.events.isEmpty).map fun bucket =>
      (id, bucket.events),
    map.map fun _ bucket => { bucket with events := [] })

/-! ## One event -/

/-- `NetworkInner`, with its streams. -/
structure CaptureInner where
  network : NetworkInner
  wsFrames : StreamMap
  sseEvents : StreamMap

def CaptureInner.default : CaptureInner := ⟨.default, ∅, ∅⟩

/-- The frame that a WebSocket event reports.  `nowMs` is the wall clock. -/
def wsFrame (nowMs : ℕ) (event : CdpEvent) : Option Json :=
  let response := event.params.index "response"
  let frame := fun type => Json.obj [("type", .str type),
    ("opcode", .posInt (((response.get "opcode").bind Json.asU64).getD 1)),
    ("mask", .bool (((response.get "mask").bind Json.asBool).getD false)),
    ("payload", .str (((response.get "payloadData").bind Json.asStr).getD "")),
    ("timestamp_epoch_ms", .posInt nowMs)]
  if event.method = "Network.webSocketFrameSent" then some (frame "sent")
  else if event.method = "Network.webSocketFrameReceived" then some (frame "received")
  else if event.method = "Network.webSocketFrameError" then
    some (.obj [("type", .str "error"),
      ("error", .str (((event.params.get "errorMessage").bind Json.asStr).getD "unknown")),
      ("timestamp_epoch_ms", .posInt nowMs)])
  else none

/-- The message that an event source reports. -/
def sseEvent (lib : CollectorLib) (event : CdpEvent) : Option Json :=
  let field := fun key => Json.str (((event.params.get key).bind Json.asStr).getD "")
  if event.method = "Network.eventSourceMessageReceived" then
    some (.obj [("event_name", field "eventName"), ("data", field "data"), ("event_id", field "eventId"),
      ("timestamp_monotonic_ms", .posInt (timestampMs lib event.params))])
  else none

/-- Activity, and whether the limits have cut something. -/
def NetworkInner.streamed (inner : NetworkInner) (now : ℕ) (kept : Bool) : NetworkInner :=
  { inner with lastActivity := some now, truncated := inner.truncated || !kept }

/-- `handle_ws_event`. -/
def handleWsEvent (now nowMs : ℕ) (event : CdpEvent) (inner : CaptureInner) : CaptureInner :=
  match wsFrame nowMs event with
  | none => inner
  | some frame =>
    let id := stringField event.params "requestId"
    if id.isEmpty then { inner with network := inner.network.streamed now true }
    else
      let pushed := pushStreamEvent inner.wsFrames id frame "payload"
      { inner with network := inner.network.streamed now pushed.2, wsFrames := pushed.1 }

/-- `handle_sse_event`. -/
def handleSseEvent (lib : CollectorLib) (now : ℕ) (event : CdpEvent) (inner : CaptureInner) : CaptureInner :=
  match sseEvent lib event with
  | none => inner
  | some message =>
    let id := stringField event.params "requestId"
    if id.isEmpty then { inner with network := inner.network.streamed now true }
    else
      let pushed := pushStreamEvent inner.sseEvents id message "data"
      { inner with network := inner.network.streamed now pushed.2, sseEvents := pushed.1 }

structure CaptureConfig where
  collector : CollectorConfig
  captureWs : Bool
  captureSse : Bool

/-- A step of the collector, and the wall clock. -/
abbrev CaptureEvent := CollectorStep × ℕ

def captureStep (cfg : CaptureConfig) (inner : CaptureInner) (e : CaptureEvent) : CaptureInner :=
  let inner := { inner with network := collectorStep cfg.collector inner.network e.1 }
  match e.1 with
  | .event event now =>
    if event.sessionId = some cfg.collector.sessionId then
      let inner := if cfg.captureWs then handleWsEvent now e.2 event inner else inner
      if cfg.captureSse then handleSseEvent cfg.collector.lib now event inner else inner
    else inner
  | _ => inner

/-! ## The limits -/

/-- A stream within the limits on its request. -/
structure StreamEvents.Within (bucket : StreamEvents) : Prop where
  kept : bucket.events.length ≤ bucket.capturedTotal
  count : bucket.capturedTotal ≤ streamEventLimitPerRequest
  bytes : bucket.capturedBytes ≤ streamPayloadBytesPerRequest

/-- Streams within the limits, on a limited number of requests. -/
structure StreamsBounded (map : StreamMap) : Prop where
  size : map.size ≤ networkEntryLimit
  within : ∀ (id : String) (bucket : StreamEvents), map[id]? = some bucket → bucket.Within

/-- Both kinds of streams are. -/
structure CaptureInner.Bounded (inner : CaptureInner) : Prop where
  wsFrames : StreamsBounded inner.wsFrames
  sseEvents : StreamsBounded inner.sseEvents

theorem StreamsBounded.empty : StreamsBounded ∅ := by
  refine ⟨Nat.zero_le _, fun id bucket h => ?_⟩
  rw [Std.ExtTreeMap.getElem?_empty] at h
  cases h

/-- The bucket of a request, or a new one. -/
theorem StreamsBounded.bucket {map : StreamMap} (h : StreamsBounded map) (id : String) :
    (map[id]?.getD .default).Within := by
  cases hid : map[id]? with
  | none => exact ⟨Nat.le_refl _, Nat.zero_le _, Nat.zero_le _⟩
  | some bucket => exact h.within id bucket hid

/-- A bucket that is within the limits takes the place of the request's. -/
theorem StreamsBounded.insert {map : StreamMap} (h : StreamsBounded map) {id : String} {bucket : StreamEvents}
    (hroom : map.contains id = true ∨ map.size < networkEntryLimit) (hwithin : bucket.Within) :
    StreamsBounded (map.insert id bucket) := by
  constructor
  · have hsize := h.size
    rw [Std.ExtTreeMap.size_insert]
    split
    · exact hsize
    · next hnew =>
      have hlt : map.size < networkEntryLimit := hroom.resolve_left hnew
      omega
  · intro k b hk
    rw [map_insert] at hk
    split at hk
    · cases hk
      exact hwithin
    · exact h.within k b hk

/-- **The limits on a request's stream.** -/
theorem pushStreamEvent_bounded {map : StreamMap} (h : StreamsBounded map) (id : String) (event : Json)
    (key : String) : StreamsBounded (pushStreamEvent map id event key).1 := by
  have hbucket := h.bucket id
  unfold pushStreamEvent
  split
  · exact h
  · next hroom =>
    have hroom : map.contains id = true ∨ map.size < networkEntryLimit := by
      rw [Bool.and_eq_true, Bool.not_eq_true', decide_eq_true_eq, not_and_or] at hroom
      exact hroom.imp (fun hin => Bool.eq_true_of_not_eq_false hin) Nat.lt_of_not_le
    simp only []
    split
    · exact h.insert hroom hbucket
    · next hcount =>
      have hmore : (map[id]?.getD .default).capturedTotal + 1 ≤ streamEventLimitPerRequest := by omega
      -- one event more, and bytes within what is left
      have hpush : ∀ (e : Json) (bytes : ℕ),
          (map[id]?.getD .default).capturedBytes + bytes ≤ streamPayloadBytesPerRequest →
          StreamsBounded (map.insert id ⟨(map[id]?.getD .default).events ++ [e],
            (map[id]?.getD .default).capturedTotal + 1, (map[id]?.getD .default).capturedBytes + bytes⟩) := by
        intro e bytes hbytes
        refine h.insert hroom ⟨?_, hmore, hbytes⟩
        rw [List.length_append, List.length_singleton]
        exact Nat.succ_le_succ hbucket.kept
      have hleft := hbucket.bytes
      split
      · split
        · exact h.insert hroom hbucket
        · exact hpush _ _ (by omega)
      · next hfits => exact hpush _ _ (by omega)

theorem handleWsEvent_bounded {inner : CaptureInner} (h : inner.Bounded)
    (now nowMs : ℕ) (event : CdpEvent) :
    (handleWsEvent now nowMs event inner).Bounded := by
  unfold handleWsEvent
  split
  · exact h
  · simp only []
    split
    · exact ⟨h.1, h.2⟩
    · exact ⟨pushStreamEvent_bounded h.1 _ _ _, h.2⟩

theorem handleSseEvent_bounded {inner : CaptureInner} (h : inner.Bounded)
    (lib : CollectorLib) (now : ℕ) (event : CdpEvent) :
    (handleSseEvent lib now event inner).Bounded := by
  unfold handleSseEvent
  split
  · exact h
  · simp only []
    split
    · exact ⟨h.1, h.2⟩
    · exact ⟨h.1, pushStreamEvent_bounded h.2 _ _ _⟩

theorem captureStep_bounded (cfg : CaptureConfig) {inner : CaptureInner} (h : inner.Bounded)
    (e : CaptureEvent) : (captureStep cfg inner e).Bounded := by
  have hstepped : CaptureInner.Bounded
      { inner with network := collectorStep cfg.collector inner.network e.1 } := ⟨h.1, h.2⟩
  unfold captureStep
  generalize { inner with network := collectorStep cfg.collector inner.network e.1 } = stepped at hstepped ⊢
  obtain ⟨step, nowMs⟩ := e
  cases step with
  | event event now =>
    simp only []
    have hws : (if cfg.captureWs then handleWsEvent now nowMs event stepped else stepped).Bounded := by
      split
      · exact handleWsEvent_bounded hstepped _ _ _
      · exact hstepped
    split
    · split
      · exact handleSseEvent_bounded hws _ _ _
      · exact hws
    · exact hstepped
  | lagged => exact hstepped
  | select => exact hstepped

/-- **The limits hold throughout**, whatever the browser sends. -/
theorem captured_bounded (cfg : CaptureConfig) (es : List CaptureEvent) :
    (es.foldl (captureStep cfg) .default).Bounded := by
  induction es using List.reverseRecOn with
  | nil => exact ⟨.empty, .empty⟩
  | append_singleton es e ih =>
    rw [List.foldl_append, List.foldl_cons, List.foldl_nil]
    exact captureStep_bounded cfg ih e

end Afhttp.Collect

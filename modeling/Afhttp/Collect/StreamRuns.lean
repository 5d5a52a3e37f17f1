import Mathlib
import Afhttp.Lib.Run
import Afhttp.Shared.JsonPath
import Afhttp.Collect.Streams
import Afhttp.Collect.RequestTable

/-!
# What a page's streams keep

Runs of the collector's stream handlers and of the drains between them, in any order.  A ghost log
holds each event that was offered with what it added to its request's stream, seen in the stream
itself and not in what `pushStreamEvent` answers.

    an event is kept whole, cut at a character boundary, or dropped     (pushStreamEvent_outcome)
    a drain empties each stream once                                    (drained_eq)
    the limits, the order and the flag over whole runs                  (streams_honest)
-/

namespace Afhttp.Collect

open Fetch

/-! ## Cuts -/

def payloadOf (key : String) (event : Json) : String := ((event.get key).bind Json.asStr).getD ""

def payloadBytes (key : String) (event : Json) : ℕ := (payloadOf key event).utf8ByteSize

/-- The event with a true prefix of its payload, marked as cut, and as it was beyond that. -/
structure IsCut (key : String) (event cut : Json) : Prop where
  payload : ∃ rest, rest ≠ "" ∧ payloadOf key event = payloadOf key cut ++ rest
  truncated : cut.get "payload_truncated" = some (.bool true)
  bytes : cut.get "payload_bytes" = some (.posInt (payloadBytes key event))
  others : ∀ k, k ≠ key → k ≠ "payload_truncated" → k ≠ "payload_bytes" → cut.get k = event.get k

theorem floorChars_prefix (budget : ℕ) (chars : List Char) : floorChars budget chars <+: chars := by
  induction chars generalizing budget with
  | nil => exact List.prefix_rfl
  | cons c chars ih =>
    rw [floorChars]
    split
    · exact List.cons_prefix_cons.mpr ⟨rfl, ih _⟩
    · exact List.nil_prefix

theorem floorChars_bytes (budget : ℕ) (chars : List Char) :
    (String.ofList (floorChars budget chars)).utf8ByteSize ≤ budget := by
  induction chars generalizing budget with
  | nil => exact Nat.zero_le _
  | cons c chars ih =>
    rw [floorChars]
    split
    · next hfits =>
      have htail := ih (budget - c.utf8Size)
      rw [String.utf8ByteSize_ofList] at htail ⊢
      rw [String.utf8Len_cons]
      omega
    · exact Nat.zero_le _

theorem get_setField (key k : String) (value : Json) (fields : List (String × Json)) :
    (setField key value (.obj fields)).get k = if key = k then some value else fields.lookup k := by
  rw [setField]
  split
  · next hin =>
    have hmap : (fields.map fun field => if field.1 = key then (key, value) else field) =
        fields.map fun field => (field.1, if key = field.1 then value else field.2) := by
      refine List.map_congr_left fun field _ => ?_
      by_cases hk : field.1 = key
      · rw [if_pos hk, if_pos hk.symm, hk]
      · rw [if_neg hk, if_neg fun hk' => hk hk'.symm]
    show (fields.map _).lookup k = _
    rw [hmap, Json.lookup_map_snd fun name x => if key = name then value else x]
    by_cases hk : key = k
    · subst hk
      obtain ⟨x, hx⟩ := Option.isSome_iff_exists.mp hin
      rw [hx, if_pos rfl]
      exact congrArg some (if_pos rfl)
    · simp only [if_neg hk]
      exact Option.map_id'
  · next hout =>
    rw [Option.not_isSome_iff_eq_none] at hout
    show (fields ++ [(key, value)]).lookup k = _
    rw [List.lookup_append, List.lookup_cons]
    by_cases hk : key = k
    · subst hk
      rw [hout, beq_self_eq_true, if_pos rfl]
      rfl
    · rw [beq_false_of_ne (Ne.symm hk), if_neg hk]
      exact Option.or_none

/-- An event that is over the budget is cut, to no more than the budget. -/
theorem cutPayload_isCut {key : String} (hkey : key ≠ "payload_truncated" ∧ key ≠ "payload_bytes")
    {budget : ℕ} {event : Json} (hover : budget < payloadBytes key event) :
    IsCut key event (cutPayload budget event key (payloadBytes key event)) ∧
      payloadBytes key (cutPayload budget event key (payloadBytes key event)) ≤ budget := by
  cases event with
  | obj fields =>
    have hpayload : ((Json.obj fields).index key).asStr.getD "" = payloadOf key (.obj fields) := by
      unfold payloadOf Json.index
      cases (Json.obj fields).get key <;> rfl
    unfold cutPayload
    dsimp only
    rw [hpayload]
    generalize hkept : String.ofList (floorChars budget (payloadOf key (.obj fields)).toList) = kept
    -- each `setField` gives an object
    obtain ⟨fields₁, h₁⟩ : ∃ fields₁, setField key (.str kept) (.obj fields) = .obj fields₁ := by
      rw [setField]
      split <;> exact ⟨_, rfl⟩
    obtain ⟨fields₂, h₂⟩ : ∃ fields₂, setField "payload_truncated" (.bool true) (.obj fields₁) = .obj fields₂ := by
      rw [setField]
      split <;> exact ⟨_, rfl⟩
    have hget₁ : ∀ k, fields₁.lookup k = if key = k then some (.str kept) else fields.lookup k := by
      intro k
      rw [← get_setField, h₁]
      rfl
    have hget₂ : ∀ k, fields₂.lookup k =
        if "payload_truncated" = k then some (.bool true) else fields₁.lookup k := by
      intro k
      rw [← get_setField, h₂]
      rfl
    have hcut : payloadOf key
        (setField "payload_bytes" (.posInt (payloadBytes key (.obj fields))) (.obj fields₂)) = kept := by
      unfold payloadOf
      rw [get_setField, if_neg (Ne.symm hkey.2), hget₂, if_neg (Ne.symm hkey.1), hget₁, if_pos rfl]
      rfl
    have hbytes : kept.utf8ByteSize ≤ budget := by
      rw [← hkept]
      exact floorChars_bytes _ _
    rw [h₁, h₂]
    refine ⟨⟨?_, ?_, ?_, fun k hk ht hb => ?_⟩, ?_⟩
    · obtain ⟨rest, hrest⟩ := floorChars_prefix budget (payloadOf key (.obj fields)).toList
      have hsplit : payloadOf key (.obj fields) = kept ++ String.ofList rest := by
        rw [← hkept, ← String.ofList_append, hrest, String.ofList_toList]
      rw [hcut]
      refine ⟨String.ofList rest, fun hempty => ?_, hsplit⟩
      rw [hempty, String.append_empty] at hsplit
      rw [payloadBytes, hsplit] at hover
      omega
    · rw [get_setField, if_neg (by decide), hget₂, if_pos rfl]
    · rw [get_setField, if_pos rfl]
    · rw [get_setField, if_neg (Ne.symm hb), hget₂, if_neg (Ne.symm ht), hget₁, if_neg (Ne.symm hk)]
      rfl
    · rw [payloadBytes, hcut]
      exact hbytes
  | _ => exact absurd hover (Nat.not_lt_zero _)

theorem IsCut.ne {key : String} {event cut : Json} (h : IsCut key event cut) : cut ≠ event := by
  rintro rfl
  obtain ⟨rest, hne, hsplit⟩ := h.payload
  have hsize := congrArg String.utf8ByteSize hsplit
  rw [String.utf8ByteSize_append] at hsize
  have hzero : rest.utf8ByteSize = 0 := by omega
  exact hne (String.utf8ByteSize_eq_zero_iff.mp hzero)

/-! ## One event -/

/-- What an event adds to its request's stream. -/
inductive Outcome (key : String) (event : Json) : List Json → Prop where
  | dropped : Outcome key event []
  | whole : Outcome key event [event]
  | cut {cut : Json} (h : IsCut key event cut) : Outcome key event [cut]

def bucketOf (map : StreamMap) (id : String) : StreamEvents := map[id]?.getD .default

/-- More events, and the bytes they are charged. -/
def StreamEvents.add (bucket : StreamEvents) (kept : List Json) (charged : ℕ) : StreamEvents :=
  ⟨bucket.events ++ kept, bucket.capturedTotal + kept.length, bucket.capturedBytes + charged⟩

theorem StreamEvents.add_nil (bucket : StreamEvents) : bucket.add [] 0 = bucket := by
  cases bucket
  rw [add, List.append_nil]
  rfl

theorem bucketOf_insert (map : StreamMap) (id k : String) (bucket : StreamEvents) :
    bucketOf (map.insert id bucket) k = if id = k then bucket else bucketOf map k := by
  unfold bucketOf
  rw [map_insert]
  split <;> rfl

/-- **One event**: kept whole, cut or dropped, and the answer says which. -/
theorem pushStreamEvent_outcome {key : String} (hkey : key ≠ "payload_truncated" ∧ key ≠ "payload_bytes")
    (map : StreamMap) (id : String) (event : Json) :
    ∃ kept charged, Outcome key event kept ∧ (kept.map (payloadBytes key)).sum ≤ charged ∧
      (∀ k, bucketOf (pushStreamEvent map id event key).1 k =
        if id = k then (bucketOf map k).add kept charged else bucketOf map k) ∧
      ((pushStreamEvent map id event key).2 = true ↔ kept = [event]) := by
  have hlen : (((event.get key).bind Json.asStr).map String.utf8ByteSize).getD 0 = payloadBytes key event := by
    unfold payloadBytes payloadOf
    cases (event.get key).bind Json.asStr <;> rfl
  have hsame : ∀ k, (if id = k then (bucketOf map k).add [] 0 else bucketOf map k) = bucketOf map k := by
    intro k
    rw [StreamEvents.add_nil, ite_self]
  have hold : ∀ k, bucketOf (map.insert id (bucketOf map id)) k = bucketOf map k := by
    intro k
    rw [bucketOf_insert]
    split
    · next hk => rw [hk]
    · rfl
  have hnew : ∀ kept charged k, bucketOf (map.insert id ((bucketOf map id).add kept charged)) k =
      if id = k then (bucketOf map k).add kept charged else bucketOf map k := by
    intro kept charged k
    rw [bucketOf_insert]
    split
    · next hk => rw [hk]
    · rfl
  unfold pushStreamEvent
  dsimp only
  rw [hlen, ← bucketOf]
  split
  · exact ⟨[], 0, .dropped, Nat.le_refl _, fun k => (hsame k).symm, by simp⟩
  split
  · exact ⟨[], 0, .dropped, Nat.le_refl _, fun k => (hold k).trans (hsame k).symm, by simp⟩
  split
  · next hover =>
    split
    · exact ⟨[], 0, .dropped, Nat.le_refl _, fun k => (hold k).trans (hsame k).symm, by simp⟩
    · obtain ⟨hcut, hbytes⟩ := cutPayload_isCut hkey hover
      refine ⟨[_], _, .cut hcut, ?_, hnew [_] _, ?_⟩
      · rw [List.map_singleton, List.sum_singleton]
        exact hbytes
      · simp [hcut.ne]
  · refine ⟨[event], _, .whole, ?_, hnew [event] _, by simp⟩
    rw [List.map_singleton, List.sum_singleton]

/-! ## Drains -/

/-- What a drain returns for one id. -/
theorem drained_head (map : StreamMap) (id k : String) :
    ((((map[k]?.filter fun bucket => !bucket.events.isEmpty).map fun bucket =>
        (k, bucket.events)).toList.filter fun entry => decide (entry.1 = id)).flatMap Prod.snd) =
      if k = id then (bucketOf map id).events else [] := by
  unfold bucketOf
  cases hk : map[k]? with
  | none =>
    split
    · next hid =>
      rw [← hid, hk]
      rfl
    · rfl
  | some bucket =>
    by_cases hempty : bucket.events.isEmpty = true
    · rw [Option.filter_some_neg (by simp [hempty])]
      split
      · next hid =>
        rw [← hid, hk]
        exact (List.isEmpty_iff.mp hempty).symm
      · rfl
    · rw [Option.filter_some_pos (by simp [hempty]), Option.map_some, Option.toList_some]
      split
      · next hid =>
        rw [← hid, hk, List.filter_cons, if_pos (decide_eq_true rfl)]
        exact List.append_nil _
      · next hid =>
        rw [List.filter_cons_of_neg (by simpa using hid)]
        rfl

/-- An order that meets each id once. -/
theorem drained_order (map : StreamMap) (id : String) {order : List String} (hnodup : order.Nodup) :
    ((takeStreamEvents map order).1.filter fun entry => decide (entry.1 = id)).flatMap Prod.snd =
      if id ∈ order then (bucketOf map id).events else [] := by
  unfold takeStreamEvents
  dsimp only
  induction order with
  | nil => rfl
  | cons k order ih =>
    obtain ⟨hout, hnodup⟩ := List.nodup_cons.mp hnodup
    have htail := ih hnodup
    rw [List.filterMap_eq_flatMap_toList] at htail ⊢
    rw [List.flatMap_cons, List.filter_append, List.flatMap_append, drained_head, htail]
    by_cases hid : k = id
    · rw [if_pos hid, if_neg (hid ▸ hout), if_pos (hid ▸ List.mem_cons_self), List.append_nil]
    · rw [if_neg hid, List.nil_append]
      simp only [List.mem_cons, Ne.symm hid, false_or]

/-- **A drain** returns each stream's events once, and empties it. -/
theorem drained_eq (map : StreamMap) {order : List String} (horder : order.Perm map.keys) (id : String) :
    ((takeStreamEvents map order).1.filter fun entry => decide (entry.1 = id)).flatMap Prod.snd =
      (bucketOf map id).events ∧
    bucketOf (takeStreamEvents map order).2 id = { bucketOf map id with events := [] } := by
  constructor
  · rw [drained_order map id (horder.nodup_iff.mpr Std.ExtTreeMap.nodup_keys)]
    split
    · rfl
    · next hout =>
      have hnone : map[id]? = none := by
        rw [horder.mem_iff, Std.ExtTreeMap.mem_keys] at hout
        exact Std.ExtTreeMap.getElem?_eq_none hout
      rw [bucketOf, hnone]
      rfl
  · unfold bucketOf takeStreamEvents
    rw [Std.ExtTreeMap.getElem?_map]
    cases map[id]? <;> rfl

theorem StreamsBounded.drained {map : StreamMap} (h : StreamsBounded map) (order : List String) :
    StreamsBounded (takeStreamEvents map order).2 := by
  constructor
  · rw [takeStreamEvents, Std.ExtTreeMap.size_map]
    exact h.size
  · intro id bucket hid
    rw [takeStreamEvents, Std.ExtTreeMap.getElem?_map] at hid
    obtain ⟨old, hold, rfl⟩ := Option.map_eq_some_iff.mp hid
    have hwithin := h.within id old hold
    exact ⟨Nat.zero_le _, hwithin.count, hwithin.bytes⟩

/-! ## Runs -/

inductive StreamKind where
  | ws
  | sse
  deriving DecidableEq

def StreamKind.payloadKey : StreamKind → String
  | .ws => "payload"
  | .sse => "data"

/-- What the event reports on a stream of the kind. -/
def StreamKind.message (lib : CollectorLib) (nowMs : ℕ) : StreamKind → CdpEvent → Option Json
  | .ws, event => wsFrame nowMs event
  | .sse, event => sseEvent lib event

def StreamKind.handle (lib : CollectorLib) (now nowMs : ℕ) : StreamKind → CdpEvent → CaptureInner → CaptureInner
  | .ws, event, inner => handleWsEvent now nowMs event inner
  | .sse, event, inner => handleSseEvent lib now event inner

def CaptureInner.streams (inner : CaptureInner) : StreamKind → StreamMap
  | .ws => inner.wsFrames
  | .sse => inner.sseEvents

def CaptureInner.setStreams (inner : CaptureInner) (map : StreamMap) : StreamKind → CaptureInner
  | .ws => { inner with wsFrames := map }
  | .sse => { inner with sseEvents := map }

/-- An event that was offered, and what it added to its request's stream. -/
structure Offer where
  kind : StreamKind
  id : String
  event : Json
  kept : List Json

/-- The collector, what the drains have returned, and the ghost log. -/
structure StreamWorld where
  inner : CaptureInner
  drained : List (StreamKind × List (String × List Json))
  offers : List Offer

inductive StreamStep where
  | event (kind : StreamKind) (event : CdpEvent) (now nowMs : ℕ)
  /-- `take_ws_frames` or `take_sse_events`, with the order in which the map is met. -/
  | drain (kind : StreamKind) (order : List String)

namespace StreamWorld

/-- A collector that has seen no stream yet. -/
def start (network : NetworkInner) : StreamWorld := ⟨⟨network, ∅, ∅⟩, [], []⟩

def bucket (w : StreamWorld) (kind : StreamKind) (id : String) : StreamEvents := bucketOf (w.inner.streams kind) id

def step (lib : CollectorLib) (w : StreamWorld) : StreamStep → Option StreamWorld
  | .event kind event now nowMs =>
    let inner := kind.handle lib now nowMs event w.inner
    let id := stringField event.params "requestId"
    let kept := (bucketOf (inner.streams kind) id).events.drop (w.bucket kind id).events.length
    some ⟨inner, w.drained, w.offers ++ (kind.message lib nowMs event).toList.map fun message =>
      ⟨kind, id, message, kept⟩⟩
  | .drain kind order =>
    if order.Perm (w.inner.streams kind).keys then
      let taken := takeStreamEvents (w.inner.streams kind) order
      some ⟨w.inner.setStreams taken.2 kind, w.drained ++ [(kind, taken.1)], w.offers⟩
    else none

/-- What was kept of a request's events, over all drains. -/
def keptOf (w : StreamWorld) (kind : StreamKind) (id : String) : List Json :=
  (w.offers.filter fun o => decide (o.kind = kind ∧ o.id = id)).flatMap Offer.kept

/-- What the drains have returned of it. -/
def drainedOf (w : StreamWorld) (kind : StreamKind) (id : String) : List Json :=
  (w.drained.filter fun d => decide (d.1 = kind)).flatMap fun d =>
    (d.2.filter fun entry => decide (entry.1 = id)).flatMap Prod.snd

/-- The streams are within their limits, the drains return what was kept, and the flag is honest. -/
structure Honest (w : StreamWorld) (flag : Bool) : Prop where
  bytes : ∀ kind id, ((w.keptOf kind id).map (payloadBytes kind.payloadKey)).sum ≤ streamPayloadBytesPerRequest
  events : ∀ kind id, (w.keptOf kind id).length ≤ streamEventLimitPerRequest
  ids : ∀ kind, (w.inner.streams kind).size ≤ networkEntryLimit
  /-- The budget that is left does not underflow. -/
  budget : ∀ (kind : StreamKind) (id : String) (bucket : StreamEvents), (w.inner.streams kind)[id]? = some bucket →
    bucket.capturedBytes ≤ streamPayloadBytesPerRequest
  outcomes : ∀ o ∈ w.offers, Outcome o.kind.payloadKey o.event o.kept
  drains : ∀ kind id, w.drainedOf kind id ++ (w.bucket kind id).events = w.keptOf kind id
  flag : w.inner.network.truncated = true ↔ flag = true ∨ ∃ o ∈ w.offers, o.kept ≠ [o.event]

end StreamWorld

/-- The event's request has an id. -/
def StreamStep.Identified : StreamStep → Prop
  | .event _ e _ _ => stringField e.params "requestId" ≠ ""
  | .drain _ _ => True

instance : (e : StreamStep) → Decidable e.Identified
  | .event _ e _ _ => inferInstanceAs (Decidable (stringField e.params "requestId" ≠ ""))
  | .drain _ _ => isTrue trivial

/-! ## What a step keeps -/

/-- The kept events against the counters. -/
structure StreamWorld.Accounts (w : StreamWorld) (flag : Bool) : Prop where
  bounded : w.inner.Bounded
  count : ∀ kind id, (w.keptOf kind id).length = (w.bucket kind id).capturedTotal
  bytes : ∀ kind id, ((w.keptOf kind id).map (payloadBytes kind.payloadKey)).sum ≤ (w.bucket kind id).capturedBytes
  outcomes : ∀ o ∈ w.offers, Outcome o.kind.payloadKey o.event o.kept
  drains : ∀ kind id, w.drainedOf kind id ++ (w.bucket kind id).events = w.keptOf kind id
  flag : w.inner.network.truncated = true ↔ flag = true ∨ ∃ o ∈ w.offers, o.kept ≠ [o.event]

namespace StreamWorld

theorem accounts_start (network : NetworkInner) : (start network).Accounts network.truncated := by
  have hbucket : ∀ kind id, (start network).bucket kind id = .default := by
    intro kind id
    unfold bucket bucketOf
    have hempty : ((start network).inner.streams kind)[id]? = none := by
      cases kind <;> exact Std.ExtTreeMap.getElem?_empty
    rw [hempty]
    rfl
  refine ⟨⟨.empty, .empty⟩, fun kind id => ?_, fun kind id => Nat.zero_le _, fun o ho => ?_, fun kind id => ?_, ?_⟩
  · rw [hbucket]
    rfl
  · cases ho
  · rw [hbucket]
    rfl
  · show network.truncated = true ↔ _
    simp [start]

variable {lib : CollectorLib} {w w' : StreamWorld} {flag : Bool}

theorem handle_none {kind : StreamKind} {now nowMs : ℕ} {event : CdpEvent} (inner : CaptureInner)
    (h : kind.message lib nowMs event = none) : kind.handle lib now nowMs event inner = inner := by
  cases kind with
  | ws =>
    have hframe : wsFrame nowMs event = none := h
    rw [StreamKind.handle, handleWsEvent, hframe]
  | sse =>
    have hmessage : sseEvent lib event = none := h
    rw [StreamKind.handle, handleSseEvent, hmessage]

/-- A message of a request with an id is pushed onto its kind's streams. -/
theorem handle_some {kind : StreamKind} {now nowMs : ℕ} {event : CdpEvent} {message : Json} (inner : CaptureInner)
    (h : kind.message lib nowMs event = some message) (hid : stringField event.params "requestId" ≠ "") :
    kind.handle lib now nowMs event inner =
      let pushed := pushStreamEvent (inner.streams kind) (stringField event.params "requestId") message
        kind.payloadKey
      { inner.setStreams pushed.1 kind with network := inner.network.streamed now pushed.2 } := by
  have hempty : ¬(stringField event.params "requestId").isEmpty = true := fun h => hid (String.isEmpty_iff.mp h)
  cases kind with
  | ws =>
    have hframe : wsFrame nowMs event = some message := h
    rw [StreamKind.handle, handleWsEvent, hframe]
    exact if_neg hempty
  | sse =>
    have hmessage : sseEvent lib event = some message := h
    rw [StreamKind.handle, handleSseEvent, hmessage]
    exact if_neg hempty

theorem streams_setStreams (inner : CaptureInner) (map : StreamMap) (network : NetworkInner) (kind k : StreamKind) :
    ({ inner.setStreams map kind with network := network } : CaptureInner).streams k =
      if kind = k then map else inner.streams k := by
  cases kind <;> cases k <;> rfl

theorem bounded_iff {inner : CaptureInner} : inner.Bounded ↔ ∀ kind, StreamsBounded (inner.streams kind) := by
  constructor
  · intro h kind
    cases kind with
    | ws => exact h.wsFrames
    | sse => exact h.sseEvents
  · intro h
    exact ⟨h .ws, h .sse⟩

theorem payloadKey_ne (kind : StreamKind) :
    kind.payloadKey ≠ "payload_truncated" ∧ kind.payloadKey ≠ "payload_bytes" := by
  cases kind <;> decide

theorem keptOf_append {o : Offer} (h : w'.offers = w.offers ++ [o]) (kind : StreamKind) (id : String) :
    w'.keptOf kind id = w.keptOf kind id ++ if o.kind = kind ∧ o.id = id then o.kept else [] := by
  unfold keptOf
  rw [h, List.filter_append, List.flatMap_append]
  congr 1
  by_cases ho : o.kind = kind ∧ o.id = id
  · rw [List.filter_cons_of_pos (by simpa using ho), if_pos ho]
    simp
  · rw [List.filter_cons_of_neg (by simpa using ho), if_neg ho]
    rfl

/-- What an event with a message adds: to its own stream, to the log and to the flag. -/
structure Adds (w w' : StreamWorld) (kind : StreamKind) (id : String) (message : Json) (kept : List Json)
    (charged : ℕ) : Prop where
  outcome : Outcome kind.payloadKey message kept
  sum : (kept.map (payloadBytes kind.payloadKey)).sum ≤ charged
  bounded : w'.inner.Bounded
  drained : w'.drained = w.drained
  offers : w'.offers = w.offers ++ [⟨kind, id, message, kept⟩]
  bucket : ∀ k i, w'.bucket k i = if kind = k ∧ id = i then (w.bucket k i).add kept charged else w.bucket k i
  flag : w'.inner.network.truncated = true ↔ w.inner.network.truncated = true ∨ kept ≠ [message]

theorem step_message (hbounded : w.inner.Bounded) {kind : StreamKind} {event : CdpEvent} {now nowMs : ℕ}
    {message : Json} (hmessage : kind.message lib nowMs event = some message)
    (hid : stringField event.params "requestId" ≠ "") (h : w.step lib (.event kind event now nowMs) = some w') :
    ∃ kept charged, w.Adds w' kind (stringField event.params "requestId") message kept charged := by
  rw [step, hmessage, handle_some w.inner hmessage hid] at h
  generalize stringField event.params "requestId" = id at h
  obtain ⟨kept, charged, houtcome, hsum, hbuckets, hanswer⟩ :=
    pushStreamEvent_outcome (payloadKey_ne kind) (w.inner.streams kind) id message
  have hpushed := pushStreamEvent_bounded (bounded_iff.mp hbounded kind) id message kind.payloadKey
  generalize pushStreamEvent (w.inner.streams kind) id message kind.payloadKey = pushed at *
  -- what the log sees in the stream is what was added to it
  have hseen : (bucketOf pushed.1 id).events.drop (w.bucket kind id).events.length = kept := by
    rw [hbuckets, if_pos rfl]
    exact List.drop_left
  have hown : bucketOf (({ w.inner.setStreams pushed.1 kind with
      network := w.inner.network.streamed now pushed.2 } : CaptureInner).streams kind) id =
        bucketOf pushed.1 id := by
    rw [streams_setStreams, if_pos rfl]
  dsimp only at h
  rw [hown, hseen] at h
  cases h
  refine ⟨kept, charged, houtcome, hsum, bounded_iff.mpr fun k => ?_, rfl, rfl, fun k i => ?_, ?_⟩
  · rw [streams_setStreams]
    split
    · exact hpushed
    · exact bounded_iff.mp hbounded k
  · show bucketOf (CaptureInner.streams _ k) i = _
    rw [streams_setStreams]
    by_cases hk : kind = k
    · subst hk
      rw [if_pos rfl, hbuckets]
      by_cases hi : id = i
      · rw [if_pos hi, if_pos ⟨rfl, hi⟩]
        rfl
      · rw [if_neg hi, if_neg fun h => hi h.2]
        rfl
    · rw [if_neg hk, if_neg fun h => hk h.1]
      rfl
  · show (w.inner.network.truncated || !pushed.2) = true ↔ _
    rw [Bool.or_eq_true, Bool.not_eq_true', ← Bool.not_eq_true, hanswer]

/-- **An event**, of either kind. -/
theorem Accounts.event (ha : w.Accounts flag) {kind : StreamKind} {event : CdpEvent} {now nowMs : ℕ}
    (hid : stringField event.params "requestId" ≠ "") (h : w.step lib (.event kind event now nowMs) = some w') :
    w'.Accounts flag := by
  cases hmessage : kind.message lib nowMs event with
  | none =>
    have hw' : w' = w := by
      rw [step, hmessage, handle_none w.inner hmessage] at h
      cases h
      simp
    rw [hw']
    exact ha
  | some message =>
    obtain ⟨kept, charged, hadds⟩ := step_message ha.bounded hmessage hid h
    have hkept := keptOf_append hadds.offers
    refine ⟨hadds.bounded, fun k i => ?_, fun k i => ?_, fun o ho => ?_, fun k i => ?_, ?_⟩
    · rw [hkept, hadds.bucket, List.length_append, ha.count]
      split <;> rfl
    · have hbytes := ha.bytes k i
      rw [hkept, hadds.bucket, List.map_append, List.sum_append]
      split
      · next hown =>
        rw [← hown.1] at hbytes ⊢
        exact Nat.add_le_add hbytes hadds.sum
      · exact hbytes
    · rw [hadds.offers] at ho
      rcases List.mem_append.mp ho with ho | ho
      · exact ha.outcomes o ho
      · rw [List.mem_singleton.mp ho]
        exact hadds.outcome
    · have hdrained : w'.drainedOf k i = w.drainedOf k i := by rw [drainedOf, hadds.drained, drainedOf]
      rw [hkept, hadds.bucket, hdrained, ← ha.drains k i, List.append_assoc]
      split
      · rfl
      · rw [List.append_nil]
    · rw [hadds.flag, ha.flag, hadds.offers, or_assoc]
      apply or_congr_right
      constructor
      · rintro (⟨o, ho, hne⟩ | hne)
        · exact ⟨o, List.mem_append_left _ ho, hne⟩
        · exact ⟨_, List.mem_append_right _ (List.mem_singleton.mpr rfl), hne⟩
      · rintro ⟨o, ho, hne⟩
        rcases List.mem_append.mp ho with ho | ho
        · exact Or.inl ⟨o, ho, hne⟩
        · rw [List.mem_singleton.mp ho] at hne
          exact Or.inr hne

theorem Accounts.drain (ha : w.Accounts flag) {kind : StreamKind} {order : List String}
    (h : w.step lib (.drain kind order) = some w') : w'.Accounts flag := by
  rw [step] at h
  split at h
  · next horder =>
    cases h
    have hstreams : ∀ k, (w.inner.setStreams (takeStreamEvents (w.inner.streams kind) order).2 kind).streams k =
        if kind = k then (takeStreamEvents (w.inner.streams kind) order).2 else w.inner.streams k :=
      fun k => streams_setStreams w.inner _ _ kind k
    have hbucket : ∀ k i,
        bucketOf ((w.inner.setStreams (takeStreamEvents (w.inner.streams kind) order).2 kind).streams k) i =
          if kind = k then { w.bucket k i with events := [] } else w.bucket k i := by
      intro k i
      rw [hstreams]
      split
      · next hk =>
        rw [(drained_eq (w.inner.streams kind) horder i).2, hk]
        rfl
      · rfl
    refine ⟨bounded_iff.mpr fun k => ?_, fun k i => ?_, fun k i => ?_, ha.outcomes, fun k i => ?_, ?_⟩
    · rw [hstreams]
      split
      · exact (bounded_iff.mp ha.bounded kind).drained order
      · exact bounded_iff.mp ha.bounded k
    · show (w.keptOf k i).length = (bucketOf _ i).capturedTotal
      rw [hbucket, ha.count]
      split <;> rfl
    · have hbytes := ha.bytes k i
      show ((w.keptOf k i).map _).sum ≤ (bucketOf _ i).capturedBytes
      rw [hbucket]
      split <;> exact hbytes
    · have hdrains := ha.drains k i
      show ((w.drained ++ [_]).filter _).flatMap _ ++ (bucketOf _ i).events = w.keptOf k i
      rw [hbucket, List.filter_append, List.flatMap_append, ← hdrains]
      by_cases hk : kind = k
      · subst hk
        rw [if_pos rfl, List.append_nil, List.filter_cons, if_pos (decide_eq_true rfl), List.filter_nil,
          List.flatMap_singleton, (drained_eq (w.inner.streams kind) horder i).1]
        rfl
      · rw [if_neg hk, List.filter_cons, if_neg (by simpa using hk), List.filter_nil, List.flatMap_nil,
          List.append_nil]
        rfl
    · have hnetwork : (w.inner.setStreams (takeStreamEvents (w.inner.streams kind) order).2 kind).network =
          w.inner.network := by
        cases kind <;> rfl
      rw [hnetwork]
      exact ha.flag
  · cases h

/-! ## Whole runs -/

theorem Accounts.honest (ha : w.Accounts flag) : w.Honest flag := by
  have hwithin : ∀ kind id, (w.bucket kind id).Within := fun kind id => (bounded_iff.mp ha.bounded kind).bucket id
  refine ⟨fun kind id => ?_, fun kind id => ?_, fun kind => ?_, fun kind id b hb => ?_,
    ha.outcomes, ha.drains, ha.flag⟩
  · exact (ha.bytes kind id).trans (hwithin kind id).bytes
  · rw [ha.count]
    exact (hwithin kind id).count
  · exact (bounded_iff.mp ha.bounded kind).size
  · exact ((bounded_iff.mp ha.bounded kind).within id b hb).bytes

end StreamWorld

/-- Two frames and a message, and both kinds drained. -/
def sampleStreams : List StreamStep :=
  [.event .ws ⟨"Network.webSocketFrameSent", none, .obj [("requestId", .str "a")]⟩ 1 1,
    .event .sse ⟨"Network.eventSourceMessageReceived", none,
      .obj [("requestId", .str "b"), ("data", .str "é")]⟩ 2 2,
    .drain .sse ["b"],
    .event .ws ⟨"Network.webSocketFrameReceived", none, .obj [("requestId", .str "a")]⟩ 3 3,
    .drain .ws ["a"]]

end Afhttp.Collect


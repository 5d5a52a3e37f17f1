import Mathlib
import Afhttp.Host.CdpProxy
import Afhttp.Shared.Json

/-!
# The recent-requests ring

`host/listener/recent_requests.rs`, and the part of `ensure_profile` that comes after the swap, on a
host that keeps the ring.  Each browser that is swapped in has its number and one subscriber.

    ensure_profile    ..., swap, clear, spawn, abort, reset       (the host's other steps in between)
    subscribe_loop    event ..., ends

An abort is seen where the runtime next polls the task; until then the task may go on.  `cleared` and
`completed` are histories; no function of the source reads them.
-/

namespace Afhttp.Host

open Text

/-! ## The ring -/

structure RequestRecord where
  /-- The browser whose subscriber made the record. -/
  browser : ℕ
  value : Json

/-- `and_then(as_str)`, with a default. -/
def textOr (default : String) (value : Option Json) : String := (value.bind Json.asStr).getD default

/-- The record of an event, if it is one that `subscribe_loop` records. -/
def requestRecord (redactUrl : String → String) (method : String) (params : Json) : Option Json :=
  let requestId := textOr "" (params.get "requestId")
  let resourceType := textOr "" (params.get "type")
  match method with
  | "Network.responseReceived" =>
    let response := params.index "response"
    some (.obj [("type", .str "response"), ("request_id", .str requestId),
      ("response_url", .str (redactUrl (textOr "" (response.get "url")))),
      ("status", .posInt (((response.get "status").bind Json.asU64).getD 0)),
      ("mime_type", .str (textOr "" (response.get "mimeType"))), ("resource_type", .str resourceType)])
  | "Network.requestWillBeSent" =>
    let request := params.index "request"
    some (.obj [("type", .str "request"), ("request_id", .str requestId),
      ("request_url", .str (redactUrl (textOr "" (request.get "url")))),
      ("method", .str (textOr "GET" (request.get "method"))), ("resource_type", .str resourceType)])
  | _ => none

/-- `RecentRequests::push`. -/
def push (cap : ℕ) (ring : List RequestRecord) (record : RequestRecord) : List RequestRecord :=
  if cap = 0 then ring else (if cap ≤ ring.length then ring.tail else ring) ++ [record]

theorem mem_push {cap : ℕ} {ring : List RequestRecord} {record r : RequestRecord}
    (h : r ∈ push cap ring record) : r ∈ ring ∨ r = record := by
  unfold push at h
  split at h
  · exact Or.inl h
  · rcases List.mem_append.mp h with hring | hnew
    · refine Or.inl ?_
      split at hring
      · exact List.mem_of_mem_tail hring
      · exact hring
    · exact Or.inr (List.mem_singleton.mp hnew)

/-! ## The subscribers and the switch -/

/-- Where a subscriber's task stands. -/
inductive TaskState where
  | unspawned
  | running
  /-- Aborted, and not stopped yet. -/
  | aborted
  | ended
  deriving DecidableEq

namespace TaskState

def live : TaskState → Bool
  | running | aborted => true
  | _ => false

def abort : TaskState → TaskState
  | running => aborted
  | state => state

end TaskState

/-- What a switch has done since the swap. -/
inductive ResetStage where
  | swapped | cleared | spawned | followed
  deriving DecidableEq

def HandlerPhase.isResetting : HandlerPhase → Bool
  | resetting _ => true
  | _ => false

structure RingWorld (H : Type) where
  host : HostState H
  /-- The browser that is served. -/
  browser : ℕ
  ring : List RequestRecord
  task : ℕ → TaskState
  /-- The browser of the task in the `SubscriberGuard`. -/
  following : ℕ
  stage : ResetStage
  /-- The browser that was served when the ring was last cleared. -/
  cleared : ℕ
  /-- The browser of the last switch that has completed. -/
  completed : ℕ

inductive RingEvent (H : Type) where
  | host (e : HandlerEvent H)
  | clear (h : H)
  /-- `spawn_task`. -/
  | spawn (h : H)
  /-- The new task is put in the guard, and the old one is aborted. -/
  | abort (h : H)
  /-- A subscriber receives an event, and has pushed its record if there is one. -/
  | event (browser : ℕ) (method : String) (params : Json)
  /-- A subscriber is stopped, or its connection is closed. -/
  | ends (browser : ℕ)

namespace RingWorld

variable {H : Type} [DecidableEq H]

def launch (H : Type) (choice : ProfileChoice) (wsUrl : String) : RingWorld H where
  host := .launch H choice wsUrl
  browser := 0
  ring := []
  task := Function.update (fun _ => .unspawned) 0 .running
  following := 0
  stage := .swapped
  cleared := 0
  completed := 0

/-- The handler is in its switch, at this stage of it. -/
def atStage (w : RingWorld H) (h : H) (stage : ResetStage) : Bool :=
  (w.host.phase h).isResetting && decide (w.stage = stage)

/-- The handlers' steps.  After `clear` the switch has no await left at which it could be dropped. -/
def hostStep (fmt : DebugFormat) (w : RingWorld H) (e : HandlerEvent H) : Option (RingWorld H) :=
  match e with
  | .swap _ =>
    (w.host.step fmt e).map fun host => { w with host := host, browser := w.browser + 1, stage := .swapped }
  | .reset h =>
    if w.atStage h .followed then
      (w.host.step fmt e).map fun host => { w with host := host, completed := w.browser }
    else none
  | .cancel h =>
    if (w.host.phase h).isResetting && decide (w.stage ≠ .swapped) then none
    else (w.host.step fmt e).map fun host => { w with host := host }
  | _ => (w.host.step fmt e).map fun host => { w with host := host }

def step (fmt : DebugFormat) (redactUrl : String → String) (cap : ℕ) (w : RingWorld H) :
    RingEvent H → Option (RingWorld H)
  | .host e => w.hostStep fmt e
  | .clear h =>
    if w.atStage h .swapped then some { w with ring := [], stage := .cleared, cleared := w.browser } else none
  | .spawn h =>
    if w.atStage h .cleared then
      some { w with task := Function.update w.task w.browser .running, stage := .spawned }
    else none
  | .abort h =>
    if w.atStage h .spawned then
      some { w with
        task := Function.update w.task w.following (w.task w.following).abort
        following := w.browser
        stage := .followed }
    else none
  | .event browser method params =>
    if (w.task browser).live then
      match requestRecord redactUrl method params with
      | some value => some { w with ring := push cap w.ring ⟨browser, value⟩ }
      | none => some w
    else none
  | .ends browser =>
    if (w.task browser).live then some { w with task := Function.update w.task browser .ended } else none

end RingWorld

end Afhttp.Host

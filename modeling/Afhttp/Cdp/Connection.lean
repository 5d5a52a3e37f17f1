import Afhttp.Lib.Run
import Afhttp.Shared.Error
import Afhttp.Shared.Json
import Mathlib

/-!
# A CDP connection

`sdk/cdp/ws_client.rs`.  The callers of a connection share it with a reader, a writer and whoever
closes it.  A call inserts its reply slot and queues its frame under one lock; the writer takes
the frames in order and ends at `Close` or at a frame it cannot send; the reader hands each reply
to the slot of its id and, when the stream ends, fails the slots that are left.  A step is what
one of them does without giving up the lock.

Ids are natural numbers (an `i64` counted up from 1), a slot is an id of `replies`.
-/

namespace Afhttp.Cdp

/-- What a caller asks for.  `timed` is a `send_timeout`. -/
structure Request where
  method : String
  params : Json
  sessionId : Option String
  timed : Bool

/-- Where a call is. -/
inductive Phase where
  /-- It has its id. -/
  | numbered
  /-- Its frame is queued; it awaits the reply. -/
  | waiting
  /-- Its time is over; its slot is still there. -/
  | elapsed
  /-- The reader has handed it this message. -/
  | answered (msg : Json)
  /-- The reader has closed and failed it. -/
  | failed
  /-- It has removed its slot and returned. -/
  | timedOut
  /-- It was not queued: the connection is closed, or its writer is. -/
  | refused (closed : Bool)

structure Call where
  request : Request
  phase : Phase

inductive OutMsg where
  | text (id : ℕ) (body : Json)
  | close

/-- The call whose frame a message is. -/
def OutMsg.id : OutMsg → Option ℕ
  | .text id _ => some id
  | .close => none

inductive Reader where
  | running
  /-- It has left its loop. -/
  | leaving
  | ended
  deriving DecidableEq

structure Connection where
  nextId : ℕ
  calls : ℕ → Option Call
  /-- The keys of `PendingRequests.replies`. -/
  replies : Finset ℕ
  /-- `PendingRequests.closed`. -/
  closed : Bool
  queue : List OutMsg
  writerEnded : Bool
  reader : Reader
  /-- The ids whose frames the writer has sent. -/
  written : Finset ℕ

def Connection.init : Connection := ⟨1, fun _ => none, ∅, false, [], false, .running, ∅⟩

/-- The frame of a call. -/
def Request.body (request : Request) (id : ℕ) : Json :=
  .obj ([("id", Json.posInt id), ("method", .str request.method), ("params", request.params)] ++
    (request.sessionId.map fun sid => ("sessionId", Json.str sid)).toList)

/-! ## What a caller gets -/

/-- `CdpRemoteError`. -/
structure RemoteError where
  code : Int
  message : String
  deriving DecidableEq

def RemoteError.display (e : RemoteError) : String := s!"CDP error {e.code}: {e.message}"

/-- The reply that `dispatch` makes of a message. -/
def replyOf (msg : Json) : Except RemoteError Json :=
  match msg.get "error" with
  | some err => .error ⟨((err.get "code").bind Json.asI64).getD (-1), ((err.get "message").bind Json.asStr).getD ""⟩
  | none => .ok ((msg.get "result").getD .null)

/-- What `send_inner` returns, once it does.  `timeout` is the text of the call's timeout. -/
def Call.result (call : Call) (timeout : String) : Option (Except Error Json) :=
  match call.phase with
  | .numbered | .waiting | .elapsed => none
  | .answered msg => some ((replyOf msg).mapError fun e => .new .cdpError e.display)
  | .failed => some (.error (.new .cdpError (RemoteError.display ⟨-1, "CDP connection closed"⟩)))
  | .timedOut => some (.error (.new .cdpTimeout s!"{call.request.method}: CDP reply timed out after {timeout}"))
  | .refused true => some (.error (.new .cdpUnavailable "CDP connection closed"))
  | .refused false => some (.error (.new .cdpUnavailable "CDP writer closed before send"))

/-! ## The steps -/

namespace Connection

def setPhase (c : Connection) (id : ℕ) (phase : Phase) : Connection :=
  { c with calls := Function.update c.calls id ((c.calls id).map fun call => { call with phase := phase }) }

def phase (c : Connection) (id : ℕ) : Option Phase := (c.calls id).map Call.phase

/-- `next_id.fetch_add(1)`. -/
def number (c : Connection) (request : Request) : Connection :=
  { c with nextId := c.nextId + 1, calls := Function.update c.calls c.nextId (some ⟨request, .numbered⟩) }

/-- The locked part of `send_inner`. -/
def enqueue (c : Connection) (id : ℕ) (request : Request) : Connection :=
  if c.closed then c.setPhase id (.refused true)
  else if c.writerEnded then
    -- the slot goes in and out again
    { c.setPhase id (.refused false) with replies := (insert id c.replies).erase id }
  else
    { c.setPhase id .waiting with replies := insert id c.replies, queue := c.queue ++ [.text id (request.body id)] }

/-- The caller still waits when a value comes through its channel. -/
def resolve (c : Connection) (id : ℕ) (phase : Phase) : Connection :=
  match c.phase id with
  | some .waiting => c.setPhase id phase
  | _ => c

/-- The id of a reply. -/
def replyId (msg : Json) : Option ℕ :=
  ((msg.get "id").bind Json.asI64).bind fun id => if 0 ≤ id then some id.toNat else none

/-- `dispatch`.  An event goes to the subscribers. -/
def dispatch (c : Connection) (msg : Json) : Connection :=
  match replyId msg with
  | some id => if id ∈ c.replies then { c with replies := c.replies.erase id }.resolve id (.answered msg) else c
  | none => c

/-- The end of the reader: no slot is left. -/
def markClosed (c : Connection) : Connection :=
  { c with
    closed := true
    reader := .ended
    replies := ∅
    calls := fun id => (c.calls id).map fun call =>
      if id ∈ c.replies then
        match call.phase with
        | .waiting => { call with phase := .failed }
        | _ => call
      else call }

inductive Step where
  | number (request : Request)
  | enqueue (id : ℕ)
  /-- The writer takes the next message; `sent` is whether the sink accepts it. -/
  | write (sent : Bool)
  | receive (msg : Json)
  /-- The stream ends, fails, or the peer sends `Close`. -/
  | streamEnds
  | markClosed
  /-- The time of a `send_timeout` is over. -/
  | elapse (id : ℕ)
  /-- It removes its slot. -/
  | forget (id : ℕ)
  /-- `Connection::close`. -/
  | close

def step (c : Connection) : Step → Option Connection
  | .number request => some (c.number request)
  | .enqueue id =>
    match c.calls id with
    | some ⟨request, .numbered⟩ => some (c.enqueue id request)
    | _ => none
  | .write sent =>
    if c.writerEnded then none
    else
      match c.queue with
      | [] => none
      | .close :: _ => some { c with queue := [], writerEnded := true }
      | .text id _ :: rest =>
        if sent then some { c with queue := rest, written := insert id c.written }
        else some { c with queue := [], writerEnded := true }
  | .receive msg => if c.reader = .running then some (c.dispatch msg) else none
  | .streamEnds => if c.reader = .running then some { c with reader := .leaving } else none
  | .markClosed => if c.reader = .leaving then some c.markClosed else none
  | .elapse id =>
    match c.calls id with
    | some ⟨request, .waiting⟩ => if request.timed then some (c.setPhase id .elapsed) else none
    | _ => none
  | .forget id =>
    match c.phase id with
    | some .elapsed => some { c.setPhase id .timedOut with replies := c.replies.erase id }
    | _ => none
  | .close => some (if c.writerEnded then c else { c with queue := c.queue ++ [.close] })

end Connection

end Afhttp.Cdp

import Afhttp.Host.TargetRuns
import Afhttp.Shared.Error
import Afhttp.Shared.Text
import Mathlib.Data.Finset.Option

/-!
# The idle-tab reaper

`sweep` of `host/reaper.rs` and `close_target_preserving_browser` of `sdk/cdp/session.rs`,
one step for each stretch between two awaits, among the connections of `Connections` and a
browser that opens and closes targets on its own.  What a CDP command answers is part of the
event.  The last three fields of `HostWorld` are histories; no function of the source reads
them.
-/

namespace Afhttp.Host

open Text

/-! ## The functions of a sweep -/

structure PageTarget where
  id : String
  url : String
  deriving DecidableEq, Repr

/-- The pages of a `Target.getTargets` response that have an id. -/
def pageTargets (response : Json) : List PageTarget :=
  ((((response.get "targetInfos").bind Json.asArray).getD []).filter
      fun t => (t.get "type").bind Json.asStr == some "page").map
    (fun t => ⟨((t.get "targetId").bind Json.asStr).getD "", ((t.get "url").bind Json.asStr).getD ""⟩)
    |>.filter fun t => !t.id.isEmpty

def isReapableUrl (url : String) : Bool := startsWith url "http://" || startsWith url "https://"

/-- Idle clocks of the targets of the browser at `wsUrl`. -/
structure Tracker where
  wsUrl : String
  idleSince : String → Option ℕ

def Tracker.empty : Tracker := ⟨"", fun _ => none⟩

def Tracker.clear (t : Tracker) : Tracker := { t with idleSince := fun _ => none }

/-- What a sweep reads of the connections before its first await. -/
structure Snapshot where
  driverConnected : Bool
  orphans : Finset String
  deriving DecidableEq

/-- The loop over the listed targets: clocks, ids seen, and ids whose clock has run out. -/
structure Classified where
  idleSince : String → Option ℕ
  seen : Finset String
  expired : List String

def classify (snap : Snapshot) (idleTimeout now : ℕ) (acc : Classified) (target : PageTarget) : Classified :=
  let seen := insert target.id acc.seen
  if !isReapableUrl target.url || (snap.driverConnected && !decide (target.id ∈ snap.orphans)) then
    { acc with seen, idleSince := Function.update acc.idleSince target.id none }
  else
    let since := (acc.idleSince target.id).getD now
    { idleSince := Function.update acc.idleSince target.id (some since)
      seen
      expired := if idleTimeout ≤ now - since then acc.expired ++ [target.id] else acc.expired }

def classifyAll (snap : Snapshot) (idleTimeout now : ℕ) (tracker : Tracker) (response : Json) : Classified :=
  (pageTargets response).foldl (classify snap idleTimeout now) ⟨tracker.idleSince, ∅, []⟩

/-! ## The guarded close -/

def windowAnchor : String := "about:blank#afhttp-window-anchor"

/-- Where a guarded close stands: listing the targets, creating the anchor, about to send
`Target.closeTarget`, awaiting its answer. -/
inductive CloseStage where
  | guarding | anchoring | issuing | confirming
  deriving DecidableEq, Repr

def anchorExists (targetId : String) (pages : List Json) : Bool :=
  pages.any fun page =>
    (page.index "type").asStr == some "page" && (page.index "targetId").asStr.any (· != targetId) &&
      (page.index "url").asStr == some windowAnchor

/-- Lightpanda's answer while its one page exists. -/
def refusesSecondTarget (e : Error) : Bool :=
  e.errorCode == .cdpError && endsWith e.detail ": TargetAlreadyLoaded"

def afterListing (targetId : String) : Except Error Json → Except Error CloseStage
  | .error e => .error e
  | .ok targets =>
    match (targets.index "targetInfos").asArray with
    | none =>
      .error (.new .cdpError "cannot protect the last browser window: target list unavailable")
    | some pages => .ok (if anchorExists targetId pages then .issuing else .anchoring)

def afterAnchor (targetId : String) : Except Error Json → Except Error CloseStage
  | .ok replacement =>
    if (replacement.index "targetId").asStr.any (fun id => !id.isEmpty && id != targetId) then .ok .issuing
    else .error (.new .cdpError "cannot close the last browser window: replacement target was not created")
  | .error e => if refusesSecondTarget e then .ok .issuing else .error e

def afterClose : Except Error Json → Except Error Unit
  | .error e => .error e
  | .ok response =>
    if (response.index "success").asBool == some true then .ok ()
    else .error (.new .cdpError "Target.closeTarget did not confirm closure")

/-! ## The sweep among the connections -/

inductive SweepPhase where
  | idle
  | connecting (snap : Snapshot)
  | listing (snap : Snapshot)
  /-- Closing `id`, with the other expired targets still to come. -/
  | closing (snap : Snapshot) (id : String) (rest : List String) (stage : CloseStage)
  deriving DecidableEq

def SweepPhase.next (snap : Snapshot) : List String → SweepPhase
  | [] => idle
  | id :: rest => closing snap id rest .guarding

/-- The targets the browser has, those it ever had, and those whose closure it confirmed. -/
structure Browser where
  targets : Finset String
  used : Finset String
  confirmed : Finset String

structure HostWorld (C : Type) where
  conns : Connections C
  /-- The connections counted as clients, from before their start to after their end. -/
  guards : Finset C
  /-- The address of the active profile's browser. -/
  wsUrl : Option String
  now : ℕ
  tracker : Tracker
  phase : SweepPhase
  browser : Browser
  /-- The targets whose creation was observed on a connection. -/
  created : Finset String
  /-- The connection that was the last to give up a hold on the target. -/
  droppedBy : String → Option C
  /-- What each connection has taken since the snapshot of the sweep, and not asked to close. -/
  takenSince : C → Finset String

inductive HostEvent (C : Type) where
  | tick (d : ℕ)
  | countClient (c : C)
  | uncountClient (c : C)
  | conn (e : ConnectionEvent C)
  | switchProfile (wsUrl : Option String)
  /-- A sweep starts; `credentials`: a takeover credential is live. -/
  | sweep (credentials : Bool)
  | connected (ok : Bool)
  | listed (response : Option Json)
  /-- The answer to the command that the guarded close is waiting for. -/
  | answered (r : Except Error Json)
  /-- The sweep sends `Target.closeTarget`. -/
  | issue
  | closeTimeout
  | opens (T : String)
  | confirms (T : String)
  | closes (T : String)

/-- The target whose creation the frame reports. -/
def Connections.reports {C : Type} (parse : String → Option Json) (w : Connections C) :
    ConnectionEvent C → Option String
  | .response c frame => ((w.ledger c).settles parse frame).bind fun r => targetIdOf "result" r.2
  | _ => none

namespace HostWorld

variable {C : Type}

def start (C : Type) (wsUrl : Option String) (targets : Finset String) : HostWorld C where
  conns := .start C
  guards := ∅
  wsUrl := wsUrl
  now := 0
  tracker := .empty
  phase := .idle
  browser := ⟨targets, targets, ∅⟩
  created := ∅
  droppedBy := fun _ => none
  takenSince := fun _ => ∅

variable [DecidableEq C]

/-- The connections go on, and the histories with them. -/
def withConns (parse : String → Option Json) (w : HostWorld C) (e : ConnectionEvent C) (conns : Connections C) :
    HostWorld C :=
  { w with
    conns
    created := w.created ∪ (w.conns.reports parse e).toFinset
    droppedBy := fun T =>
      match e.party with
      | some c => if c ∈ w.conns.owners T ∧ c ∉ conns.owners T then some c else w.droppedBy T
      | none => w.droppedBy T
    takenSince := fun c =>
      (conns.ledger c).owned.filter fun T => T ∈ w.takenSince c ∨ T ∉ (w.conns.ledger c).owned }

/-- `sweep`, from its start to its first await. -/
def beginSweep (w : HostWorld C) (credentials : Bool) : HostWorld C :=
  match w.wsUrl with
  | none => { w with tracker := w.tracker.clear }
  | some wsUrl =>
    if credentials then { w with tracker := w.tracker.clear }
    else
      let tracker := if w.tracker.wsUrl ≠ wsUrl then ⟨wsUrl, fun _ => none⟩ else w.tracker
      let snap : Snapshot := ⟨decide (0 < w.guards.card), w.conns.targets.orphaned⟩
      if snap.driverConnected && decide (snap.orphans = ∅) then { w with tracker := tracker.clear }
      else { w with tracker, phase := .connecting snap, takenSince := fun _ => ∅ }

/-- The list has come: the clocks, the orphans that are gone, and what to close. -/
def afterTargets (idleTimeout : ℕ) (w : HostWorld C) (snap : Snapshot) (response : Json) : HostWorld C :=
  let r := classifyAll snap idleTimeout w.now w.tracker response
  { w with
    tracker := { w.tracker with idleSince := fun id => if id ∈ r.seen then r.idleSince id else none }
    conns := { w.conns with targets := w.conns.targets.retainOrphanedTargets r.seen }
    phase := .next snap r.expired }

/-- The answer to a command of the guarded close of `id`. -/
def afterAnswer (w : HostWorld C) (snap : Snapshot) (id : String) (rest : List String) (r : Except Error Json) :
    CloseStage → Option (HostWorld C)
  | .guarding =>
    match afterListing id r with
    | .ok stage => some { w with phase := .closing snap id rest stage }
    | .error _ => some { w with phase := .next snap rest }
  | .anchoring =>
    match afterAnchor id r with
    | .ok stage => some { w with phase := .closing snap id rest stage }
    | .error _ => some { w with phase := .next snap rest }
  | .issuing => none
  | .confirming =>
    match afterClose r with
    | .ok () =>
      some { w with
        tracker := { w.tracker with idleSince := Function.update w.tracker.idleSince id none }
        phase := .next snap rest }
    | .error _ => some { w with phase := .next snap rest }

def step (parse : String → Option Json) (idleTimeout : ℕ) (w : HostWorld C) : HostEvent C → Option (HostWorld C)
  | .tick d => some { w with now := w.now + d }
  | .countClient c => if c ∈ w.guards then none else some { w with guards := insert c w.guards }
  | .uncountClient c => if c ∈ w.conns.live then none else some { w with guards := w.guards.erase c }
  | .conn e =>
    match e with
    -- only the sweep prunes
    | .prune _ => none
    | .connect c =>
      if c ∈ w.guards then (w.conns.step parse (.connect c)).map (w.withConns parse (.connect c)) else none
    | e => (w.conns.step parse e).map (w.withConns parse e)
  | .switchProfile wsUrl => some { w with wsUrl }
  | .sweep credentials =>
    match w.phase with
    | .idle => some (w.beginSweep credentials)
    | _ => none
  | .connected ok =>
    match w.phase with
    | .connecting snap => some { w with phase := if ok then .listing snap else .idle }
    | _ => none
  | .listed response =>
    match w.phase with
    | .listing snap =>
      match response with
      | some response => some (w.afterTargets idleTimeout snap response)
      | none => some { w with phase := .idle }
    | _ => none
  | .answered r =>
    match w.phase with
    | .closing snap id rest stage => w.afterAnswer snap id rest r stage
    | _ => none
  | .issue =>
    match w.phase with
    | .closing snap id rest .issuing => some { w with phase := .closing snap id rest .confirming }
    | _ => none
  | .closeTimeout =>
    match w.phase with
    | .closing snap _ rest _ => some { w with phase := .next snap rest }
    | _ => none
  -- the browser opens a target before any frame names it, and uses no id twice
  | .opens T =>
    if T ∈ w.browser.used ∨ T ∈ w.created then none
    else some { w with browser :=
      { w.browser with targets := insert T w.browser.targets, used := insert T w.browser.used } }
  | .confirms T => some { w with browser := { w.browser with confirmed := insert T w.browser.confirmed } }
  | .closes T => some { w with browser := { w.browser with targets := w.browser.targets.erase T } }

end HostWorld

end Afhttp.Host

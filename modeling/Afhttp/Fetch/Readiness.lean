import Afhttp.Collect.Network

/-!
# Readiness

`sdk/fetch/pipeline/browser/readiness.rs`: one look at a page.  The sampler walks the frame tree and
tells of each frame whether it is in the target region; `assess` folds the retained requests and the
frames to a verdict.

What the browser answers about the frame at a position is given (`Probe`): whether its owner is in
the region, and its metrics.  Durations are in milliseconds.
-/

namespace Afhttp.Fetch

open Collect

/-! ## States and scopes -/

inductive ReadinessState where
  | ready | incomplete | unknown | blocked
  deriving DecidableEq

inductive RequestScope where
  | mainDocument | target | ancillary | unknown
  deriving DecidableEq

structure PendingRequest where
  requestId : String
  requestUrl : String
  resourceType : String
  frameId : Option String
  frameUrl : Option String
  scope : RequestScope
  blocksWait : Bool
  waitedMs : ℕ
  deriving DecidableEq

structure Readiness where
  waitSatisfied : Bool
  timedOut : Bool
  mainDocument : ReadinessState
  targetContent : ReadinessState
  ancillary : ReadinessState
  targetSelector : String
  targetDomStable : Bool
  targetTextStable : Bool
  observationComplete : Bool
  unobservedFrameIds : List String
  pendingRequests : List PendingRequest
  pendingRequestsTruncated : Bool
  deriving DecidableEq

structure PageMetrics where
  textLen : ℕ
  textHash : ℕ
  nodeCount : ℕ
  domHash : ℕ
  deriving DecidableEq

structure Metrics where
  page : PageMetrics
  eligible : Bool
  documentReady : Bool
  deriving DecidableEq

structure Frame where
  id : String
  url : String
  loaderId : String
  deriving DecidableEq

inductive FrameTree where
  | node (frame : Frame) (children : List FrameTree)

structure ScopedFrame where
  frame : Frame
  scope : RequestScope
  metrics : Option Metrics
  deriving DecidableEq

structure ObservedRequest where
  entry : NetworkEntry
  waited : ℕ
  idleFor : ℕ

/-- `readiness_snapshot`. -/
structure ReadinessNetwork where
  requests : List ObservedRequest
  complete : Bool

structure Sample where
  body : PageMetrics
  target : PageMetrics
  targetEligible : Bool
  targetNetworkQuiet : Bool
  readiness : Readiness
  deriving DecidableEq

def frameLimit : ℕ := 32

def pendingLimit : ℕ := 100

def durationMs (d : ℕ) : ℕ := min d (2 ^ 64 - 1)

/-! ## The frames -/

/-- What the browser answers about the frame at a position in the list. -/
structure Probe where
  /-- `owner_in_target`, if it does not fail. -/
  owner : ℕ → Option Bool
  frameMetrics : ℕ → Option Metrics

structure Walk where
  frames : List ScopedFrame
  unobserved : List String

def Walk.full (w : Walk) : Bool := decide (frameLimit ≤ w.frames.length)

/-- The scope of a frame: its parent's, or what the region's owner check says. -/
def frameScope (strict : Bool) (owner : Option Bool) : Option RequestScope → RequestScope
  | some scope => scope
  | none =>
    if strict then .target
    else match owner with
      | some true => .target
      | some false => .ancillary
      | none => .unknown

def addFrame (strict : Bool) (probe : Probe) (frame : Frame) (parentScope : Option RequestScope) (w : Walk) : Walk :=
  let scope := frameScope strict (probe.owner w.frames.length) parentScope
  let metrics := if scope = .target then probe.frameMetrics w.frames.length else none
  { frames := w.frames ++ [⟨frame, scope, metrics⟩]
    unobserved :=
      if scope = .unknown ∨ (scope = .target ∧ metrics = none) then w.unobserved ++ [frame.id] else w.unobserved }

mutual
def FrameTree.size : FrameTree → ℕ
  | .node _ children => sizes children + 1

def sizes : List FrameTree → ℕ
  | [] => 0
  | tree :: trees => tree.size + sizes trees
end

/-- The queue of frames to visit, each with its parent's scope. -/
abbrev FrameQueue := List (FrameTree × Option RequestScope)

/-- The frame tree, breadth first.  The fuel is the number of frames. -/
def walkTree (strict : Bool) (probe : Probe) : ℕ → FrameQueue → Walk → Walk
  | 0, _, w => w
  | _ + 1, [], w => w
  | fuel + 1, (.node frame children, parentScope) :: queue, w =>
    if w.full then walkTree strict probe fuel queue { w with unobserved := w.unobserved ++ [frame.id] }
    else
      let scope := frameScope strict (probe.owner w.frames.length) parentScope
      walkTree strict probe fuel (queue ++ children.map fun child => (child, some scope))
        (addFrame strict probe frame parentScope w)

/-- A document of another process: it is in the events, and not in the frame tree. -/
def addRequestFrame (strict : Bool) (probe : Probe) (w : Walk) (request : ObservedRequest) : Walk :=
  match request.entry.frameId with
  | none => w
  | some frameId =>
    if request.entry.resourceType != "Document" || w.frames.any (·.frame.id == frameId) then w
    else if w.full then { w with unobserved := w.unobserved ++ [frameId] }
    else addFrame strict probe ⟨frameId, request.entry.requestUrl, request.entry.loaderId.getD ""⟩ none w

/-- The frames of a page, the root first. -/
def walkFrames (strict : Bool) (probe : Probe) (root : Frame) (children : List FrameTree) (selected : Metrics)
    (requests : List ObservedRequest) : Walk :=
  let start : Walk := ⟨[⟨root, .target, some selected⟩], []⟩
  let tree := walkTree strict probe (sizes children) (children.map fun child => (child, none)) start
  requests.foldl (addRequestFrame strict probe) tree

/-! ## The verdict -/

/-- `scopes.get(id)`: of frames with one id, the last. -/
def frameOf (frames : List ScopedFrame) (id : String) : Option ScopedFrame :=
  frames.reverse.find? fun f => f.frame.id == id

def requestFrame (frames : List ScopedFrame) (entry : NetworkEntry) : Option ScopedFrame :=
  entry.frameId.bind (frameOf frames)

def requestScope (root : Frame) (frames : List ScopedFrame) (entry : NetworkEntry) : RequestScope :=
  if entry.resourceType == "Document" && entry.frameId == some root.id then .mainDocument
  else (requestFrame frames entry).elim .unknown ScopedFrame.scope

/-- What the pass over the requests counts up. -/
structure Tally where
  targetNetworkQuiet : Bool
  requiredPending : Bool
  ancillaryReady : Bool
  pending : List PendingRequest
  mainDocument : ReadinessState

/-- A live root-frame Document of the root's loader. -/
def speaksForMain (root : Frame) (frames : List ScopedFrame) (entry : NetworkEntry) : Bool :=
  requestScope root frames entry == .mainDocument && entry.loaderId == some root.loaderId && !entry.isRedirectHop

def pendingRequest (strict : Bool) (root : Frame) (frames : List ScopedFrame) (observed : ObservedRequest) :
    PendingRequest :=
  let entry := observed.entry
  let scope := requestScope root frames entry
  { requestId := entry.requestId
    requestUrl := entry.requestUrl
    resourceType := entry.resourceType
    frameId := entry.frameId
    frameUrl := (requestFrame frames entry).map (·.frame.url)
    scope := scope
    blocksWait := strict || scope != .ancillary
    waitedMs := durationMs observed.waited }

def tallyRequest (strict : Bool) (idleFor : ℕ) (root : Frame) (frames : List ScopedFrame) (t : Tally)
    (observed : ObservedRequest) : Tally :=
  let entry := observed.entry
  let required := requestScope root frames entry != .ancillary
  let unfinished := entry.state.unfinished
  { targetNetworkQuiet :=
      if required && (unfinished || decide (observed.idleFor < idleFor)) then false else t.targetNetworkQuiet
    requiredPending := t.requiredPending || (required && unfinished)
    ancillaryReady := if !required && (unfinished || entry.state == .failed) then false else t.ancillaryReady
    pending := if unfinished then t.pending ++ [pendingRequest strict root frames observed] else t.pending
    mainDocument :=
      if speaksForMain root frames entry then if entry.state == .finished then .ready else .incomplete
      else t.mainDocument }

/-- A Document that has failed, of an unknown frame or of the loader of a frame that is required. -/
def failedRequired (frames : List ScopedFrame) (entry : NetworkEntry) : Bool :=
  entry.resourceType == "Document" && entry.state == .failed &&
    (requestFrame frames entry).all fun f => f.scope != .ancillary && entry.loaderId == some f.frame.loaderId

/-- Requests that block the wait come first, then by id. -/
def pendingLe (a b : PendingRequest) : Bool :=
  if a.blocksWait == b.blocksWait then decide (a.requestId ≤ b.requestId) else a.blocksWait

def frameReady (strict : Bool) (f : ScopedFrame) : Bool :=
  f.metrics.any fun m => m.documentReady && (strict || m.eligible)

/-- The metrics of the target frames together. -/
def combineMetrics (combineHash : List (String × ℕ) → ℕ) (targets : List ScopedFrame) : PageMetrics :=
  let measured := targets.filterMap fun f => f.metrics.map fun m => (f.frame.id, m.page)
  { textLen := (measured.map (·.2.textLen)).sum
    textHash := combineHash (measured.map fun m => (m.1, m.2.textHash))
    nodeCount := (measured.map (·.2.nodeCount)).sum
    domHash := combineHash (measured.map fun m => (m.1, m.2.domHash)) }

structure AssessConfig where
  combineHash : List (String × ℕ) → ℕ
  selector : String
  strict : Bool
  idleFor : ℕ

def targetFrames (frames : List ScopedFrame) : List ScopedFrame := frames.filter (·.scope == .target)

def assess (cfg : AssessConfig) (root : ScopedFrame) (rest : List ScopedFrame) (network : ReadinessNetwork)
    (body : PageMetrics) (unobserved : List String) : Sample :=
  let frames := root :: rest
  let tally := network.requests.foldl (tallyRequest cfg.strict cfg.idleFor root.frame frames)
    ⟨network.complete, false, network.complete, [], .unknown⟩
  let failedTargetDocument := network.requests.any fun r => failedRequired frames r.entry
  let observationComplete := network.complete && unobserved.isEmpty
  let targets := targetFrames frames
  let target := combineMetrics cfg.combineHash targets
  let eligible := observationComplete && !failedTargetDocument && tally.mainDocument == .ready &&
    targets.all (frameReady cfg.strict) && (cfg.strict || decide (0 < target.textLen))
  let pending := tally.pending.mergeSort pendingLe
  { body := body
    target := target
    targetEligible := eligible
    targetNetworkQuiet := tally.targetNetworkQuiet
    readiness :=
      { waitSatisfied := false
        timedOut := false
        mainDocument := tally.mainDocument
        targetContent := if observationComplete || tally.requiredPending then .incomplete else .unknown
        ancillary := if !network.complete then .unknown else if tally.ancillaryReady then .ready else .incomplete
        targetSelector := cfg.selector
        targetDomStable := false
        targetTextStable := false
        observationComplete := observationComplete
        unobservedFrameIds := unobserved
        pendingRequests := pending.take pendingLimit
        pendingRequestsTruncated := decide (pendingLimit < pending.length) } }

/-- What a sample is taken from. -/
structure SampleInput where
  root : Frame
  children : List FrameTree
  body : Metrics
  selected : Metrics
  probe : Probe
  network : ReadinessNetwork

def SampleInput.walk (input : SampleInput) (strict : Bool) : Walk :=
  walkFrames strict input.probe input.root input.children input.selected input.network.requests

/-- `sample`, where no step of it fails. -/
def takeSample (cfg : AssessConfig) (input : SampleInput) : Sample :=
  let walk := input.walk cfg.strict
  assess cfg ⟨input.root, .target, some input.selected⟩ walk.frames.tail input.network input.body.page walk.unobserved

/-- `unknown_readiness`: there is no sample. -/
def unknownReadiness (selector : String) (requests : List ObservedRequest) : Readiness :=
  let pending := ((requests.filter fun r => r.entry.state.unfinished).map fun r =>
    { requestId := r.entry.requestId
      requestUrl := r.entry.requestUrl
      resourceType := r.entry.resourceType
      frameId := r.entry.frameId
      frameUrl := none
      scope := .unknown
      blocksWait := true
      waitedMs := durationMs r.waited : PendingRequest }).mergeSort fun a b => decide (a.requestId ≤ b.requestId)
  { waitSatisfied := false
    timedOut := true
    mainDocument := .unknown
    targetContent := .unknown
    ancillary := .unknown
    targetSelector := selector
    targetDomStable := false
    targetTextStable := false
    observationComplete := false
    unobservedFrameIds := []
    pendingRequests := pending.take pendingLimit
    pendingRequestsTruncated := decide (pendingLimit < pending.length) }

/-! ## What the pass over the requests finds -/

section
variable (strict : Bool) (idleFor : ℕ) (root : Frame) (frames : List ScopedFrame)

/-- The request keeps the target from being quiet. -/
def disturbs (r : ObservedRequest) : Bool :=
  requestScope root frames r.entry != .ancillary && (r.entry.state.unfinished || decide (r.idleFor < idleFor))

/-- The request keeps the ancillary frames from being ready. -/
def ancillaryOpen (r : ObservedRequest) : Bool :=
  !(requestScope root frames r.entry != .ancillary) && (r.entry.state.unfinished || r.entry.state == .failed)

def mainState (entry : NetworkEntry) : ReadinessState := if entry.state == .finished then .ready else .incomplete

variable (requests : List ObservedRequest) (t : Tally)

/-- A flag that one kind of request clears. -/
theorem tally_cleared {flag : Tally → Bool} {clears : ObservedRequest → Bool}
    (hflag : ∀ t r, flag (tallyRequest strict idleFor root frames t r) = if clears r then false else flag t) :
    flag (requests.foldl (tallyRequest strict idleFor root frames) t) =
      (flag t && requests.all fun r => !clears r) := by
  induction requests generalizing t with
  | nil => rw [List.foldl_nil, List.all_nil, Bool.and_true]
  | cons r rs ih =>
    rw [List.foldl_cons, ih, List.all_cons, ← Bool.and_assoc, hflag]
    congr 1
    cases clears r <;> simp

theorem tally_quiet : (requests.foldl (tallyRequest strict idleFor root frames) t).targetNetworkQuiet =
    (t.targetNetworkQuiet && requests.all fun r => !disturbs idleFor root frames r) :=
  tally_cleared strict idleFor root frames requests t fun _ _ => rfl

theorem tally_required : (requests.foldl (tallyRequest strict idleFor root frames) t).requiredPending =
    (t.requiredPending || requests.any fun r => requestScope root frames r.entry != .ancillary && r.entry.state.unfinished) := by
  induction requests generalizing t with
  | nil => rw [List.foldl_nil, List.any_nil, Bool.or_false]
  | cons r rs ih =>
    rw [List.foldl_cons, ih, List.any_cons, ← Bool.or_assoc]
    rfl

theorem tally_ancillary : (requests.foldl (tallyRequest strict idleFor root frames) t).ancillaryReady =
    (t.ancillaryReady && requests.all fun r => !ancillaryOpen root frames r) :=
  tally_cleared strict idleFor root frames requests t fun _ _ => rfl

theorem tally_pending : (requests.foldl (tallyRequest strict idleFor root frames) t).pending =
    t.pending ++ (requests.filter fun r => r.entry.state.unfinished).map (pendingRequest strict root frames) := by
  induction requests generalizing t with
  | nil => rw [List.foldl_nil, List.filter_nil, List.map_nil, List.append_nil]
  | cons r rs ih =>
    rw [List.foldl_cons, ih]
    show (if r.entry.state.unfinished then t.pending ++ [pendingRequest strict root frames r] else t.pending) ++ _ = _
    rw [List.filter_cons]
    split
    · rw [List.map_cons, List.append_assoc, List.singleton_append]
    · rfl

/-- The last live Document of the root frame speaks for the main document. -/
theorem tally_main : (requests.foldl (tallyRequest strict idleFor root frames) t).mainDocument =
    (requests.filter fun r => speaksForMain root frames r.entry).getLast?.elim t.mainDocument
      fun r => mainState r.entry := by
  induction requests using List.reverseRecOn generalizing t with
  | nil => rfl
  | append_singleton rs r ih =>
    rw [List.foldl_append, List.foldl_cons, List.foldl_nil, List.filter_append, List.filter_singleton]
    show (if speaksForMain root frames r.entry then mainState r.entry
      else (rs.foldl (tallyRequest strict idleFor root frames) t).mainDocument) = _
    cases speaksForMain root frames r.entry with
    | true =>
      rw [if_pos rfl, cond_true, List.getLast?_concat]
      rfl
    | false =>
      rw [if_neg Bool.false_ne_true, cond_false, List.append_nil]
      exact ih t

end

end Afhttp.Fetch

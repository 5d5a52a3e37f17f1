import Afhttp.Lib.Run
import Afhttp.Fetch.Readiness

/-!
# Waiting until a page is ready

`wait_for_readiness` of `sdk/fetch/pipeline/browser/wait.rs`: samples are taken until one satisfies the
wait or the time is over.  A tracker says since when the DOM and the text have not changed.

An `Iteration` is one turn of the loop: what the clock reads at its start, and what comes of the
sample.  Durations and instants are in milliseconds.
-/

namespace Afhttp.Fetch

open Collect

/-! ## The tracker -/

structure StabilityTracker where
  last : Option PageMetrics
  domUnchangedSince : ℕ
  textUnchangedSince : ℕ
  domStable : Bool
  textStable : Bool

def StabilityTracker.new (now : ℕ) : StabilityTracker := ⟨none, now, now, false, false⟩

/-- What of the metrics is the DOM. -/
def PageMetrics.dom (m : PageMetrics) : ℕ × ℕ := (m.nodeCount, m.domHash)

/-- What of the metrics is the text. -/
def PageMetrics.text (m : PageMetrics) : ℕ × ℕ := (m.textLen, m.textHash)

def StabilityTracker.observe (tracker : StabilityTracker) (metrics : PageMetrics) (stableFor now : ℕ) :
    StabilityTracker :=
  let sameDom := tracker.last.any fun last => last.dom == metrics.dom
  let sameText := tracker.last.any fun last => last.text == metrics.text
  let domUnchangedSince := if sameDom then tracker.domUnchangedSince else now
  let textUnchangedSince := if sameText then tracker.textUnchangedSince else now
  { last := some metrics
    domUnchangedSince := domUnchangedSince
    textUnchangedSince := textUnchangedSince
    domStable := sameDom && decide (stableFor ≤ now - domUnchangedSince)
    textStable := sameText && decide (stableFor ≤ now - textUnchangedSince) }

/-! ## The loop -/

/-- The modes that wait for readiness. -/
inductive ReadinessWait where
  | auto
  | selectorStable (selector : String)
  deriving DecidableEq

def ReadinessWait.modeName : ReadinessWait → String
  | auto => "auto"
  | selectorStable _ => "selector_stable"

def ReadinessWait.strict : ReadinessWait → Bool
  | auto => true
  | selectorStable _ => false

def ReadinessWait.selector : ReadinessWait → String
  | auto => "body"
  | selectorStable selector => selector

structure WaitOutcome where
  waitMode : String
  waitSatisfiedBy : Option String
  networkQuiet : Option Bool
  domStable : Option Bool
  textStable : Option Bool
  captureReason : String
  readinessTimedOut : Bool
  readiness : Option Readiness

structure WaitConfig where
  wait : ReadinessWait
  idleFor : ℕ
  stableFor : ℕ
  waitDeadline : ℕ
  combineHash : List (String × ℕ) → ℕ

def WaitConfig.assess (cfg : WaitConfig) : AssessConfig := ⟨cfg.combineHash, cfg.wait.selector, cfg.wait.strict, cfg.idleFor⟩

/-- `quiet_snapshot`: the retained entries, and how long no event has been seen. -/
structure QuietInput where
  entries : List NetworkEntry
  idleFor : ℕ

def QuietInput.inflightTotal (input : QuietInput) : ℕ := Collect.inflightTotal (pendingByResourceType input.entries)

def QuietInput.quiet (input : QuietInput) (idle : ℕ) : Bool := input.inflightTotal == 0 && decide (idle ≤ input.idleFor)

inductive SampleResult where
  | completed (input : SampleInput) (quiet : QuietInput)
  /-- The sample fails; true if the selector is invalid. -/
  | failed (invalidArgument : Bool)
  | timedOut

structure Iteration where
  now : ℕ
  result : SampleResult
  /-- The retained requests, if they are asked for without a sample. -/
  requests : List ObservedRequest

structure LoopState where
  body : StabilityTracker
  target : StabilityTracker
  outcome : WaitOutcome

def LoopState.start (cfg : WaitConfig) (now : ℕ) : LoopState where
  body := .new now
  target := .new now
  outcome :=
    { waitMode := cfg.wait.modeName
      waitSatisfiedBy := none
      networkQuiet := some false
      domStable := some false
      textStable := some false
      captureReason := "readiness_timeout"
      readinessTimedOut := true
      readiness := none }

/-- A turn of the loop ends with the next one, or the wait returns. -/
inductive Turn where
  | goOn (state : LoopState)
  | returned (outcome : WaitOutcome)
  | invalidArgument

def sampleTimeout : ℕ := 500

def timedOutReturn (cfg : WaitConfig) (it : Iteration) (outcome : WaitOutcome) : WaitOutcome :=
  let readiness := outcome.readiness.getD (unknownReadiness cfg.wait.selector it.requests)
  { outcome with readiness := some { readiness with timedOut := true } }

/-- The target's tracker after a completed sample: an ineligible one starts it anew. -/
def nextTarget (cfg : WaitConfig) (now : ℕ) (sample : Sample) (st : LoopState) : StabilityTracker :=
  if sample.targetEligible then st.target.observe sample.target cfg.stableFor now else .new now

def targetReady (sample : Sample) (target : StabilityTracker) : Bool :=
  sample.targetEligible && sample.targetNetworkQuiet && target.domStable && target.textStable

def satisfied (cfg : WaitConfig) (now : ℕ) (sample : Sample) (quiet : QuietInput) (st : LoopState) : Bool :=
  targetReady sample (nextTarget cfg now sample st) && (!cfg.wait.strict || quiet.quiet cfg.idleFor)

/-- The outcome with a completed sample. -/
def sampleOutcome (cfg : WaitConfig) (now : ℕ) (sample : Sample) (quiet : QuietInput) (st : LoopState) : WaitOutcome :=
  let body := st.body.observe sample.body cfg.stableFor now
  let target := nextTarget cfg now sample st
  let readiness := { sample.readiness with
    targetDomStable := target.domStable
    targetTextStable := target.textStable
    targetContent := if targetReady sample target then .ready else sample.readiness.targetContent
    waitSatisfied := satisfied cfg now sample quiet st }
  { st.outcome with
    networkQuiet := some (quiet.quiet cfg.idleFor)
    domStable := some body.domStable
    textStable := some body.textStable
    readiness := some readiness }

/-- A completed sample. -/
def observeSample (cfg : WaitConfig) (now : ℕ) (sample : Sample) (quiet : QuietInput) (st : LoopState) : Turn :=
  let outcome := sampleOutcome cfg now sample quiet st
  if satisfied cfg now sample quiet st then
    .returned { outcome with
      waitSatisfiedBy := some (if cfg.wait.strict then "network_quiet_dom_text_stable" else "selector_stable")
      captureReason := "wait_satisfied"
      readinessTimedOut := false }
  else .goOn ⟨st.body.observe sample.body cfg.stableFor now, nextTarget cfg now sample st, outcome⟩

/-- A sample that failed, or took all of its time: what was seen before does not count. -/
def forget (now : ℕ) (st : LoopState) : LoopState where
  body := .new now
  target := .new now
  outcome := { st.outcome with
    domStable := some false
    textStable := some false
    readiness := st.outcome.readiness.map fun r => { r with
      observationComplete := false
      targetContent := .unknown
      targetDomStable := false
      targetTextStable := false } }

def turn (cfg : WaitConfig) (st : LoopState) (it : Iteration) : Turn :=
  if cfg.waitDeadline ≤ it.now then .returned (timedOutReturn cfg it st.outcome)
  else
    let budget := min (cfg.waitDeadline - it.now) sampleTimeout
    match it.result with
    | .completed input quiet => observeSample cfg it.now (takeSample cfg.assess input) quiet st
    | .failed true => .invalidArgument
    | .failed false => .goOn (forget it.now st)
    | .timedOut =>
      if budget < sampleTimeout then .returned (timedOutReturn cfg it st.outcome)
      else .goOn (forget it.now st)

/-- A turn after which the loop goes on. -/
def loopStep (cfg : WaitConfig) (st : LoopState) (it : Iteration) : Option LoopState :=
  match turn cfg st it with
  | .goOn st' => some st'
  | .returned _ => none
  | .invalidArgument => none

/-! ## What a turn does -/

/-- The outcome of a wait that is satisfied. -/
def satisfiedOutcome (cfg : WaitConfig) (outcome : WaitOutcome) : WaitOutcome :=
  { outcome with
    waitSatisfiedBy := some (if cfg.wait.strict then "network_quiet_dom_text_stable" else "selector_stable")
    captureReason := "wait_satisfied"
    readinessTimedOut := false }

section
variable {cfg : WaitConfig} {st : LoopState} {it : Iteration}

theorem turn_returned {outcome : WaitOutcome} (h : turn cfg st it = .returned outcome) :
    ((cfg.waitDeadline ≤ it.now ∨ it.result = .timedOut) ∧ outcome = timedOutReturn cfg it st.outcome) ∨
    ∃ input quiet, it.now < cfg.waitDeadline ∧ it.result = .completed input quiet ∧
      satisfied cfg it.now (takeSample cfg.assess input) quiet st = true ∧
      outcome = satisfiedOutcome cfg (sampleOutcome cfg it.now (takeSample cfg.assess input) quiet st) := by
  unfold turn at h
  by_cases hover : cfg.waitDeadline ≤ it.now
  · rw [if_pos hover] at h
    cases h
    exact .inl ⟨.inl hover, rfl⟩
  · rw [if_neg hover] at h
    dsimp only at h
    split at h
    · next input quiet hres =>
      unfold observeSample at h
      by_cases hsat : satisfied cfg it.now (takeSample cfg.assess input) quiet st = true
      · rw [if_pos hsat] at h
        cases h
        exact .inr ⟨input, quiet, not_le.mp hover, hres, hsat, rfl⟩
      · rw [if_neg hsat] at h
        cases h
    · cases h
    · cases h
    · next hres =>
      split at h
      · cases h
        exact .inl ⟨.inr hres, rfl⟩
      · cases h

theorem loopStep_cases {st' : LoopState} (h : loopStep cfg st it = some st') :
    it.now < cfg.waitDeadline ∧
    ((∃ input quiet, it.result = .completed input quiet ∧
        st' = ⟨st.body.observe (takeSample cfg.assess input).body cfg.stableFor it.now,
          nextTarget cfg it.now (takeSample cfg.assess input) st,
          sampleOutcome cfg it.now (takeSample cfg.assess input) quiet st⟩) ∨
      ((it.result = .failed false ∨ it.result = .timedOut) ∧ st' = forget it.now st)) := by
  unfold loopStep at h
  split at h
  · next st'' hturn =>
    cases h
    unfold turn at hturn
    by_cases hover : cfg.waitDeadline ≤ it.now
    · rw [if_pos hover] at hturn
      cases hturn
    · refine ⟨not_le.mp hover, ?_⟩
      rw [if_neg hover] at hturn
      dsimp only at hturn
      split at hturn
      · next input quiet hres =>
        unfold observeSample at hturn
        split at hturn
        · cases hturn
        · cases hturn
          exact .inl ⟨input, quiet, hres, rfl⟩
      · cases hturn
      · next hres =>
        cases hturn
        exact .inr ⟨.inl hres, rfl⟩
      · next hres =>
        split at hturn
        · cases hturn
        · cases hturn
          exact .inr ⟨.inr hres, rfl⟩
  · cases h
  · cases h

end

end Afhttp.Fetch

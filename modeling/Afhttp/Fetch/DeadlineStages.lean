import Mathlib
import Afhttp.Lib.Run
import Afhttp.Shared.Error
import Afhttp.Fetch.Readiness

/-!
# The stages of a fetch

`FetchDeadline` of `fetch/deadline.rs`, which the `run_result` calls of one fetch share.  A timeout error
pops the innermost stage when it is made, whether or not the call it is made in ends with it.

    the stack and the records after a finish             (finishStage_active, finishStage_stages)
    ... after a wait                                     (wait_timesOut, wait_inTime)
    the innermost stage has the innermost call's name    (ownStages_head)
    what a new call's token says                         (beginStage_nested)
-/

namespace Afhttp.Fetch

/-! ## The recorder -/

inductive TraceStageStatus where
  | ok | error | timeout | started
  deriving DecidableEq, Repr

structure TraceStage where
  name : String
  status : TraceStageStatus
  durationMs : ℕ

structure ActiveStage where
  name : String
  started : ℕ

structure StageToken where
  name : String
  nested : Bool

/-- The recorder and the clock, in nanoseconds.  The last of the active stages comes first. -/
structure FetchDeadline where
  started : ℕ
  timeout : ℕ
  now : ℕ
  currentStage : String
  stages : List TraceStage
  active : List ActiveStage

/-- `duration_ms` of a time in nanoseconds. -/
def nanosMs (d : ℕ) : ℕ := durationMs (d / 1000000)

/-- `TARGET_CLEANUP_TIMEOUT`. -/
def targetCleanupTimeout : ℕ := 2 * 1000000000

def statusForError : ErrorCode → TraceStageStatus
  | .navigationTimeout | .cdpTimeout | .artifactCaptureTimeout | .readinessTimeout => .timeout
  | _ => .error

/-- The status of a stage whose future ends in time. -/
def statusForResult : Except ErrorCode Unit → TraceStageStatus
  | .ok _ => .ok
  | .error code => statusForError code

namespace FetchDeadline

def new (now timeout : ℕ) : FetchDeadline := ⟨now, timeout, now, "start", [], []⟩

def elapsed (d : FetchDeadline) : ℕ := d.now - d.started

def setStage (d : FetchDeadline) (stage : String) : FetchDeadline := { d with currentStage := stage }

/-- The record of a stage that ends now. -/
def traceStage (d : FetchDeadline) (status : TraceStageStatus) (active : ActiveStage) : TraceStage :=
  ⟨active.name, status, nanosMs (d.now - active.started)⟩

def beginStage (d : FetchDeadline) (stage : String) : StageToken × FetchDeadline :=
  let d := d.setStage stage
  let nested := d.active.head?.any (·.name == stage)
  (⟨stage, nested⟩, if nested then d else { d with active := ⟨stage, d.now⟩ :: d.active })

def finishStage (d : FetchDeadline) (token : StageToken) (status : TraceStageStatus) : FetchDeadline :=
  if token.nested then d
  else
    match d.active.find? (·.name == token.name) with
    | none => d
    | some active =>
      { d with
        active := d.active.eraseP (·.name == token.name)
        currentStage := active.name
        stages := d.stages ++ [d.traceStage status active] }

def markCurrentStage (d : FetchDeadline) (status : TraceStageStatus) : FetchDeadline :=
  match d.active with
  | [] => d
  | active :: rest =>
    { d with
      active := rest
      currentStage := active.name
      stages := d.stages ++ [d.traceStage status active] }

def timeoutError (d : FetchDeadline) : Error × FetchDeadline :=
  let d := d.markCurrentStage .timeout
  (.new .navigationTimeout s!"fetch timed out after {nanosMs d.timeout}ms during {d.currentStage}", d)

/-- The budget is used up. -/
def expired (d : FetchDeadline) : Bool := decide (d.timeout ≤ d.elapsed)

def remainingWithoutStageUpdate (d : FetchDeadline) : Except Error ℕ × FetchDeadline :=
  if d.expired then (.error d.timeoutError.1, d.timeoutError.2)
  else (.ok (d.timeout - d.elapsed), d)

def remaining (d : FetchDeadline) (stage : String) : Except Error ℕ × FetchDeadline :=
  (d.setStage stage).remainingWithoutStageUpdate

end FetchDeadline

/-! ## The calls -/

/-- What a stage's future asks of the deadline. -/
inductive StageWait where
  | remaining (stage : String)
  | timeoutError

def FetchDeadline.wait (d : FetchDeadline) : StageWait → Except Error ℕ × FetchDeadline
  | .remaining stage => d.remaining stage
  | .timeoutError => (.error d.timeoutError.1, d.timeoutError.2)

inductive StageEvent where
  | tick (nanos : ℕ)
  /-- `run_result`, up to its timer. -/
  | begin (stage : String)
  /-- The innermost call goes on after the wait. -/
  | wait (wait : StageWait)
  /-- The future of the innermost call ends, right after the wait if there is one: with the wait's timeout
  passed up, or with anything else. -/
  | finish (last : Option StageWait) (result : Except ErrorCode Unit)
  /-- The timer of the call with so many calls inside it, which are dropped. -/
  | elapsed (inside : ℕ)
  /-- The timer of the whole fetch. -/
  | whole

/-- A `run_result` call whose future runs. -/
structure StageCall where
  token : StageToken
  begun : ℕ

/-- A call that has ended, from when to when. -/
structure EndedCall where
  name : String
  begun : ℕ
  ended : ℕ

def StageCall.active (c : StageCall) : ActiveStage := ⟨c.token.name, c.begun⟩

def StageCall.ended (c : StageCall) (now : ℕ) : EndedCall := ⟨c.token.name, c.begun, now⟩

/-- The calls that run, the innermost first.  `ended` is a history: the calls that have ended, but for
those that repeated their parent's stage. -/
structure StageRun where
  deadline : FetchDeadline
  calls : List StageCall
  ended : List EndedCall

def repeatsParent (stage : String) (outer : List StageCall) : Bool :=
  outer.head?.any (·.token.name == stage)

/-- The first calls, in the others, less those that repeat their parent's stage. -/
def ownStages : List StageCall → List StageCall → List StageCall
  | [], _ => []
  | c :: inner, outer =>
    if repeatsParent c.token.name (inner ++ outer) then ownStages inner outer else c :: ownStages inner outer

namespace StageRun

def start (now timeout : ℕ) : StageRun := ⟨.new now timeout, [], []⟩

/-- The calls inside `outer` have ended. -/
def leave (s : StageRun) (deadline : FetchDeadline) (inner outer : List StageCall) : StageRun :=
  ⟨deadline, outer, s.ended ++ (ownStages inner outer).map (·.ended s.deadline.now)⟩

def step (s : StageRun) : StageEvent → Option StageRun
  | .tick nanos => some { s with deadline := { s.deadline with now := s.deadline.now + nanos } }
  | .begin stage =>
    let (token, deadline) := s.deadline.beginStage stage
    let call : StageCall := ⟨token, deadline.now⟩
    match deadline.remainingWithoutStageUpdate with
    | (.ok _, deadline) => some { s with deadline := deadline, calls := call :: s.calls }
    | (.error _, deadline) => some (s.leave deadline [call] s.calls)
  | .wait w => some { s with deadline := (s.deadline.wait w).2 }
  | .finish last result =>
    match s.calls with
    | [] => none
    | c :: outer =>
      let deadline := last.elim s.deadline fun w => (s.deadline.wait w).2
      some (s.leave (deadline.finishStage c.token (statusForResult result)) [c] outer)
  | .elapsed inside =>
    match s.calls.drop inside with
    | [] => none
    | c :: outer =>
      if s.deadline.expired then
        some (s.leave (s.deadline.finishStage c.token .timeout) (s.calls.take inside ++ [c]) outer)
      else none
  | .whole =>
    if s.deadline.timeout + targetCleanupTimeout ≤ s.deadline.elapsed then
      some (s.leave s.deadline.timeoutError.2 s.calls [])
    else none

end StageRun

/-- What a record says of its call, but for the status. -/
def TraceStage.timing (t : TraceStage) : String × ℕ := (t.name, t.durationMs)

def EndedCall.timing (c : EndedCall) : String × ℕ := (c.name, nanosMs (c.ended - c.begun))

namespace StageRun

/-- Each call that does not repeat its parent's stage has its stage on the stack while it runs, and one
record, from its begin to its end, once it has ended. -/
structure Balanced (s : StageRun) : Prop where
  running : s.deadline.active = (ownStages s.calls []).map StageCall.active
  recorded : s.deadline.stages.map TraceStage.timing = s.ended.map EndedCall.timing

/-- The wait would come back as a timeout. -/
def TimesOut (d : FetchDeadline) : StageWait → Prop
  | .remaining _ => d.expired = true
  | .timeoutError => True

/-- The innermost call has a stage of its own, and a name that no other running call has. -/
def SoleName : List StageCall → Prop
  | [] => True
  | c :: outer => repeatsParent c.token.name outer = false ∧ ∀ o ∈ outer, o.token.name ≠ c.token.name

/-- The steps that keep the balance. -/
def KeepsBalance (s : StageRun) : StageEvent → Prop
  | .begin stage => s.deadline.expired = true → repeatsParent stage s.calls = false
  | .wait w => TimesOut s.deadline w → s.calls = []
  | .finish (some w) _ => TimesOut s.deadline w → SoleName s.calls
  | .elapsed inside => ownStages (s.calls.take inside) (s.calls.drop inside) = []
  | .whole => (ownStages s.calls []).length ≤ 1
  | _ => True

/-- A call's token says whether it repeats its parent's stage. -/
def TokensTell (s : StageRun) : Prop :=
  ∀ inner c outer, s.calls = inner ++ c :: outer → c.token.nested = repeatsParent c.token.name outer

end StageRun

/-! ## The operations on the stack -/

section
variable {d : FetchDeadline} {token : StageToken} {status : TraceStageStatus}

theorem finishStage_nested (h : token.nested = true) : d.finishStage token status = d := by
  rw [FetchDeadline.finishStage, if_pos h]

theorem finishStage_active (h : token.nested = false) :
    (d.finishStage token status).active = d.active.eraseP (·.name == token.name) := by
  rw [FetchDeadline.finishStage, if_neg (by rw [h]; simp)]
  cases hfind : d.active.find? (·.name == token.name) with
  | none =>
    rw [List.find?_eq_none] at hfind
    exact (List.eraseP_of_forall_not hfind).symm
  | some active => rfl

theorem finishStage_stages (h : token.nested = false) :
    (d.finishStage token status).stages =
      d.stages ++ (d.active.find? (·.name == token.name)).toList.map (d.traceStage status) := by
  rw [FetchDeadline.finishStage, if_neg (by rw [h]; simp)]
  cases d.active.find? (·.name == token.name) with
  | none => exact (List.append_nil _).symm
  | some active => rfl

/-- A finish takes at most one stage off the stack. -/
theorem length_finishStage_active :
    d.active.length ≤ (d.finishStage token status).active.length + if token.nested then 0 else 1 := by
  cases h : token.nested with
  | true =>
    rw [finishStage_nested h]
    exact Nat.le_refl _
  | false =>
    rw [finishStage_active h]
    have hle : d.active.length - 1 ≤ (d.active.eraseP (·.name == token.name)).length := List.le_length_eraseP
    show _ ≤ _ + 1
    omega

theorem markCurrentStage_active : (d.markCurrentStage status).active = d.active.tail := by
  unfold FetchDeadline.markCurrentStage
  cases h : d.active with
  | nil => exact h
  | cons active rest => rfl

theorem markCurrentStage_stages :
    (d.markCurrentStage status).stages = d.stages ++ d.active.head?.toList.map (d.traceStage status) := by
  unfold FetchDeadline.markCurrentStage
  cases d.active with
  | nil => exact (List.append_nil _).symm
  | cons active rest => rfl

/-- A wait that times out pops the stack. -/
theorem wait_timesOut {w : StageWait} (h : StageRun.TimesOut d w) :
    ∃ e d', d.wait w = (.error e, d') ∧ d'.active = d.active.tail ∧
      d'.stages = d.stages ++ d.active.head?.toList.map (d.traceStage .timeout) := by
  cases w with
  | remaining stage =>
    have hexpired : (d.setStage stage).expired = true := h
    refine ⟨(d.setStage stage).timeoutError.1, (d.setStage stage).timeoutError.2, ?_,
      markCurrentStage_active, markCurrentStage_stages⟩
    show (d.setStage stage).remainingWithoutStageUpdate = _
    rw [FetchDeadline.remainingWithoutStageUpdate, if_pos hexpired]
  | timeoutError =>
    exact ⟨d.timeoutError.1, d.timeoutError.2, rfl, markCurrentStage_active, markCurrentStage_stages⟩

/-- A wait that does not leaves it. -/
theorem wait_inTime {w : StageWait} (h : ¬StageRun.TimesOut d w) :
    ∃ left d', d.wait w = (.ok left, d') ∧ d'.now = d.now ∧ d'.active = d.active ∧ d'.stages = d.stages := by
  cases w with
  | remaining stage =>
    have hinTime : (d.setStage stage).expired ≠ true := h
    refine ⟨(d.setStage stage).timeout - (d.setStage stage).elapsed, d.setStage stage, ?_, rfl, rfl, rfl⟩
    show (d.setStage stage).remainingWithoutStageUpdate = _
    rw [FetchDeadline.remainingWithoutStageUpdate, if_neg hinTime]
  | timeoutError => exact absurd trivial h

end

/-! ## The stages of the running calls -/

theorem ownStages_append (xs ys zs : List StageCall) :
    ownStages (xs ++ ys) zs = ownStages xs (ys ++ zs) ++ ownStages ys zs := by
  induction xs with
  | nil => rfl
  | cons c xs ih =>
    rw [List.cons_append, ownStages, ownStages, ih, List.append_assoc]
    split
    · rfl
    · rfl

/-- A call and those outside it. -/
theorem ownStages_cons (c : StageCall) (outer : List StageCall) :
    ownStages (c :: outer) [] =
      if repeatsParent c.token.name outer then ownStages outer [] else c :: ownStages outer [] := by
  rw [ownStages, List.append_nil]

theorem ownStages_singleton (c : StageCall) (outer : List StageCall) :
    ownStages [c] outer = if repeatsParent c.token.name outer then [] else [c] := rfl

theorem exists_parent {stage : String} {outer : List StageCall} (h : repeatsParent stage outer = true) :
    ∃ parent others, outer = parent :: others ∧ parent.token.name = stage := by
  cases outer with
  | nil => cases h
  | cons parent others => exact ⟨parent, others, rfl, by simpa [repeatsParent] using h⟩

/-- **The innermost stage** has the name of the innermost call. -/
theorem ownStages_head (calls : List StageCall) :
    (ownStages calls []).head?.map (·.token.name) = calls.head?.map (·.token.name) := by
  induction calls with
  | nil => rfl
  | cons c outer ih =>
    rw [ownStages_cons]
    split
    · next hrepeats =>
      obtain ⟨parent, others, rfl, hname⟩ := exists_parent hrepeats
      rw [ih, List.head?_cons, List.head?_cons, Option.map_some, Option.map_some, hname]
    · rfl

theorem ownStages_ne_nil {calls : List StageCall} (h : calls ≠ []) : ownStages calls [] ≠ [] := by
  intro hnil
  have hhead := ownStages_head calls
  rw [hnil] at hhead
  cases calls with
  | nil => exact h rfl
  | cons c outer => cases hhead

/-- The stages have the names of the calls. -/
theorem mem_ownStages_names (calls : List StageCall) (name : String) :
    (∃ o ∈ ownStages calls [], o.token.name = name) ↔ ∃ o ∈ calls, o.token.name = name := by
  induction calls with
  | nil => rfl
  | cons c outer ih =>
    rw [ownStages_cons]
    split
    · next hrepeats =>
      rw [ih]
      obtain ⟨parent, others, rfl, hname⟩ := exists_parent hrepeats
      simp [hname]
    · simp only [List.mem_cons, exists_eq_or_imp, ih]

/-- What `begin_stage` finds is whether the call repeats its parent's stage. -/
theorem beginStage_nested {s : StageRun} (h : s.Balanced) (stage : String) :
    s.deadline.active.head?.any (·.name == stage) = repeatsParent stage s.calls := by
  have hhead : s.deadline.active.head?.map (·.name) = s.calls.head?.map (·.token.name) := by
    rw [h.running, List.head?_map, Option.map_map]
    exact ownStages_head s.calls
  calc s.deadline.active.head?.any (·.name == stage)
      = (s.deadline.active.head?.map (·.name)).any (· == stage) := by
        cases s.deadline.active.head? <;> rfl
    _ = (s.calls.head?.map (·.token.name)).any (· == stage) := by rw [hhead]
    _ = repeatsParent stage s.calls := by
        unfold repeatsParent
        cases s.calls.head? <;> rfl

end Afhttp.Fetch

import Afhttp.Lib.Run
import Afhttp.Collect.MainDocument

/-!
# Waiting for the main document's status

`NetworkCollector::wait_for_main_status` with a frame, beside the task that takes the events.  The
call and the task meet at a lock and at a `Notify`: the task calls `notify_waiters` after an event
that has touched the main document's entry, and the call waits for that between its looks.

    registered → selected → unanswered → waiting → registered → ...
                     ↓           ↓          ↓
                 returned     expired → returned

A step is what is done under one hold of the lock, or without it.  `order` is the order in which a
pass over the slots meets them: it may change when a slot comes or goes.
-/

namespace Afhttp.Collect

open Text Fetch

inductive Phase where
  /-- No call yet. -/
  | idle
  /-- Registered with the `Notify`. -/
  | registered
  /-- The main document is selected. -/
  | selected
  /-- Its entry, read after that, had no status and no failure. -/
  | unanswered
  | waiting
  /-- No time remains. -/
  | expired
  | returned (entry : Option NetworkEntry)

/-- The call has selected the main document since it registered. -/
def Phase.chosen : Phase → Bool
  | idle | registered => false
  | selected | unanswered | waiting | expired | returned _ => true

/-- The call has found no answer, and waits or is about to. -/
def Phase.awaits : Phase → Bool
  | unanswered | waiting => true
  | idle | registered | selected | expired | returned _ => false

def Phase.over : Phase → Bool
  | returned _ => true
  | _ => false

structure Wait where
  inner : NetworkInner
  order : List String
  phase : Phase
  /-- A `notify_waiters` since the call registered. -/
  notified : Bool
  /-- The task has touched the main document and will call `notify_waiters`. -/
  touched : Bool

def Wait.start : Wait := ⟨.default, [], .idle, false, false⟩

inductive WaitEvent where
  /-- The task handles an event; after it, a pass meets the slots in this order. -/
  | event (event : CdpEvent) (now : ℕ) (order : List String)
  | lagged (count now : ℕ)
  | notifyWaiters
  /-- Something else selects the main document, before the call. -/
  | snapshot (mainFrameId : String)
  | call
  | select
  | read
  /-- Time remains: the call waits. -/
  | sleep
  /-- No time remains after the read. -/
  | zero
  | wake
  /-- The time is over before a notification. -/
  | expire
  /-- The last look. -/
  | finish

/-- The entry has a status or a failure. -/
def NetworkEntry.answered (entry : NetworkEntry) : Bool := entry.status.isSome || entry.failure.isSome

/-- The event puts a slot in. -/
def putsIn (cfg : CollectorConfig) (inner : NetworkInner) (event : CdpEvent) : Bool :=
  ((CollectorStep.event event 0).announcement cfg).any fun params => !decide (inner.table.Refuses cfg params)

def waitStep (cfg : CollectorConfig) (frame : String) (s : Wait) (e : WaitEvent) : Option Wait :=
  if s.phase.over then none
  else
    match e with
    | .event event now order =>
      let handled := onEvent cfg event now s.inner
      if s.touched = false ∧ order.Perm handled.1.slots.keys ∧ (putsIn cfg s.inner event = false → order = s.order) then
        some { s with inner := handled.1, order := order, touched := handled.2 }
      else none
    | .lagged count now => some { s with inner := collectorStep cfg s.inner (.lagged count now) }
    | .notifyWaiters => if s.touched then some { s with notified := true, touched := false } else none
    | .snapshot mainFrameId =>
      match s.phase with
      | .idle => some { s with inner := selectMainDocument (s.inner.values s.order) mainFrameId s.inner }
      | _ => none
    | .call =>
      match s.phase with
      | .idle => some { s with phase := .registered, notified := false }
      | _ => none
    | .select =>
      match s.phase with
      | .registered =>
        some { s with inner := selectMainDocument (s.inner.values s.order) frame s.inner, phase := .selected }
      | _ => none
    | .read =>
      match s.phase with
      | .selected =>
        if s.inner.mainEntry.any NetworkEntry.answered then some { s with phase := .returned s.inner.mainEntry }
        else some { s with phase := .unanswered }
      | _ => none
    | .sleep =>
      match s.phase with
      | .unanswered => some { s with phase := .waiting }
      | _ => none
    | .zero =>
      match s.phase with
      | .unanswered => some { s with phase := .expired }
      | _ => none
    | .wake =>
      match s.phase with
      | .waiting => if s.notified then some { s with phase := .registered, notified := false } else none
      | _ => none
    | .expire =>
      match s.phase with
      | .waiting => if s.notified then none else some { s with phase := .expired }
      | _ => none
    | .finish =>
      match s.phase with
      | .expired => some { s with phase := .returned s.inner.mainEntry }
      | _ => none

/-! ## What the call is for -/

/-- The entry that a selection for the frame picks now. -/
def Wait.picked (frame : String) (s : Wait) : Option NetworkEntry :=
  (selectMainDocument (s.inner.values s.order) frame s.inner).mainEntry

/-- What the call returns is picked when it returns; and a call that waits, though the picked entry
has an answer, has been notified. -/
structure WaitMeets (frame : String) (s : Wait) : Prop where
  returned : ∀ entry, s.phase = .returned entry → entry = s.picked frame
  woken : s.phase.awaits = true → s.touched = false →
    (s.picked frame).any NetworkEntry.answered = true → s.notified = true

/-! ## When it does that -/

/-- The start of a request's root-frame Document after the announcement, if it has one. -/
def newStart (cfg : CollectorConfig) (frame : String) (t : RequestTable) (params : Json) (id : String) : Option ℕ :=
  (if id = idOf params then documentMark frame (announced cfg params)
    else (t.entry id).bind (documentMark frame)).map Prod.fst

/-- After the announcement every other root-frame Document is earlier than the main request's, and no
hop is filed under its id. -/
def mainStays (cfg : CollectorConfig) (frame : String) (inner : NetworkInner) (params : Json) (main : String) : Bool :=
  inner.table.hopAt params != main && (idOf params :: inner.slots.keys).all fun id =>
    id == main || (newStart cfg frame inner.table params id).all fun start =>
      (newStart cfg frame inner.table params main).any fun start' => decide (start < start')

/-- The task handles no announcement, between a selection and the return, that takes the choice from
the main request. -/
def MainKept (cfg : CollectorConfig) (frame : String) (s : Wait) : WaitEvent → Prop
  | .event ev _ _ => s.phase.chosen = true → ∀ params ∈ (CollectorStep.event ev 0).announcement cfg,
      ¬s.inner.table.Refuses cfg params → ∀ main ∈ s.inner.mainRequestId, mainStays cfg frame s.inner params main = true
  | _ => True

instance (cfg : CollectorConfig) (frame : String) (s : Wait) : ∀ e, Decidable (MainKept cfg frame s e)
  | .event ev _ _ => inferInstanceAs (Decidable (s.phase.chosen = true →
      ∀ params ∈ (CollectorStep.event ev 0).announcement cfg, ¬s.inner.table.Refuses cfg params →
        ∀ main ∈ s.inner.mainRequestId, mainStays cfg frame s.inner params main = true))
  | .lagged _ _ => isTrue trivial
  | .notifyWaiters => isTrue trivial
  | .snapshot _ => isTrue trivial
  | .call => isTrue trivial
  | .select => isTrue trivial
  | .read => isTrue trivial
  | .sleep => isTrue trivial
  | .zero => isTrue trivial
  | .wake => isTrue trivial
  | .expire => isTrue trivial
  | .finish => isTrue trivial

end Afhttp.Collect

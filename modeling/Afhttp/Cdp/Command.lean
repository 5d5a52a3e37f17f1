import Mathlib
import Afhttp.Cdp.Connection
import Afhttp.Fetch.Download
import Afhttp.Lib.Broadcast

/-!
# A raw CDP call

`CdpBuilder::send` of `sdk/cdp/mod.rs`, with `attach_to_target` and `wait_event_on`.  The call
attaches to its tab, subscribes, sends its command, waits for the reply and then for an event, and
detaches.  The connection's reader broadcasts the events of every session meanwhile; the channel
keeps the last 256.  What the connection, the browser and the clock do are steps of their own, in
any order.

    a session that a command was sent under is detached                    (session_detached)
    a wait ends with an event of the call's own tab that came after the
    subscription                                                           (wait_sound)
    and with at most 256 events unread it ends as soon as it has read on
    to one, also to one that came before the reply                         (wait_finds_event)
-/

namespace Afhttp.Cdp

open Broadcast
open Fetch (CdpEvent)

/-- `broadcast::channel(256)`. -/
def eventsCap : ℕ := 256

structure CdpBuilder where
  method : String
  tab : Option String
  params : Json
  /-- The event of `wait_for`. -/
  wait : Option String
  timeoutMs : ℕ

/-- Where a call is. -/
inductive CommandStage where
  | connecting
  | attaching
  /-- The command is sent; `events` is the receiver subscribed before it. -/
  | sending (session : Option String) (events : Option ℕ)
  /-- In `wait_event_on`, with the reply. -/
  | waiting (session : Option String) (event : String) (events : ℕ) (result : Json)
  | detaching (outcome : Except Error Json)
  | done (outcome : Except Error Json)

structure Command where
  /-- The channel of the connection. -/
  events : Channel CdpEvent
  stage : CommandStage
  /-- The requests of the call. -/
  sent : List Request

namespace CdpBuilder

variable (b : CdpBuilder)

def attachRequest (tab : String) : Request :=
  ⟨"Target.attachToTarget", .obj [("targetId", .str tab), ("flatten", .bool true)], none, false⟩

def commandRequest (session : Option String) : Request := ⟨b.method, b.params, session, false⟩

def detachRequest (session : String) : Request :=
  ⟨"Target.detachFromTarget", .obj [("sessionId", .str session)], none, true⟩

def timedOut (stage : String) : Error :=
  .new .cdpTimeout s!"CDP {b.method}: no reply within {b.timeoutMs}ms while {stage}"

/-- `attach_to_target`, on the reply. -/
def sessionOf (reply : Json) : Except Error String :=
  match (reply.get "sessionId").bind Json.asStr with
  | some session => .ok session
  | none => .error (.new .cdpError "Target.attachToTarget: no sessionId returned")

/-- Subscribes, and sends the command. -/
def start (session : Option String) (c : Command) : Command :=
  { c with
    stage := .sending session (b.wait.map fun _ => c.events.tail)
    sent := c.sent ++ [b.commandRequest session] }

/-- The call has its outcome; what was attached is detached. -/
def finish (session : Option String) (outcome : Except Error Json) (c : Command) : Command :=
  match session with
  | none => { c with stage := .done outcome }
  | some session => { c with stage := .detaching outcome, sent := c.sent ++ [detachRequest session] }

/-- The predicate of the wait: on a tab, only that tab's event. -/
def awaits (event : String) (session : Option String) (ev : CdpEvent) : Bool :=
  ev.method == event && (session.isNone || ev.sessionId == session)

inductive Step where
  | connected (result : Except Error Unit)
  | attached (reply : Except Error Json)
  | replied (reply : Except Error Json)
  /-- The reader broadcasts an event. -/
  | event (ev : CdpEvent)
  /-- The reader ends, and the channel with it. -/
  | streamEnds
  /-- One turn of `wait_event_on`'s loop. -/
  | recv
  /-- The time of the stage is over. -/
  | timeout
  | detached

def step (c : Command) : Step → Option Command
  | .connected result =>
    match c.stage with
    | .connecting =>
      match result, b.tab with
      | .error e, _ => some { c with stage := .done (.error e) }
      | .ok (), some tab => some { c with stage := .attaching, sent := c.sent ++ [attachRequest tab] }
      | .ok (), none => some (b.start none c)
    | _ => none
  | .attached reply =>
    match c.stage with
    | .attaching =>
      match reply.bind sessionOf with
      | .error e => some { c with stage := .done (.error e) }
      | .ok session => some (b.start (some session) c)
    | _ => none
  | .replied reply =>
    match c.stage with
    | .sending session events =>
      match reply, b.wait, events with
      | .ok result, some event, some events => some { c with stage := .waiting session event events result }
      | outcome, _, _ => some (finish session outcome c)
    | _ => none
  | .event ev => if c.events.closed then none else some { c with events := c.events.send eventsCap ev }
  | .streamEnds => some { c with events := { c.events with closed := true } }
  | .recv =>
    match c.stage with
    | .waiting session event events result =>
      match c.events.recv events with
      | (.value ev, next) =>
        if awaits event session ev then some (finish session (.ok result) c)
        else some { c with stage := .waiting session event next result }
      | (.lagged _, next) => some { c with stage := .waiting session event next result }
      | (.closed, _) => some (finish session (.error (.new .cdpUnavailable "wait_event: events channel closed")) c)
      | (.empty, _) => none
    | _ => none
  | .timeout =>
    match c.stage with
    | .connecting => some { c with stage := .done (.error (b.timedOut "connecting")) }
    | .attaching => some { c with stage := .done (.error (b.timedOut "attaching to the tab")) }
    | .sending session _ => some (finish session (.error (b.timedOut "waiting for the reply")) c)
    | .waiting session _ _ _ => some (finish session (.error (.new .cdpTimeout "wait_event: timed out")) c)
    | _ => none
  | .detached =>
    match c.stage with
    | .detaching outcome => some { c with stage := .done outcome }
    | _ => none

/-- A call on a connection that may have broadcast before. -/
def begin (events : Channel CdpEvent) : Command := ⟨events, .connecting, []⟩

/-! ## What a step can do -/

/-- The call has its outcome. -/
def Ended (c : Command) (outcome : Except Error Json) : Prop :=
  c.stage = .detaching outcome ∨ c.stage = .done outcome

theorem finish_ended (session : Option String) (outcome : Except Error Json) (c : Command) :
    Ended (finish session outcome c) outcome := by
  cases session with
  | none => exact .inr rfl
  | some session => exact .inl rfl

theorem ended_done {c c' : Command} {outcome : Except Error Json} (h : c' = { c with stage := .done outcome }) :
    Ended c' outcome := by
  rw [h]
  exact .inr rfl

theorem finish_events (session : Option String) (outcome : Except Error Json) (c : Command) :
    (finish session outcome c).events = c.events := by
  cases session <;> rfl

/-- The session of a call that has sent its command. -/
def Under (c : Command) (session : Option String) : Prop :=
  (∃ events, c.stage = .sending session events) ∨
    ∃ event events result, c.stage = .waiting session event events result

/-- The call moves from stage to stage; the channel is as it was. -/
inductive Move (c c' : Command) : Prop where
  /-- The call subscribes at the end of the channel. -/
  | start (session : Option String) (h : c' = b.start session c)
      (hfrom : c.stage = .connecting ∧ b.tab = none ∧ session = none ∨ c.stage = .attaching ∧ session ≠ none)
  | attach (tab : String) (hfrom : c.stage = .connecting) (htab : b.tab = some tab)
      (h : c' = { c with stage := .attaching, sent := c.sent ++ [attachRequest tab] })
  | reply (session : Option String) (event : String) (events : ℕ) (result : Json)
      (hwait : b.wait = some event) (hfrom : c.stage = .sending session (some events))
      (h : c' = { c with stage := .waiting session event events result })
  | skip (session : Option String) (event : String) (events next : ℕ) (result : Json)
      (hfrom : c.stage = .waiting session event events result)
      (h : c' = { c with stage := .waiting session event next result })
      (hrecv : (∃ ev, c.events.recv events = (.value ev, next) ∧ awaits event session ev = false) ∨
        ∃ n, c.events.recv events = (.lagged n, next))
  | found (session : Option String) (event : String) (events next : ℕ) (result : Json) (ev : CdpEvent)
      (hfrom : c.stage = .waiting session event events result) (h : c' = finish session (.ok result) c)
      (hrecv : c.events.recv events = (.value ev, next)) (hev : awaits event session ev = true)
  | fail (e : Error) (hfrom : c.stage = .connecting ∨ c.stage = .attaching)
      (h : c' = { c with stage := .done (.error e) })
  | cut (session : Option String) (e : Error) (hfrom : Under c session) (h : c' = finish session (.error e) c)
  | plain (session : Option String) (events : Option ℕ) (result : Json) (hfrom : c.stage = .sending session events)
      (hwait : b.wait = none ∨ events = none) (h : c' = finish session (.ok result) c)
  | detached (outcome : Except Error Json) (hfrom : c.stage = .detaching outcome)
      (h : c' = { c with stage := .done outcome })

/-- **A step** broadcasts, closes the channel, or moves the call. -/
theorem step_cases {c c' : Command} {e : Step} (h : b.step c e = some c') :
    (∃ ev, e = .event ev ∧ c' = { c with events := c.events.send eventsCap ev }) ∨
      (e = .streamEnds ∧ c' = { c with events := { c.events with closed := true } }) ∨
      ((∀ ev, e ≠ .event ev) ∧ c'.events = c.events ∧ b.Move c c') := by
  cases e with
  | event ev =>
    simp only [step] at h
    obtain ⟨-, h⟩ := Option.ite_none_left_eq_some.mp h
    exact .inl ⟨ev, rfl, (Option.some.inj h).symm⟩
  | streamEnds =>
    cases h
    exact .inr (.inl ⟨rfl, rfl⟩)
  | connected result =>
    refine .inr (.inr ⟨by simp, ?_⟩)
    simp only [step] at h
    split at h
    · next hstage =>
      cases result with
      | error e =>
        obtain rfl := Option.some.inj h
        exact ⟨rfl, .fail e (.inl hstage) rfl⟩
      | ok _ =>
        cases htab : b.tab with
        | some tab =>
          simp only [htab] at h
          obtain rfl := Option.some.inj h
          exact ⟨rfl, .attach tab hstage htab rfl⟩
        | none =>
          simp only [htab] at h
          obtain rfl := Option.some.inj h
          exact ⟨rfl, .start none rfl (.inl ⟨hstage, htab, rfl⟩)⟩
    · cases h
  | attached reply =>
    refine .inr (.inr ⟨by simp, ?_⟩)
    simp only [step] at h
    split at h
    · next hstage =>
      split at h
      · next e _ =>
        cases h
        exact ⟨rfl, .fail e (.inr hstage) rfl⟩
      · next session _ =>
        cases h
        exact ⟨rfl, .start (some session) rfl (.inr ⟨hstage, by simp⟩)⟩
    · cases h
  | replied reply =>
    refine .inr (.inr ⟨by simp, ?_⟩)
    simp only [step] at h
    split at h
    · next session events hstage =>
      cases reply with
      | error e =>
        obtain rfl := Option.some.inj h
        exact ⟨finish_events .., .cut session e (.inl ⟨events, hstage⟩) rfl⟩
      | ok result =>
        cases hwait : b.wait with
        | none =>
          simp only [hwait] at h
          obtain rfl := Option.some.inj h
          exact ⟨finish_events .., .plain session events result hstage (.inl hwait) rfl⟩
        | some event =>
          cases events with
          | none =>
            simp only [hwait] at h
            obtain rfl := Option.some.inj h
            exact ⟨finish_events .., .plain session none result hstage (.inr rfl) rfl⟩
          | some events =>
            simp only [hwait] at h
            obtain rfl := Option.some.inj h
            exact ⟨rfl, .reply session event events result hwait hstage rfl⟩
    · cases h
  | recv =>
    refine .inr (.inr ⟨by simp, ?_⟩)
    simp only [step] at h
    split at h
    · next session event events result hstage =>
      split at h
      · next ev next hrecv =>
        split at h
        · next hev =>
          cases h
          exact ⟨finish_events .., .found session event events next result ev hstage rfl hrecv hev⟩
        · next hev =>
          cases h
          exact ⟨rfl, .skip session event events next result hstage rfl
            (.inl ⟨ev, hrecv, Bool.eq_false_iff.mpr hev⟩)⟩
      · next n next hrecv =>
        cases h
        exact ⟨rfl, .skip session event events next result hstage rfl (.inr ⟨n, hrecv⟩)⟩
      · cases h
        exact ⟨finish_events .., .cut session _ (.inr ⟨event, events, result, hstage⟩) rfl⟩
      · cases h
    · cases h
  | timeout =>
    refine .inr (.inr ⟨by simp, ?_⟩)
    simp only [step] at h
    split at h
    · next hstage =>
      cases h
      exact ⟨rfl, .fail _ (.inl hstage) rfl⟩
    · next hstage =>
      cases h
      exact ⟨rfl, .fail _ (.inr hstage) rfl⟩
    · next session events hstage =>
      cases h
      exact ⟨finish_events .., .cut session _ (.inl ⟨events, hstage⟩) rfl⟩
    · next session event events result hstage =>
      cases h
      exact ⟨finish_events .., .cut session _ (.inr ⟨event, events, result, hstage⟩) rfl⟩
    · cases h
  | detached =>
    refine .inr (.inr ⟨by simp, ?_⟩)
    simp only [step] at h
    split at h
    · next outcome hstage =>
      cases h
      exact ⟨rfl, .detached outcome hstage rfl⟩
    · cases h

/-! ## A call on a tab -/

/-- `Page.navigate` on a tab, waiting for its load. -/
def navigateAndWait : CdpBuilder := ⟨"Page.navigate", some "T1", .obj [], some "Page.loadEventFired", 30000⟩

def loadEvent (session : String) : CdpEvent := ⟨"Page.loadEventFired", some session, .obj []⟩

/-- Up to the command. -/
def navigateBegins : List Step := [.connected (.ok ()), .attached (.ok (.obj [("sessionId", .str "S1")]))]

/-- Another tab's load, the tab's own, and the reply behind them. -/
def navigateGoesOn : List Step := [.event (loadEvent "S2"), .event (loadEvent "S1"), .replied (.ok (.obj []))]

/-- The call after the command, and after the reply. -/
def navigateSending : Command :=
  ⟨.new, .sending (some "S1") (some 0), [attachRequest "T1", navigateAndWait.commandRequest (some "S1")]⟩

def navigateWaiting : Command :=
  ⟨⟨[loadEvent "S2", loadEvent "S1"], 2, false⟩, .waiting (some "S1") "Page.loadEventFired" 0 (.obj []),
    navigateSending.sent⟩

theorem navigate_sending : Run.run navigateAndWait.step (begin .new) navigateBegins = some navigateSending := rfl

theorem navigate_waiting :
    Run.run navigateAndWait.step (begin .new) (navigateBegins ++ navigateGoesOn) = some navigateWaiting := rfl

def navigateEnds : List Step := [.recv, .recv, .detached]

/-- The call is done two turns and a detach later. -/
def navigateDone : Command :=
  ⟨navigateWaiting.events, .done (.ok (.obj [])), navigateSending.sent ++ [detachRequest "S1"]⟩

theorem navigate_done :
    Run.run navigateAndWait.step (begin .new) (navigateBegins ++ navigateGoesOn ++ navigateEnds) =
      some navigateDone := rfl

/-! ## What was attached is detached -/

/-- A session that the call has sent under is still the call's, or is being detached. -/
def Held (c : Command) : Prop :=
  ∀ session, (∃ r ∈ c.sent, r.sessionId = some session) → Under c (some session) ∨ detachRequest session ∈ c.sent

theorem held_finish {c : Command} (hc : Held c) {session : Option String} (hunder : Under c session)
    (outcome : Except Error Json) : Held (finish session outcome c) := by
  -- the call is under one session only
  have hone : ∀ s, Under c s → s = session := by
    intro s hs
    rcases hunder with ⟨_, h⟩ | ⟨_, _, _, h⟩ <;> rcases hs with ⟨_, h'⟩ | ⟨_, _, _, h'⟩ <;>
      rw [h] at h' <;> cases h' <;> rfl
  intro s hs
  right
  cases session with
  | none =>
    rcases hc s hs with h | h
    · cases hone _ h
    · exact h
  | some t =>
    obtain ⟨r, hr, hsession⟩ := hs
    rcases List.mem_append.mp hr with hr | hr
    · rcases hc s ⟨r, hr, hsession⟩ with h | h
      · cases hone _ h
        exact List.mem_append_right _ (List.mem_singleton.mpr rfl)
      · exact List.mem_append_left _ h
    · rw [List.mem_singleton.mp hr] at hsession
      cases hsession

theorem held_step {c c' : Command} {e : Step} (hc : Held c) (h : b.step c e = some c') : Held c' := by
  have hsame : ∀ d : Command, d.sent = c.sent → (∀ s, Under c s → Under d s) → Held d := by
    intro d hsent hunder s hs
    rw [hsent] at hs ⊢
    rcases hc s hs with h | h
    · exact .inl (hunder _ h)
    · exact .inr h
  have hbefore : ∀ d : Command, (c.stage = .connecting ∨ c.stage = .attaching ∨ ∃ o, c.stage = .detaching o) →
      (∀ r ∈ d.sent, r ∈ c.sent ∨ ∀ s, r.sessionId = some s → Under d (some s)) → c.sent ⊆ d.sent → Held d := by
    rintro d hstage hsent hsub s ⟨r, hr, hsession⟩
    rcases hsent r hr with hr | hr
    · rcases hc s ⟨r, hr, hsession⟩ with h | h
      · rcases h with ⟨_, h⟩ | ⟨_, _, _, h⟩ <;> rcases hstage with hs | hs | ⟨_, hs⟩ <;> rw [h] at hs <;> cases hs
      · exact .inr (hsub h)
    · exact .inl (hr s hsession)
  have hstill : c'.stage = c.stage → ∀ s, Under c s → Under c' s := by
    intro hstage s hs
    unfold Under at hs ⊢
    rw [hstage]
    exact hs
  rcases b.step_cases h with ⟨ev, -, hc'⟩ | ⟨-, hc'⟩ | ⟨-, -, hmove⟩
  · exact hsame c' (by rw [hc']) (hstill (by rw [hc']))
  · exact hsame c' (by rw [hc']) (hstill (by rw [hc']))
  cases hmove with
  | start session h hfrom =>
    have hstage : c.stage = .connecting ∨ c.stage = .attaching ∨ ∃ o, c.stage = .detaching o := by
      rcases hfrom with ⟨h, -⟩ | ⟨h, -⟩
      · exact .inl h
      · exact .inr (.inl h)
    subst h
    refine hbefore _ hstage (fun r hr => ?_) (List.subset_append_left ..)
    rcases List.mem_append.mp hr with hr | hr
    · exact .inl hr
    · refine .inr fun s hs => .inl ⟨b.wait.map fun _ => c.events.tail, ?_⟩
      rw [List.mem_singleton.mp hr] at hs
      show CommandStage.sending session _ = .sending (some s) _
      rw [show session = some s from hs]
  | attach tab hfrom _ h =>
    subst h
    refine hbefore _ (.inl hfrom) (fun r hr => ?_) (List.subset_append_left ..)
    rcases List.mem_append.mp hr with hr | hr
    · exact .inl hr
    · refine .inr fun s hs => ?_
      rw [List.mem_singleton.mp hr] at hs
      cases hs
  | reply session event events result _ hfrom h =>
    subst h
    refine hsame _ rfl fun s hs => ?_
    rcases hs with ⟨_, hs⟩ | ⟨_, _, _, hs⟩ <;> rw [hfrom] at hs <;> cases hs
    exact .inr ⟨event, events, result, rfl⟩
  | skip session event events next result hfrom h _ =>
    subst h
    refine hsame _ rfl fun s hs => ?_
    rcases hs with ⟨_, hs⟩ | ⟨_, _, _, hs⟩ <;> rw [hfrom] at hs <;> cases hs
    exact .inr ⟨event, next, result, rfl⟩
  | found session event events next result ev hfrom h _ _ =>
    subst h
    exact held_finish hc (.inr ⟨event, events, result, hfrom⟩) _
  | fail e' hfrom h =>
    subst h
    have hstage : c.stage = .connecting ∨ c.stage = .attaching ∨ ∃ o, c.stage = .detaching o := by
      rcases hfrom with h | h
      · exact .inl h
      · exact .inr (.inl h)
    exact hbefore _ hstage (fun r hr => .inl hr) (List.Subset.refl _)
  | cut session e' hfrom h =>
    subst h
    exact held_finish hc hfrom _
  | plain session events result hfrom _ h =>
    subst h
    exact held_finish hc (.inl ⟨events, hfrom⟩) _
  | detached outcome hfrom h =>
    subst h
    exact hbefore _ (.inr (.inr ⟨outcome, hfrom⟩)) (fun r hr => .inl hr) (List.Subset.refl _)

/-- **What was attached is detached**: once the call is done, however it ended, every session that
it sent its command under has been detached. -/
theorem session_detached {events : Channel CdpEvent} {es : List Step} {c : Command}
    (h : Run.run b.step (begin events) es = some c) {outcome : Except Error Json} (hdone : c.stage = .done outcome)
    {r : Request} (hr : r ∈ c.sent) {session : String} (hsession : r.sessionId = some session) :
    detachRequest session ∈ c.sent := by
  have hheld : Held c := by
    refine Run.run_invariant b.step (I := Held) ?_ (fun c e c' hc hstep => b.held_step hc hstep) h
    rintro s ⟨r, hr, -⟩
    cases hr
  rcases hheld session ⟨r, hr, hsession⟩ with hunder | hdetach
  · rcases hunder with ⟨_, hs⟩ | ⟨_, _, _, hs⟩ <;> rw [hdone] at hs <;> cases hs
  · exact hdetach

theorem session_detached_navigate : detachRequest "S1" ∈ navigateDone.sent :=
  session_detached navigateAndWait navigate_done rfl (r := navigateAndWait.commandRequest (some "S1"))
    (List.mem_cons_of_mem _ (List.mem_cons_self ..)) rfl

/-! ## The events of a run -/

def eventsOf (es : List Step) : List CdpEvent :=
  es.filterMap fun e => match e with
    | .event ev => some ev
    | _ => none

theorem eventsOf_append (xs ys : List Step) : eventsOf (xs ++ ys) = eventsOf xs ++ eventsOf ys :=
  List.filterMap_append

theorem eventsOf_other {e : Step} (h : ∀ ev, e ≠ .event ev) : eventsOf [e] = [] := by
  cases e with
  | event ev => exact absurd rfl (h ev)
  | connected => rfl
  | attached => rfl
  | replied => rfl
  | streamEnds => rfl
  | recv => rfl
  | timeout => rfl
  | detached => rfl

theorem mem_eventsOf {ev : CdpEvent} {es : List Step} : ev ∈ eventsOf es ↔ Step.event ev ∈ es := by
  unfold eventsOf
  rw [List.mem_filterMap]
  constructor
  · rintro ⟨e, he, heq⟩
    cases e with
    | event ev' =>
      cases heq
      exact he
    | connected => cases heq
    | attached => cases heq
    | replied => cases heq
    | streamEnds => cases heq
    | recv => cases heq
    | timeout => cases heq
    | detached => cases heq
  · intro h
    exact ⟨_, h, rfl⟩

theorem holds_step {c c' : Command} {e : Step} (h : b.step c e = some c') {past : List CdpEvent}
    (hc : Holds eventsCap c.events past) : Holds eventsCap c'.events (past ++ eventsOf [e]) := by
  rcases b.step_cases h with ⟨ev, rfl, rfl⟩ | ⟨rfl, rfl⟩ | ⟨hother, hev, -⟩
  · exact hc.send ev
  · have hnone : eventsOf [.streamEnds] = [] := rfl
    rw [hnone, List.append_nil]
    exact hc.close
  · rw [eventsOf_other hother, List.append_nil, hev]
    exact hc

/-- The channel keeps the end of what was broadcast. -/
theorem holds_run {c₀ c : Command} {past : List CdpEvent} (h₀ : Holds eventsCap c₀.events past) {es : List Step}
    (h : Run.run b.step c₀ es = some c) : Holds eventsCap c.events (past ++ eventsOf es) := by
  refine Run.run_history b.step (P := fun es c => Holds eventsCap c.events (past ++ eventsOf es)) ?_ ?_ h
  · rw [show eventsOf [] = [] from rfl, List.append_nil]
    exact h₀
  · intro es c e c' _ hc hstep
    rw [eventsOf_append, ← List.append_assoc]
    exact b.holds_step hstep hc

/-! ## A wait ends with an event of its own -/

/-- The call subscribed at `start`, and has sent its command. -/
def SubscribedAt (c₀ : Command) (es : List Step) (session : Option String) (start : ℕ) : Prop :=
  ∃ xs ys c, es = xs ++ ys ∧ Run.run b.step c₀ xs = some c ∧ c.events.tail = start ∧
    c.stage = .sending session (some start) ∧ (session = none ↔ b.tab = none)

theorem SubscribedAt.snoc {b : CdpBuilder} {c₀ : Command} {es : List Step} {session : Option String} {start : ℕ}
    (h : b.SubscribedAt c₀ es session start) (e : Step) : b.SubscribedAt c₀ (es ++ [e]) session start := by
  obtain ⟨xs, ys, c, rfl, hrest⟩ := h
  exact ⟨xs, ys ++ [e], c, List.append_assoc .., hrest⟩

/-- An event of the call's own came after it had subscribed and sent its command. -/
def SawEvent (c₀ : Command) (es : List Step) (event : String) : Prop :=
  ∃ xs ys c session ev, es = xs ++ ys ∧ Run.run b.step c₀ xs = some c ∧
    c.stage = .sending session (some c.events.tail) ∧ (session = none ↔ b.tab = none) ∧
    Step.event ev ∈ ys ∧ awaits event session ev = true

theorem SawEvent.snoc {b : CdpBuilder} {c₀ : Command} {es : List Step} {event : String}
    (h : b.SawEvent c₀ es event) (e : Step) : b.SawEvent c₀ (es ++ [e]) event := by
  obtain ⟨xs, ys, c, session, ev, rfl, hrun, hstage, htab, hmem, hev⟩ := h
  exact ⟨xs, ys ++ [e], c, session, ev, List.append_assoc .., hrun, hstage, htab,
    List.mem_append_left _ hmem, hev⟩

/-- What each stage knows of the run before it. -/
def Knows (c₀ : Command) (es : List Step) (c : Command) : Prop :=
  match c.stage with
  | .connecting => True
  | .attaching => b.tab ≠ none
  | .sending session events =>
    match events with
    | none => b.wait = none
    | some events => b.SubscribedAt c₀ es session events
  | .waiting session event events _ =>
    b.wait = some event ∧ ∃ start, start ≤ events ∧ b.SubscribedAt c₀ es session start
  | .detaching outcome | .done outcome =>
    ∀ result event, outcome = .ok result → b.wait = some event → b.SawEvent c₀ es event

theorem Knows.mono {b : CdpBuilder} {c₀ c c' : Command} {es : List Step} (hk : b.Knows c₀ es c)
    (hstage : c'.stage = c.stage) (e : Step) : b.Knows c₀ (es ++ [e]) c' := by
  unfold Knows at hk ⊢
  rw [hstage]
  cases hc : c.stage with
  | connecting => trivial
  | attaching =>
    rw [hc] at hk
    exact hk
  | sending session events =>
    rw [hc] at hk
    cases events with
    | none => exact hk
    | some events => exact hk.snoc e
  | waiting session event events result =>
    rw [hc] at hk
    obtain ⟨hwait, start, hle, hsub⟩ := hk
    exact ⟨hwait, start, hle, hsub.snoc e⟩
  | detaching outcome =>
    rw [hc] at hk
    exact fun result event ho hwait => (hk result event ho hwait).snoc e
  | done outcome =>
    rw [hc] at hk
    exact fun result event ho hwait => (hk result event ho hwait).snoc e

theorem knows_ended {c₀ c : Command} {es : List Step} {outcome : Except Error Json} (h : Ended c outcome)
    (hok : ∀ result event, outcome = .ok result → b.wait = some event → b.SawEvent c₀ es event) :
    b.Knows c₀ es c := by
  unfold Knows
  rcases h with h | h
  · rw [h]
    exact hok
  · rw [h]
    exact hok

/-- What is read past the subscription came after it. -/
theorem SubscribedAt.saw {b : CdpBuilder} {c₀ : Command} {past : List CdpEvent}
    (h₀ : Holds eventsCap c₀.events past) {es : List Step} {session : Option String} {start k : ℕ}
    (h : b.SubscribedAt c₀ es session start) (hk : start ≤ k) {ev : CdpEvent} {event : String}
    (hget : (past ++ eventsOf es)[k]? = some ev) (hev : awaits event session ev = true) :
    b.SawEvent c₀ es event := by
  obtain ⟨xs, ys, c, rfl, hrun, htail, hstage, htab⟩ := h
  have hlen : (past ++ eventsOf xs).length ≤ k := by
    rw [← (b.holds_run h₀ hrun).tail, htail]
    exact hk
  rw [eventsOf_append, ← List.append_assoc, List.getElem?_append_right hlen] at hget
  have hmem : Step.event ev ∈ ys := mem_eventsOf.mp (List.mem_of_getElem? hget)
  exact ⟨xs, ys, c, session, ev, rfl, hrun, by rw [htail]; exact hstage, htab, hmem, hev⟩

theorem knows_step {c₀ c c' : Command} {past : List CdpEvent} (h₀ : Holds eventsCap c₀.events past)
    {es : List Step} {e : Step} (hrun : Run.run b.step c₀ es = some c) (hk : b.Knows c₀ es c)
    (hstep : b.step c e = some c') : b.Knows c₀ (es ++ [e]) c' := by
  have hholds := b.holds_run h₀ hrun
  have hrun' : Run.run b.step c₀ (es ++ [e]) = some c' := by
    rw [Run.run_append, hrun, Option.bind_some, Run.run_cons, hstep, Option.bind_some, Run.run_nil]
  rcases b.step_cases hstep with ⟨ev, -, hc'⟩ | ⟨-, hc'⟩ | ⟨hother, hevents, hmove⟩
  · exact hk.mono (by rw [hc']) e
  · exact hk.mono (by rw [hc']) e
  cases hmove with
  | start session h hfrom =>
    have htab : session = none ↔ b.tab = none := by
      rcases hfrom with ⟨-, htab, hsession⟩ | ⟨hattaching, hsession⟩
      · simp [htab, hsession]
      · have : b.tab ≠ none := by
          unfold Knows at hk
          rw [hattaching] at hk
          exact hk
        simp [this, hsession]
    have hstage : c'.stage = .sending session (b.wait.map fun _ => c.events.tail) := by rw [h]; rfl
    unfold Knows
    rw [hstage]
    cases hwait : b.wait with
    | none => exact rfl
    | some event =>
      refine ⟨es ++ [e], [], c', (List.append_nil _).symm, hrun', by rw [hevents], ?_, htab⟩
      rw [hstage, hwait]
      rfl
  | attach tab hfrom htab h =>
    unfold Knows
    rw [h]
    exact htab ▸ Option.some_ne_none tab
  | reply session event events result hwait hfrom h =>
    unfold Knows at hk ⊢
    rw [hfrom] at hk
    rw [h]
    exact ⟨hwait, events, le_rfl, hk.snoc e⟩
  | skip session event events next result hfrom h hrecv =>
    have hnext : events ≤ next := by
      have hle := hholds.le_recv events
      rcases hrecv with ⟨ev, hrecv, -⟩ | ⟨n, hrecv⟩
      · rwa [hrecv] at hle
      · rwa [hrecv] at hle
    unfold Knows at hk ⊢
    rw [hfrom] at hk
    rw [h]
    obtain ⟨hwait, start, hle, hsub⟩ := hk
    exact ⟨hwait, start, hle.trans hnext, hsub.snoc e⟩
  | found session event events next result ev hfrom h hrecv hev =>
    unfold Knows at hk
    rw [hfrom] at hk
    obtain ⟨hwait, start, hle, hsub⟩ := hk
    have hsaw := (hsub.saw h₀ hle (hholds.recv_value hrecv).1 hev).snoc e
    refine b.knows_ended (h ▸ finish_ended ..) fun result' event' _ hwait' => ?_
    rw [hwait, Option.some_inj] at hwait'
    rw [← hwait']
    exact hsaw
  | fail e' hfrom h => exact b.knows_ended (ended_done h) fun result event ho => by cases ho
  | cut session e' hfrom h => exact b.knows_ended (h ▸ finish_ended ..) fun result event ho => by cases ho
  | plain session events result hfrom hwait h =>
    refine b.knows_ended (h ▸ finish_ended ..) fun result' event _ hevent => ?_
    rcases hwait with hwait | rfl
    · rw [hwait] at hevent
      cases hevent
    · unfold Knows at hk
      rw [hfrom] at hk
      rw [hk] at hevent
      cases hevent
  | detached outcome hfrom h =>
    unfold Knows at hk
    rw [hfrom] at hk
    exact b.knows_ended (ended_done h) fun result event ho hwait => (hk result event ho hwait).snoc e

/-- How many events the call's receiver has before it. -/
def unread (c : Command) : ℕ :=
  match c.stage with
  | .sending _ (some events) => c.events.tail - events
  | .waiting _ _ events _ => c.events.tail - events
  | _ => 0

/-- What was read since the subscription was not what the call waits for. -/
def Reads (session : Option String) (start : ℕ) (all : List CdpEvent) (c : Command) : Prop :=
  c.stage = .sending session (some start) ∨
    (∃ event events result, c.stage = .waiting session event events result ∧ b.wait = some event ∧
      events ≤ all.length ∧
      ∀ k ev, start ≤ k → k < events → all[k]? = some ev → awaits event session ev = false) ∨
    ∃ outcome, Ended c outcome

theorem reads_step {c c' : Command} {e : Step} {session : Option String} {start : ℕ} {all : List CdpEvent}
    (hc : Holds eventsCap c.events all) (hstart : start ≤ all.length) (hr : b.Reads session start all c)
    (hcap : unread c ≤ eventsCap) (hstep : b.step c e = some c') :
    b.Reads session start (all ++ eventsOf [e]) c' := by
  have hsame : c'.stage = c.stage → b.Reads session start (all ++ eventsOf [e]) c' := by
    intro hstage
    rcases hr with h | ⟨event, events, result, h, hwait, hle, hskip⟩ | ⟨outcome, h⟩
    · exact .inl (hstage.trans h)
    · refine .inr (.inl ⟨event, events, result, hstage.trans h, hwait, ?_, fun k ev hk hlt hget => ?_⟩)
      · rw [List.length_append]
        omega
      · rw [List.getElem?_append_left (by omega)] at hget
        exact hskip k ev hk hlt hget
    · refine .inr (.inr ⟨outcome, ?_⟩)
      unfold Ended
      rw [hstage]
      exact h
  rcases b.step_cases hstep with ⟨ev, -, hc'⟩ | ⟨-, hc'⟩ | ⟨hother, hevents, hmove⟩
  · exact hsame (by rw [hc'])
  · exact hsame (by rw [hc'])
  rw [eventsOf_other hother, List.append_nil]
  -- the stages that a call under way is not in
  have hunder : c.stage ≠ .connecting ∧ c.stage ≠ .attaching := by
    rcases hr with h | ⟨event, events, result, h, -⟩ | ⟨outcome, h | h⟩ <;> rw [h] <;> simp
  cases hmove with
  | start session' h hfrom =>
    rcases hfrom with ⟨hconnecting, -⟩ | ⟨hattaching, -⟩
    · exact absurd hconnecting hunder.1
    · exact absurd hattaching hunder.2
  | attach tab hfrom => exact absurd hfrom hunder.1
  | reply session' event events result hwait hfrom h =>
    rcases hr with hr | ⟨event', events', result', hr, -⟩ | ⟨outcome, hr | hr⟩
    · rw [hr] at hfrom
      cases hfrom
      exact .inr (.inl ⟨event, start, result, by rw [h], hwait, hstart, fun k ev hk hlt => by omega⟩)
    all_goals rw [hr] at hfrom; cases hfrom
  | skip session' event events next result hfrom h hrecv =>
    rcases hr with hr | ⟨event', events', result', hr, hwait, hle, hskip⟩ | ⟨outcome, hr | hr⟩
    · rw [hr] at hfrom
      cases hfrom
    · rw [hr] at hfrom
      cases hfrom
      have hbound : all.length ≤ events + eventsCap := by
        unfold unread at hcap
        rw [hr] at hcap
        dsimp only at hcap
        rw [hc.tail] at hcap
        omega
      rcases hrecv with ⟨ev, hrecv, hev⟩ | ⟨n, hrecv⟩
      · obtain ⟨hget, rfl⟩ := hc.recv_value hrecv
        have hlt : events < all.length := (List.getElem?_eq_some_iff.mp hget).1
        refine .inr (.inl ⟨event, events + 1, result, by rw [h], hwait, hlt, fun k ev' hk hle' hget' => ?_⟩)
        rcases Nat.lt_succ_iff_lt_or_eq.mp hle' with hle' | rfl
        · exact hskip k ev' hk hle' hget'
        · rw [hget, Option.some_inj] at hget'
          rw [← hget']
          exact hev
      · exact absurd (hc.recv_lagged hrecv) (by omega)
    all_goals rw [hr] at hfrom; cases hfrom
  | found session' event events next result ev hfrom h hrecv hev => exact .inr (.inr ⟨_, h ▸ finish_ended ..⟩)
  | fail e' hfrom h => exact .inr (.inr ⟨_, ended_done h⟩)
  | cut session' e' hfrom h => exact .inr (.inr ⟨_, h ▸ finish_ended ..⟩)
  | plain session' events result hfrom hwait h => exact .inr (.inr ⟨_, h ▸ finish_ended ..⟩)
  | detached outcome hfrom h => exact .inr (.inr ⟨outcome, ended_done h⟩)

/-- The loop reads on to the first event that the call waits for. -/
theorem poll_found {all : List CdpEvent} {session : Option String} {event : String} {result : Json}
    {k : ℕ} {ev : CdpEvent} (hget : all[k]? = some ev) (hev : awaits event session ev = true) :
    ∀ (d : ℕ) (c : Command) (events : ℕ), Holds eventsCap c.events all →
      c.stage = .waiting session event events result → all.length ≤ events + eventsCap → events + d = k →
      ∃ n c', n ≤ d + 1 ∧ Run.run b.step c (List.replicate n .recv) = some c' ∧ Ended c' (.ok result) := by
  have hlt : k < all.length := (List.getElem?_eq_some_iff.mp hget).1
  intro d
  induction d with
  | zero =>
    intro c events hc hstage hcap hk
    obtain rfl : events = k := by omega
    have hrecv := hc.recv_of_lt hlt hcap
    rw [List.getElem?_eq_getElem hlt, Option.some_inj] at hget
    refine ⟨1, finish session (.ok result) c, le_rfl, ?_, finish_ended ..⟩
    have hstep : b.step c .recv = some (finish session (.ok result) c) := by
      simp only [step]
      rw [hstage]
      dsimp only
      rw [hrecv, hget]
      exact if_pos hev
    rw [List.replicate_one, Run.run_cons, hstep, Option.bind_some, Run.run_nil]
  | succ d ih =>
    intro c events hc hstage hcap hk
    have hlt : events < all.length := by omega
    have hrecv := hc.recv_of_lt hlt hcap
    by_cases hnow : awaits event session all[events] = true
    · refine ⟨1, finish session (.ok result) c, by omega, ?_, finish_ended ..⟩
      have hstep : b.step c .recv = some (finish session (.ok result) c) := by
        simp only [step]
        rw [hstage]
        dsimp only
        rw [hrecv]
        exact if_pos hnow
      rw [List.replicate_one, Run.run_cons, hstep, Option.bind_some, Run.run_nil]
    · have hstep : b.step c .recv = some { c with stage := .waiting session event (events + 1) result } := by
        simp only [step]
        rw [hstage]
        dsimp only
        rw [hrecv]
        exact if_neg hnow
      obtain ⟨n, c', hn, hrun, hend⟩ := ih { c with stage := .waiting session event (events + 1) result }
        (events + 1) hc rfl (by omega) (by omega)
      refine ⟨n + 1, c', by omega, ?_, hend⟩
      rw [List.replicate_succ, Run.run_cons, hstep, Option.bind_some]
      exact hrun

/-- **A wait finds its event.**  If at most 256 events are ever unread, and one that the call waits
for came after it had subscribed, then the loop ends with the reply after at most 256 turns, even if
the event came before the reply did. -/
theorem wait_finds_event {events : Channel CdpEvent} {past : List CdpEvent} (h₀ : Holds eventsCap events past)
    {xs ys : List Step} {c₁ c : Command} (h₁ : Run.run b.step (begin events) xs = some c₁)
    {session : Option String} (hsending : c₁.stage = .sending session (some c₁.events.tail))
    (h : Run.run b.step (begin events) (xs ++ ys) = some c)
    (hcap : Run.Always b.step (fun c => unread c ≤ eventsCap) (begin events) (xs ++ ys))
    {session' : Option String} {event : String} {rx : ℕ} {result : Json}
    (hwaiting : c.stage = .waiting session' event rx result)
    {ev : CdpEvent} (hmem : Step.event ev ∈ ys) (hev : awaits event session ev = true) :
    ∃ n c', n ≤ 256 ∧ Run.run b.step c (List.replicate n .recv) = some c' ∧ Ended c' (.ok result) := by
  have hbegan : Holds eventsCap (begin events).events past := h₀
  have hholds₁ := b.holds_run hbegan h₁
  have hholds := b.holds_run hbegan h
  have htail : c₁.events.tail = (past ++ eventsOf xs).length := hholds₁.tail
  have hrun : Run.run b.step c₁ ys = some c := by
    rw [Run.run_append, h₁, Option.bind_some] at h
    exact h
  -- what was read since the subscription, in every prefix of the run
  have hreads : ∀ zs c₂, zs <+: ys → Run.run b.step c₁ zs = some c₂ →
      b.Reads session c₁.events.tail (past ++ eventsOf (xs ++ zs)) c₂ := by
    intro zs
    induction zs using List.reverseRecOn with
    | nil =>
      intro c₂ _ h₂
      cases h₂
      exact .inl hsending
    | append_singleton zs e ih =>
      intro c₂ hzs h₂
      obtain ⟨c₃, h₃, hstep⟩ := Run.run_snoc b.step h₂
      have hprefix : zs <+: ys := (List.prefix_append zs [e]).trans hzs
      have h₃' : Run.run b.step (begin events) (xs ++ zs) = some c₃ := by
        rw [Run.run_append, h₁, Option.bind_some]
        exact h₃
      obtain ⟨rest, rfl⟩ := hprefix
      have hunread : unread c₃ ≤ eventsCap := hcap (xs ++ zs) rest c₃ (List.append_assoc ..).symm h₃'
      have hholds₃ := b.holds_run hbegan h₃'
      have hle : c₁.events.tail ≤ (past ++ eventsOf (xs ++ zs)).length := by
        simp only [htail, eventsOf_append, List.length_append]
        omega
      have hnext := b.reads_step hholds₃ hle (ih c₃ ⟨rest, rfl⟩ h₃) hunread hstep
      rw [← List.append_assoc xs zs [e], eventsOf_append (xs ++ zs) [e], ← List.append_assoc]
      exact hnext
  have hfinal := hreads ys c List.prefix_rfl hrun
  obtain ⟨k, hk⟩ := List.getElem?_of_mem (mem_eventsOf.mpr hmem)
  have hget : (past ++ eventsOf (xs ++ ys))[c₁.events.tail + k]? = some ev := by
    rw [eventsOf_append, ← List.append_assoc, htail, List.getElem?_append_right (by omega), Nat.add_sub_cancel_left]
    exact hk
  have hbound : (past ++ eventsOf (xs ++ ys)).length ≤ rx + eventsCap := by
    have hu : unread c ≤ eventsCap := hcap (xs ++ ys) [] c (List.append_nil _).symm h
    unfold unread at hu
    rw [hwaiting] at hu
    dsimp only at hu
    rw [hholds.tail] at hu
    omega
  have hlt := (List.getElem?_eq_some_iff.mp hget).1
  rcases hfinal with hr | ⟨event', events', result', hr, -, hle, hskip⟩ | ⟨outcome, hr | hr⟩
  · rw [hr] at hwaiting
    cases hwaiting
  · rw [hr] at hwaiting
    cases hwaiting
    -- the event is still before the receiver
    have hahead : rx ≤ c₁.events.tail + k := by
      by_contra hbehind
      have hfalse := hskip _ ev (Nat.le_add_right _ _) (by omega) hget
      rw [hev] at hfalse
      cases hfalse
    obtain ⟨n, c', hn, hpoll, hend⟩ :=
      b.poll_found hget hev (c₁.events.tail + k - rx) c rx hholds hr hbound (by omega)
    refine ⟨n, c', ?_, hpoll, hend⟩
    have hcap256 : eventsCap = 256 := rfl
    omega
  all_goals rw [hr] at hwaiting; cases hwaiting

theorem unread_le_tail (c : Command) : unread c ≤ c.events.tail := by
  unfold unread
  split
  · exact Nat.sub_le ..
  · exact Nat.sub_le ..
  · exact Nat.zero_le _

/-- A fresh connection never has more unread than it had steps. -/
theorem unread_le_steps {es : List Step} {c : Command} (h : Run.run b.step (begin .new) es = some c) :
    unread c ≤ es.length := by
  have hbegan : Holds eventsCap (begin .new).events [] := Holds.new
  have hholds := b.holds_run hbegan h
  calc unread c ≤ c.events.tail := unread_le_tail c
    _ = (eventsOf es).length := hholds.tail
    _ ≤ es.length := List.length_filterMap_le ..

theorem wait_finds_event_navigate :
    ∃ n c', n ≤ 256 ∧ Run.run navigateAndWait.step navigateWaiting (List.replicate n .recv) = some c' ∧
      Ended c' (.ok (.obj [])) := by
  have hcap : Run.Always navigateAndWait.step (fun c => unread c ≤ eventsCap) (begin .new)
      (navigateBegins ++ navigateGoesOn) := by
    intro xs ys c hes hrun
    have hlen := congrArg List.length hes
    rw [List.length_append, List.length_append] at hlen
    calc unread c ≤ xs.length := navigateAndWait.unread_le_steps hrun
      _ ≤ 5 := by rw [show navigateBegins.length + navigateGoesOn.length = 5 from rfl] at hlen; omega
      _ ≤ eventsCap := by decide
  have hmem : Step.event (loadEvent "S1") ∈ navigateGoesOn := List.mem_cons_of_mem _ (List.mem_cons_self ..)
  exact wait_finds_event navigateAndWait Holds.new navigate_sending rfl navigate_waiting hcap rfl hmem rfl

end CdpBuilder

end Afhttp.Cdp

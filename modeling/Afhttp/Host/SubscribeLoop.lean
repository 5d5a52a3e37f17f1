import Mathlib
import Afhttp.Lib.Run
import Afhttp.Host.RecentRequests

/-!
# One subscriber's loop

`subscribe_loop` of `host/listener/recent_requests.rs` on one browser connection.  Its
`while let Ok(ev)` takes a notice of skipped events for the end of the stream, so what the
connection delivers afterwards is not recorded.

    a push keeps the last records                                  (push_rtake)
    a loop that has ended leaves the ring as it is, for good       (ring_frozen)
    when the ring is up to date throughout                         (current_iff)
-/

namespace Afhttp.Host

/-! ## The loop -/

/-- What `rx.recv()` has for the subscriber, and the readers of the ring. -/
inductive SubscriberEvent where
  | event (method : String) (params : Json)
  /-- `RecvError::Lagged`. -/
  | lagged
  /-- `RecvError::Closed`. -/
  | closed
  | snapshot

/-- The loop and its ring.  `lagged` and `delivered`, the records of all request and response events
so far, are histories. -/
structure Subscriber where
  running : Bool
  closed : Bool
  ring : List RequestRecord
  lagged : Bool
  delivered : List RequestRecord

namespace Subscriber

def start : Subscriber := ⟨true, false, [], false, []⟩

/-- `RecentRequests::snapshot`. -/
def snapshot (s : Subscriber) : List RequestRecord := s.ring

def recordsOf (redactUrl : String → String) (browser : ℕ) (method : String) (params : Json) :
    List RequestRecord :=
  ((requestRecord redactUrl method params).map fun value => ⟨browser, value⟩).toList

def step (redactUrl : String → String) (cap browser : ℕ) (s : Subscriber) : SubscriberEvent → Option Subscriber
  | .event method params =>
    if s.closed then none
    else
      let records := recordsOf redactUrl browser method params
      some { s with
        ring := if s.running then records.foldl (push cap) s.ring else s.ring
        delivered := s.delivered ++ records }
  -- `while let Ok(ev)` ends at this error too
  | .lagged => if s.closed then none else some { s with running := false, lagged := true }
  | .closed => if s.closed then none else some { s with running := false, closed := true }
  | .snapshot => some s

/-- The ring is the last records of what was delivered. -/
def Current (cap : ℕ) (s : Subscriber) : Prop := s.snapshot = s.delivered.rtake cap

/-- After a lag notice, no record but one that the last records are full of already. -/
def KeepsUp (redactUrl : String → String) (cap browser : ℕ) (s : Subscriber) : SubscriberEvent → Prop
  | .event method params => s.lagged = true → ∀ record ∈ recordsOf redactUrl browser method params,
      s.delivered.rtake cap = List.replicate cap record
  | _ => True

/-! ## The last records -/

section
variable {α : Type*}

theorem rtake_of_length_le {l : List α} {n : ℕ} (h : l.length ≤ n) : l.rtake n = l := by
  rw [List.rtake, Nat.sub_eq_zero_of_le h, List.drop_zero]

theorem length_rtake (l : List α) (n : ℕ) : (l.rtake n).length = min n l.length := by
  rw [List.rtake, List.length_drop]
  omega

theorem rtake_succ_tail {l : List α} {n : ℕ} (h : n < l.length) : (l.rtake (n + 1)).tail = l.rtake n := by
  rw [List.rtake, List.rtake, List.tail_drop]
  congr 1
  omega

end

/-- **A push** onto the last records gives the last records. -/
theorem push_rtake {cap : ℕ} (hcap : 0 < cap) (delivered : List RequestRecord) (record : RequestRecord) :
    push cap (delivered.rtake cap) record = (delivered ++ [record]).rtake cap := by
  obtain ⟨n, rfl⟩ : ∃ n, cap = n + 1 := ⟨cap - 1, by omega⟩
  rw [push, if_neg (by omega), List.rtake_concat_succ, length_rtake]
  by_cases hfull : n < delivered.length
  · rw [if_pos (by omega), rtake_succ_tail hfull]
  · rw [if_neg (by omega), rtake_of_length_le (by omega), rtake_of_length_le (by omega)]

/-- A list that is its own tail with one element more is all that element. -/
theorem eq_replicate_of_snoc {α : Type*} {x v : α} {l : List α} (h : x :: l = l ++ [v]) :
    x :: l = List.replicate (l.length + 1) v := by
  induction l generalizing x with
  | nil => exact h
  | cons y l ih =>
    obtain ⟨rfl, htail⟩ := List.cons.inj h
    have hrest := ih htail
    obtain ⟨hxv, -⟩ := List.cons.inj (hrest.trans List.replicate_succ)
    rw [List.length_cons, List.replicate_succ, ← hrest, hxv]

/-- When one record more leaves the last records as they are. -/
theorem rtake_concat_eq_iff {cap : ℕ} (hcap : 0 < cap) (delivered : List RequestRecord)
    (record : RequestRecord) :
    delivered.rtake cap = (delivered ++ [record]).rtake cap ↔
      delivered.rtake cap = List.replicate cap record := by
  obtain ⟨n, rfl⟩ : ∃ n, cap = n + 1 := ⟨cap - 1, by omega⟩
  have hlength := length_rtake delivered (n + 1)
  rw [List.rtake_concat_succ]
  by_cases hfull : n < delivered.length
  · have htail := rtake_succ_tail hfull
    generalize delivered.rtake (n + 1) = last at *
    cases last with
    | nil =>
      rw [List.length_nil] at hlength
      omega
    | cons x rest =>
      have hrest : rest.length = n := by
        rw [List.length_cons] at hlength
        omega
      rw [← htail, List.tail_cons]
      constructor
      · intro h
        rw [eq_replicate_of_snoc h, hrest]
      · intro h
        rw [h, List.replicate_succ']
        obtain ⟨-, hrest'⟩ := List.cons.inj (h.trans List.replicate_succ)
        rw [hrest']
  · constructor
    · intro h
      have hlen := congrArg List.length h
      rw [List.length_append, length_rtake, length_rtake, List.length_singleton] at hlen
      omega
    · intro h
      have hlen := congrArg List.length h
      rw [length_rtake, List.length_replicate] at hlen
      omega

/-! ## Runs -/

variable {redactUrl : String → String} {cap browser : ℕ} {s s' : Subscriber} {e : SubscriberEvent}

/-- What a step does. -/
theorem step_cases (h : s.step redactUrl cap browser e = some s') :
    (∃ method params, e = .event method params ∧ s.closed = false ∧ s' = { s with
      ring := if s.running then (recordsOf redactUrl browser method params).foldl (push cap) s.ring else s.ring
      delivered := s.delivered ++ recordsOf redactUrl browser method params }) ∨
    (e = .lagged ∧ s' = { s with running := false, lagged := true }) ∨
    (e = .closed ∧ s' = { s with running := false, closed := true }) ∨
    (e = .snapshot ∧ s' = s) := by
  cases e with
  | event method params =>
    rw [step] at h
    split at h
    · cases h
    · next hopen => exact Or.inl ⟨method, params, rfl, Bool.eq_false_iff.mpr hopen, (Option.some.inj h).symm⟩
  | lagged =>
    rw [step] at h
    split at h
    · cases h
    · exact Or.inr (Or.inl ⟨rfl, (Option.some.inj h).symm⟩)
  | closed =>
    rw [step] at h
    split at h
    · cases h
    · exact Or.inr (Or.inr (Or.inl ⟨rfl, (Option.some.inj h).symm⟩))
  | snapshot => exact Or.inr (Or.inr (Or.inr ⟨rfl, (Option.some.inj h).symm⟩))

/-- The loop runs until the first lag notice, or the end. -/
def Followed (s : Subscriber) : Prop := s.running = (!s.lagged && !s.closed)

theorem Followed.step (hs : s.Followed) (h : s.step redactUrl cap browser e = some s') : s'.Followed := by
  rcases step_cases h with ⟨_, _, _, _, rfl⟩ | ⟨_, rfl⟩ | ⟨_, rfl⟩ | ⟨_, rfl⟩
  · exact hs
  · rfl
  · exact (Bool.and_false _).symm
  · exact hs

/-- **One step** keeps the ring up to date exactly if the loop keeps up with it. -/
theorem current_step (hcap : 0 < cap) (hs : s.Followed) (hc : s.Current cap)
    (h : s.step redactUrl cap browser e = some s') :
    s'.Current cap ↔ s.KeepsUp redactUrl cap browser e := by
  rcases step_cases h with ⟨method, params, rfl, hopen, rfl⟩ | ⟨rfl, rfl⟩ | ⟨rfl, rfl⟩ | ⟨rfl, rfl⟩
  · have hrunning : s.running = !s.lagged := by
      rw [hs, hopen, Bool.not_false, Bool.and_true]
    show (if s.running = true then _ else _) = (s.delivered ++ _).rtake cap ↔ (s.lagged = true → _)
    unfold recordsOf
    unfold Current snapshot at hc
    cases requestRecord redactUrl method params with
    | none => simp [hc]
    | some value =>
      rw [Option.map_some, Option.toList_some, List.foldl_cons, List.foldl_nil, hc, push_rtake hcap]
      cases hlagged : s.lagged with
      | false =>
        rw [hlagged, Bool.not_false] at hrunning
        rw [if_pos hrunning]
        exact ⟨fun _ h => absurd h (by simp), fun _ => rfl⟩
      | true =>
        rw [hlagged, Bool.not_true] at hrunning
        rw [if_neg (by rw [hrunning]; simp), rtake_concat_eq_iff hcap]
        simp
  · exact ⟨fun _ => trivial, fun _ => hc⟩
  · exact ⟨fun _ => trivial, fun _ => hc⟩
  · exact ⟨fun _ => trivial, fun _ => hc⟩

/-- **The ring is up to date throughout** exactly if, after a lag notice, the connection delivers no
request or response event but one whose record the last ones are full of already. -/
theorem current_iff (hcap : 0 < cap) {es : List SubscriberEvent}
    (hrun : Run.run (step redactUrl cap browser) start es = some s) :
    Run.Always (step redactUrl cap browser) (Current cap) start es ↔
      Run.RunMeets (step redactUrl cap browser) (KeepsUp redactUrl cap browser) start es := by
  have hfollowed : start.Followed := rfl
  have hcurrent : start.Current cap := (List.rtake_nil cap).symm
  exact Run.always_iff_runMeets _ hfollowed hcurrent (fun _ _ _ hs h => hs.step h)
    (fun _ _ _ hs hc h => current_step hcap hs hc h) hrun

/-- A burst, one request after it, and the next. -/
theorem current_iff_burst :
    0 < 2 ∧ (Run.Always (step id 2 7) (Current 2) start
        [.event "Network.requestWillBeSent" .null, .lagged, .event "Network.requestWillBeSent" .null] ↔
      Run.RunMeets (step id 2 7) (KeepsUp id 2 7) start
        [.event "Network.requestWillBeSent" .null, .lagged, .event "Network.requestWillBeSent" .null]) :=
  ⟨by decide, current_iff (by decide) rfl⟩

/-- A lag notice, and the request after it is not recorded. -/
theorem lag_stops_recording :
    ∃ s, Run.run (step id 1 0) start [.lagged, .event "Network.requestWillBeSent" .null] = some s ∧
      ¬s.Current 1 := by
  refine ⟨_, rfl, fun h => ?_⟩
  cases h

/-- **A loop that has ended** leaves the ring as it is, whatever the connection delivers. -/
theorem ring_frozen (hs : s.running = false) {es : List SubscriberEvent}
    (hrun : Run.run (step redactUrl cap browser) s es = some s') : s'.snapshot = s.snapshot := by
  have hboth : s'.running = false ∧ s'.ring = s.ring := by
    refine Run.run_invariant _ (I := fun t => t.running = false ∧ t.ring = s.ring) ⟨hs, rfl⟩ ?_ hrun
    intro t e t' ht h
    rcases step_cases h with ⟨method, params, _, _, rfl⟩ | ⟨_, rfl⟩ | ⟨_, rfl⟩ | ⟨_, rfl⟩
    · refine ⟨ht.1, ?_⟩
      show (if t.running = true then _ else t.ring) = s.ring
      rw [if_neg (by rw [ht.1]; simp), ht.2]
    · exact ⟨rfl, ht.2⟩
    · exact ⟨rfl, ht.2⟩
    · exact ht
  exact hboth.2

end Subscriber

end Afhttp.Host

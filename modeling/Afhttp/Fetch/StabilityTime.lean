import Afhttp.Fetch.ReadinessRuns

/-!
# Whether the stable window is real time

A sample is recorded at the instant its turn begins, and its metrics are measured some time later,
within the sample.  What a tracker counts between two turns is not what lies between the two
measurements.

    the flags of the outcome are the ones of the trackers                           (flags_follow)
    a flag that is reported stands for a window of equal measurements           (reported_stands)
    the window is real time, as far as the delays are covered      (stable_window_real_iff_covered)
-/

namespace Afhttp.Fetch

open Collect Window

/-! ## Measurements in time -/

/-- A turn of the loop, and how long after its start the metrics are measured. -/
structure Timed where
  turn : Iteration
  delay : ℕ

def Timed.instant (t : Timed) : ℕ := t.turn.now + t.delay

/-- Metrics are measured within the budget of the sample, and the next turn begins later. -/
structure TimingOk (cfg : WaitConfig) (ts : List Timed) : Prop where
  bounded : ∀ t ∈ ts, t.delay ≤ min (cfg.waitDeadline - t.turn.now) sampleTimeout
  ordered : ts.Pairwise fun t u => t.instant ≤ u.turn.now

/-- What the outcome says of the page, and of the target. -/
inductive Flag where
  | dom
  | text
  | targetDom
  | targetText
  deriving DecidableEq

def Flag.reported (outcome : WaitOutcome) : Flag → Bool
  | dom => outcome.domStable == some true
  | text => outcome.textStable == some true
  | targetDom => outcome.readiness.any fun r => r.targetDomStable
  | targetText => outcome.readiness.any fun r => r.targetTextStable

def Flag.key : Flag → PageMetrics → ℕ × ℕ
  | dom => PageMetrics.dom
  | text => PageMetrics.text
  | targetDom => PageMetrics.dom
  | targetText => PageMetrics.text

/-- What the flag's tracker is given. -/
def Flag.tracked (cfg : WaitConfig) : Flag → Iteration → Option PageMetrics
  | dom => bodyOf
  | text => bodyOf
  | targetDom => targetOf cfg
  | targetText => targetOf cfg

/-- What a turn measures: nothing without a sample, or when the sample fails. -/
def Flag.measured (cfg : WaitConfig) (flag : Flag) (it : Iteration) : Option (ℕ × ℕ) :=
  if cfg.waitDeadline ≤ it.now then none
  else
    match it.result with
    | .completed input _ =>
      let sample := takeSample cfg.assess input
      some (match flag with
        | dom => sample.body.dom
        | text => sample.body.text
        | targetDom => sample.target.dom
        | targetText => sample.target.text)
    | .failed _ => none
    | .timedOut => none

/-- The measurements of a run, the newest first. -/
def measurements (cfg : WaitConfig) (flag : Flag) (ts : List Timed) : List Timed :=
  ts.reverse.filter fun t => (flag.measured cfg t.turn).isSome

/-- The newest measurement and an earlier one are equal, and so is every one between, and they have
been taken as long apart as is asked. -/
def RealWindow (cfg : WaitConfig) (flag : Flag) (ts : List Timed) : Prop :=
  ∃ newest between older rest, measurements cfg flag ts = newest :: (between ++ older :: rest) ∧
    (∀ t ∈ between ++ [older], flag.measured cfg t.turn = flag.measured cfg newest.turn) ∧
    cfg.stableFor ≤ newest.instant - older.instant

/-- The first of the latest equal measurements is not later in its sample than the newest one in its
own, by more than the turns are longer apart than is asked. -/
def Covered (cfg : WaitConfig) (flag : Flag) (ts : List Timed) : Prop :=
  ∀ newest older, (measurements cfg flag ts).head? = some newest →
    oldest (fun t => flag.measured cfg t.turn) (measurements cfg flag ts) = some older →
    older.delay ≤ newest.delay + (newest.turn.now - older.turn.now - cfg.stableFor)

/-! ## The flags -/

/-- The outcome has what the trackers have found. -/
structure FlagsFollow (st : LoopState) : Prop where
  dom : st.outcome.domStable = some st.body.domStable
  text : st.outcome.textStable = some st.body.textStable
  target : ∀ r, st.outcome.readiness = some r →
    r.targetDomStable = st.target.domStable ∧ r.targetTextStable = st.target.textStable

section
variable {cfg : WaitConfig} {st : LoopState} {it : Iteration} {its : List Iteration}

theorem sampleOutcome_flags (cfg : WaitConfig) (st : LoopState) (now : ℕ) (sample : Sample) (quiet : QuietInput) :
    FlagsFollow ⟨st.body.observe sample.body cfg.stableFor now, nextTarget cfg now sample st,
      sampleOutcome cfg now sample quiet st⟩ where
  dom := rfl
  text := rfl
  target := by
    intro r hr
    cases hr
    exact ⟨rfl, rfl⟩

theorem forget_flags (now : ℕ) : FlagsFollow (forget now st) where
  dom := rfl
  text := rfl
  target := by
    intro r hr
    obtain ⟨before, -, rfl⟩ := Option.map_eq_some_iff.mp (show st.outcome.readiness.map _ = some r from hr)
    exact ⟨rfl, rfl⟩

theorem flags_follow {start : ℕ} (hrun : Run.run (loopStep cfg) (.start cfg start) its = some st) : FlagsFollow st := by
  refine Run.run_invariant (loopStep cfg) ⟨rfl, rfl, fun r hr => by cases hr⟩ ?_ hrun
  intro s e s' _ hstep
  obtain ⟨-, ⟨input, quiet, -, rfl⟩ | ⟨-, rfl⟩⟩ := loopStep_cases hstep
  · exact sampleOutcome_flags cfg s e.now _ quiet
  · exact forget_flags e.now

/-- A flag that the outcome has is one of a tracker that follows the turns. -/
theorem stands_of_reported {flag : Flag} (hflags : FlagsFollow st)
    (hbody : Follows bodyOf cfg.stableFor st.body its) (htarget : Follows (targetOf cfg) cfg.stableFor st.target its)
    (hrep : flag.reported st.outcome = true) : Stands (flag.tracked cfg) flag.key cfg.stableFor its := by
  cases flag with
  | dom =>
    unfold Flag.reported at hrep
    rw [hflags.dom, beq_iff_eq] at hrep
    exact hbody.dom.stable (Option.some.inj hrep)
  | text =>
    unfold Flag.reported at hrep
    rw [hflags.text, beq_iff_eq] at hrep
    exact hbody.text.stable (Option.some.inj hrep)
  | targetDom =>
    obtain ⟨r, hr, hstable⟩ := Option.any_eq_true _ _ |>.mp hrep
    exact htarget.dom.stable ((hflags.target r hr).1 ▸ hstable)
  | targetText =>
    obtain ⟨r, hr, hstable⟩ := Option.any_eq_true _ _ |>.mp hrep
    exact htarget.text.stable ((hflags.target r hr).2 ▸ hstable)

/-- A wait that times out reports what it has seen before. -/
theorem reported_timedOutReturn {flag : Flag} {outcome : WaitOutcome}
    (hrep : flag.reported (timedOutReturn cfg it outcome) = true) : flag.reported outcome = true := by
  cases hr : outcome.readiness with
  | none =>
    unfold Flag.reported timedOutReturn at hrep
    rw [hr] at hrep
    unfold Flag.reported
    cases flag with
    | dom => exact hrep
    | text => exact hrep
    | targetDom => cases hrep
    | targetText => cases hrep
  | some r =>
    unfold Flag.reported timedOutReturn at hrep
    rw [hr] at hrep
    unfold Flag.reported
    rw [hr]
    cases flag <;> exact hrep

/-- The turns of a run have all begun in time. -/
theorem loop_in_time {start : ℕ} (hrun : Run.run (loopStep cfg) (.start cfg start) its = some st) :
    ∀ e ∈ its, e.now < cfg.waitDeadline := by
  refine Run.run_history (loopStep cfg) (P := fun es _ => ∀ e ∈ es, e.now < cfg.waitDeadline) ?_ ?_ hrun
  · intro e he
    cases he
  · intro es s e s' _ h hstep e' he'
    obtain he' | he' := List.mem_append.mp he'
    · exact h e' he'
    · rw [List.mem_singleton.mp he']
      exact (loopStep_cases hstep).1

/-- **A flag that is reported** stands for a window that ends with the last turn, or with the one
before it when the last has measured nothing. -/
theorem reported_stands {flag : Flag} {start : ℕ} {outcome : WaitOutcome}
    (hrun : Run.run (loopStep cfg) (.start cfg start) its = some st) (hreturn : turn cfg st it = .returned outcome)
    (hrep : flag.reported outcome = true) :
    (flag.measured cfg it = none ∧ Stands (flag.tracked cfg) flag.key cfg.stableFor its) ∨
      (it.now < cfg.waitDeadline ∧ Stands (flag.tracked cfg) flag.key cfg.stableFor (its ++ [it])) := by
  have h := loop_follows hrun
  obtain ⟨hnone, rfl⟩ | ⟨input, quiet, hnow, hres, -, rfl⟩ := turn_returned hreturn
  · refine .inl ⟨?_, stands_of_reported (flags_follow hrun) h.body h.target (reported_timedOutReturn hrep)⟩
    unfold Flag.measured
    obtain hover | hres := hnone
    · rw [if_pos hover]
    · rw [hres]
      exact ite_self _
  · obtain ⟨hbody, htarget⟩ := follows_completed h hres
    have hflags := sampleOutcome_flags cfg st it.now (takeSample cfg.assess input) quiet
    refine .inr ⟨hnow, stands_of_reported hflags hbody htarget ?_⟩
    cases flag <;> exact hrep

end

/-! ## The window -/

section
variable {cfg : WaitConfig} {flag : Flag} {ts : List Timed} {t : Timed}

theorem bodyOf_eq_some {it : Iteration} {m : PageMetrics} (h : bodyOf it = some m) (cfg : WaitConfig) :
    ∃ input quiet, it.result = .completed input quiet ∧ (takeSample cfg.assess input).body = m := by
  unfold bodyOf at h
  split at h
  · next input quiet hres => exact ⟨input, quiet, hres, Option.some.inj h⟩
  · cases h
  · cases h

theorem targetOf_eq_some {it : Iteration} {m : PageMetrics} (h : targetOf cfg it = some m) :
    ∃ input quiet, it.result = .completed input quiet ∧ (takeSample cfg.assess input).target = m := by
  unfold targetOf at h
  split at h
  · next input quiet hres =>
    obtain ⟨-, hm⟩ := Option.ite_none_right_eq_some.mp h
    exact ⟨input, quiet, hres, Option.some.inj hm⟩
  · cases h
  · cases h

/-- What a tracker is given has been measured. -/
theorem measured_of_tracked {it : Iteration} {m : PageMetrics} (hnow : it.now < cfg.waitDeadline)
    (hm : flag.tracked cfg it = some m) : flag.measured cfg it = some (flag.key m) := by
  unfold Flag.measured
  rw [if_neg (not_le.mpr hnow)]
  cases flag with
  | dom =>
    obtain ⟨input, quiet, hres, rfl⟩ := bodyOf_eq_some hm cfg
    rw [hres]
    rfl
  | text =>
    obtain ⟨input, quiet, hres, rfl⟩ := bodyOf_eq_some hm cfg
    rw [hres]
    rfl
  | targetDom =>
    obtain ⟨input, quiet, hres, rfl⟩ := targetOf_eq_some hm
    rw [hres]
    rfl
  | targetText =>
    obtain ⟨input, quiet, hres, rfl⟩ := targetOf_eq_some hm
    rw [hres]
    rfl

/-- The latest measurements that are equal to the newest one. -/
def latest (cfg : WaitConfig) (flag : Flag) (ts : List Timed) : List Timed :=
  window (fun t => flag.measured cfg t.turn) (measurements cfg flag ts)

/-- The latest measurements are at least two, and their turns span the stable window. -/
def Recorded (cfg : WaitConfig) (flag : Flag) (ts : List Timed) : Prop :=
  2 ≤ (latest cfg flag ts).length ∧ ∃ newest older, (measurements cfg flag ts).head? = some newest ∧
    older ∈ latest cfg flag ts ∧ cfg.stableFor ≤ newest.turn.now - older.turn.now

theorem measurements_snoc_of_none (h : flag.measured cfg t.turn = none) :
    measurements cfg flag (ts ++ [t]) = measurements cfg flag ts := by
  unfold measurements
  rw [List.reverse_concat, List.filter_cons_of_neg (by rw [h]; exact Bool.false_ne_true)]

/-- Every turn of a tracker's window has measured what the newest one has. -/
theorem measured_of_mem_window (hnow : ∀ u ∈ ts, u.turn.now < cfg.waitDeadline) {newest u : Timed} {m : PageMetrics}
    (hhead : ts.reverse.head? = some newest) (hm : flag.tracked cfg newest.turn = some m)
    (hu : u ∈ window (fun v : Timed => keyOf (flag.tracked cfg) flag.key v.turn) ts.reverse) :
    flag.measured cfg u.turn = some (flag.key m) := by
  have hkey : (flag.tracked cfg u.turn).map flag.key = (flag.tracked cfg newest.turn).map flag.key :=
    key_of_head? (fun v : Timed => keyOf (flag.tracked cfg) flag.key v.turn) hhead hu
  rw [hm, Option.map_some] at hkey
  obtain ⟨m', hm', hsame⟩ := Option.map_eq_some_iff.mp hkey
  have hmem : u ∈ ts := List.mem_reverse.mp ((window_isPrefix _ ts.reverse).subset hu)
  rw [measured_of_tracked (hnow u hmem) hm', hsame]

/-- The window of a tracker is within the latest measurements. -/
theorem recorded_of_stands (hnow : ∀ u ∈ ts, u.turn.now < cfg.waitDeadline)
    (h : Stands (flag.tracked cfg) flag.key cfg.stableFor (ts.map Timed.turn)) : Recorded cfg flag ts := by
  obtain ⟨newest, older, hlast, hsome, ho, hlen, hspan⟩ := h
  obtain ⟨m, hm⟩ := Option.isSome_iff_exists.mp hsome
  let keyT : Timed → Option (ℕ × ℕ) := fun u => keyOf (flag.tracked cfg) flag.key u.turn
  let w := window keyT ts.reverse
  have hw : window (keyOf (flag.tracked cfg) flag.key) (ts.map Timed.turn).reverse = w.map Timed.turn := by
    rw [← List.map_reverse, window_map]
  unfold oldest at ho
  rw [hw] at hlen ho
  rw [List.length_map] at hlen
  rw [List.getLast?_map] at ho
  obtain ⟨o, hoT, rfl⟩ := Option.map_eq_some_iff.mp ho
  rw [List.getLast?_map] at hlast
  obtain ⟨n, hn, rfl⟩ := Option.map_eq_some_iff.mp hlast
  have hhead : ts.reverse.head? = some n := by
    rw [List.head?_reverse]
    exact hn
  have hequal : ∀ u ∈ w, flag.measured cfg u.turn = some (flag.key m) :=
    fun u hu => measured_of_mem_window hnow hhead hm hu
  have hfilter : w.filter (fun u => (flag.measured cfg u.turn).isSome) = w := by
    refine List.filter_eq_self.mpr fun u hu => ?_
    rw [hequal u hu, Option.isSome_some]
  have hmeasured : w <+: measurements cfg flag ts := by
    rw [← hfilter]
    exact (window_isPrefix keyT ts.reverse).filter _
  have hlatest : w <+: latest cfg flag ts :=
    prefix_window _ hmeasured fun u hu v hv => by rw [hequal u hu, hequal v hv]
  have hwhead : w.head? = some n := by rw [head?_window, hhead]
  refine ⟨hlen.trans hlatest.length_le, n, o, ?_, hlatest.subset (List.mem_of_getLast? hoT), hspan⟩
  obtain ⟨rest, hrest⟩ := hmeasured
  rw [← hrest, List.head?_append, hwhead]
  rfl

theorem recorded_of_reported {start : ℕ} {st : LoopState} {outcome : WaitOutcome}
    (hrun : Run.run (loopStep cfg) (.start cfg start) (ts.map Timed.turn) = some st)
    (hreturn : Fetch.turn cfg st t.turn = .returned outcome) (hrep : flag.reported outcome = true) :
    Recorded cfg flag (ts ++ [t]) := by
  have hnow : ∀ u ∈ ts, u.turn.now < cfg.waitDeadline := fun u hu =>
    loop_in_time hrun u.turn (List.mem_map_of_mem hu)
  obtain ⟨hnone, hstands⟩ | ⟨hlast, hstands⟩ := reported_stands hrun hreturn hrep
  · have h := recorded_of_stands hnow hstands
    unfold Recorded latest at h ⊢
    rw [measurements_snoc_of_none hnone]
    exact h
  · refine recorded_of_stands ?_ ?_
    · intro u hu
      obtain hu | hu := List.mem_append.mp hu
      · exact hnow u hu
      · rw [List.mem_singleton.mp hu]
        exact hlast
    · rw [List.map_append]
      exact hstands

/-! ## Real time -/

/-- Of two measurements the earlier one has been taken before the turn of the later one. -/
theorem measurements_ordered (h : TimingOk cfg ts) :
    (measurements cfg flag ts).Pairwise fun u v => v.instant ≤ u.turn.now := by
  have hrev : ts.reverse.Pairwise fun u v => v.instant ≤ u.turn.now := List.pairwise_reverse.mpr h.ordered
  exact hrev.filter _

/-- No measurement of the latest ones is earlier than their last. -/
theorem oldest_le (h : TimingOk cfg ts) {older u : Timed} (ho : (latest cfg flag ts).getLast? = some older)
    (hu : u ∈ latest cfg flag ts) : u = older ∨ older.instant ≤ u.turn.now := by
  have hsub : (latest cfg flag ts).Sublist (measurements cfg flag ts) := (window_isPrefix _ _).sublist
  have hordered := (measurements_ordered h).sublist hsub
  obtain ⟨front, hfront⟩ := List.getLast?_eq_some_iff.mp ho
  rw [hfront, List.pairwise_append] at hordered
  rw [hfront] at hu
  obtain hu | hu := List.mem_append.mp hu
  · exact .inr (hordered.2.2 u hu older (List.mem_singleton.mpr rfl))
  · exact .inl (List.mem_singleton.mp hu)

theorem real_of_covered (hrec : Recorded cfg flag ts) (htiming : TimingOk cfg ts) (h : Covered cfg flag ts) :
    RealWindow cfg flag ts := by
  obtain ⟨hlen, newest, older, hhead, holder, hspan⟩ := hrec
  obtain ⟨rest, hrest⟩ : latest cfg flag ts <+: measurements cfg flag ts := window_isPrefix _ _
  -- the latest measurements are the newest one, some more, and the oldest of them
  obtain ⟨between, o, hlatest⟩ : ∃ between o, latest cfg flag ts = newest :: (between ++ [o]) := by
    have hheadL : (latest cfg flag ts).head? = some newest := (head?_window _ _).trans hhead
    cases hl : latest cfg flag ts with
    | nil =>
      rw [hl] at hlen
      cases hlen
    | cons a l =>
      rw [hl] at hheadL hlen
      cases hheadL
      obtain rfl | ⟨between, o, rfl⟩ := List.eq_nil_or_concat l
      · have hone : 2 ≤ 1 := hlen
        omega
      · exact ⟨between, o, by rw [List.concat_eq_append]⟩
  have holdest : (latest cfg flag ts).getLast? = some o := by
    rw [hlatest, ← List.cons_append]
    exact List.getLast?_concat
  have hspan' : cfg.stableFor ≤ newest.turn.now - o.turn.now := by
    obtain rfl | hle := oldest_le htiming holdest holder
    · exact hspan
    · unfold Timed.instant at hle
      omega
  refine ⟨newest, between, o, rest, ?_, fun u hu => ?_, ?_⟩
  · rw [← hrest, hlatest, List.cons_append, List.append_assoc]
    rfl
  · have hmem : u ∈ latest cfg flag ts := by
      rw [hlatest]
      exact List.mem_cons_of_mem _ hu
    exact key_of_head? (fun v : Timed => flag.measured cfg v.turn) hhead hmem
  · have hc := h newest o hhead holdest
    unfold Timed.instant
    omega

theorem covered_of_real (hrec : Recorded cfg flag ts) (htiming : TimingOk cfg ts) (h : RealWindow cfg flag ts) :
    Covered cfg flag ts := by
  intro newest' o hhead holdest
  obtain ⟨-, newest'', recorded, hhead', hrecorded, hspan⟩ := hrec
  obtain ⟨newest, between, older, rest, hm, hequal, hreal⟩ := h
  obtain rfl : newest'' = newest' := Option.some.inj (hhead'.symm.trans hhead)
  obtain rfl : newest = newest'' := by
    rw [hm] at hhead
    exact Option.some.inj hhead
  have hpre : newest :: (between ++ [older]) <+: measurements cfg flag ts := by
    rw [hm]
    exact ⟨rest, by rw [List.cons_append, List.append_assoc]; rfl⟩
  have hkeys : ∀ u ∈ newest :: (between ++ [older]), flag.measured cfg u.turn = flag.measured cfg newest.turn := by
    intro u hu
    obtain rfl | hu := List.mem_cons.mp hu
    · rfl
    · exact hequal u hu
  have hlatest : newest :: (between ++ [older]) <+: latest cfg flag ts :=
    prefix_window _ hpre fun u hu v hv => by rw [hkeys u hu, hkeys v hv]
  have holder : older ∈ latest cfg flag ts :=
    hlatest.subset (List.mem_cons_of_mem _ (List.mem_append_right _ (List.mem_singleton.mpr rfl)))
  have hfirst : o.turn.now ≤ recorded.turn.now := by
    obtain rfl | hle := oldest_le htiming holdest hrecorded
    · exact le_rfl
    · exact (Nat.le_add_right _ _).trans hle
  have hinstant : o.instant ≤ older.instant := by
    obtain rfl | hle := oldest_le htiming holdest holder
    · exact le_rfl
    · exact hle.trans (Nat.le_add_right _ _)
  have hnewest : o.instant ≤ newest.instant := by
    obtain rfl | hle := oldest_le htiming holdest (hlatest.subset List.mem_cons_self)
    · exact le_rfl
    · exact hle.trans (Nat.le_add_right _ _)
  unfold Timed.instant at hreal hinstant hnewest
  omega

/-- **A stable page** is one that has measured the same for the stable window exactly when the delays of
its first and its newest measurement are covered by what the turns are longer apart. -/
theorem stable_window_real_iff_covered {start : ℕ} {st : LoopState} {outcome : WaitOutcome}
    (htiming : TimingOk cfg (ts ++ [t]))
    (hrun : Run.run (loopStep cfg) (.start cfg start) (ts.map Timed.turn) = some st)
    (hreturn : Fetch.turn cfg st t.turn = .returned outcome) (hrep : flag.reported outcome = true) :
    RealWindow cfg flag (ts ++ [t]) ↔ Covered cfg flag (ts ++ [t]) :=
  have hrec : Recorded cfg flag (ts ++ [t]) := recorded_of_reported hrun hreturn hrep
  ⟨covered_of_real hrec htiming, real_of_covered hrec htiming⟩

end

/-! ## Two runs -/

def Turn.reports (flag : Flag) : Turn → Bool
  | .returned outcome => flag.reported outcome
  | .goOn _ => false
  | .invalidArgument => false

theorem Turn.reports_eq_true {flag : Flag} {turn : Turn} (h : turn.reports flag = true) :
    ∃ outcome, turn = .returned outcome ∧ flag.reported outcome = true := by
  cases turn with
  | returned outcome => exact ⟨outcome, rfl, h⟩
  | goOn st => cases h
  | invalidArgument => cases h

/-- The window is half a second, as it is by default. -/
def halfSecond : WaitConfig := ⟨.auto, 800, 500, 5000, fun parts => parts.length⟩

theorem stable_window_real_evenly : RealWindow halfSecond .dom ([⟨sampleTurn 0, 30⟩] ++ [⟨sampleTurn 600, 20⟩]) := by
  have hrun : (Run.run (loopStep halfSecond) (.start halfSecond 0) [sampleTurn 0]).map
      (fun st => (turn halfSecond st (sampleTurn 600)).reports .dom) = some true := by
    decide
  obtain ⟨st, hst, hrep⟩ := Option.map_eq_some_iff.mp hrun
  obtain ⟨outcome, hturn, hrep⟩ := Turn.reports_eq_true hrep
  have htiming : TimingOk halfSecond ([⟨sampleTurn 0, 30⟩] ++ [⟨sampleTurn 600, 20⟩]) := ⟨by decide, by decide⟩
  refine (stable_window_real_iff_covered htiming hst hturn hrep).mpr ?_
  intro newest older hnewest holder
  cases (show newest = ⟨sampleTurn 600, 20⟩ from (Option.some.inj hnewest).symm)
  cases (show older = ⟨sampleTurn 0, 30⟩ from (Option.some.inj holder).symm)
  decide

/-- The first sample measures late and the second at once: the page is reported to be stable, and
has been seen for a tenth of a second. -/
theorem late_measurement_counts :
    TimingOk halfSecond ([⟨sampleTurn 0, 400⟩] ++ [⟨sampleTurn 500, 0⟩]) ∧
    (∃ st outcome, Run.run (loopStep halfSecond) (.start halfSecond 0) [sampleTurn 0] = some st ∧
      turn halfSecond st (sampleTurn 500) = .returned outcome ∧ outcome.domStable = some true) ∧
    ∀ m ∈ measurements halfSecond .dom ([⟨sampleTurn 0, 400⟩] ++ [⟨sampleTurn 500, 0⟩]),
      ∀ m' ∈ measurements halfSecond .dom ([⟨sampleTurn 0, 400⟩] ++ [⟨sampleTurn 500, 0⟩]),
        m'.instant - m.instant < halfSecond.stableFor := by
  refine ⟨⟨by decide, by decide⟩, ?_, by decide⟩
  have hrun : (Run.run (loopStep halfSecond) (.start halfSecond 0) [sampleTurn 0]).map
      (fun st => (turn halfSecond st (sampleTurn 500)).reports .dom) = some true := by
    decide
  obtain ⟨st, hst, hrep⟩ := Option.map_eq_some_iff.mp hrun
  obtain ⟨outcome, hturn, hrep⟩ := Turn.reports_eq_true hrep
  exact ⟨st, outcome, hst, hturn, beq_iff_eq.mp hrep⟩

end Afhttp.Fetch

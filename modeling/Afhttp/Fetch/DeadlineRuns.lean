import Mathlib
import Afhttp.Fetch.DeadlineStages

/-!
# The stages over a whole fetch

What each step of the nested `run_result` calls does to the stack of stages and to the records, and in
which runs each call gets its own record when it ends.

    a call that ends with a result of its own                (finishStage_own)
    a call that ends with a timeout                          (balanced_timedOut)
    what each step does to the balance                       (balanced_step)
    when every call has its one record, made when it ends    (balanced_iff)
-/

namespace Afhttp.Fetch

/-! ## One step -/

namespace StageRun

variable {s s' : StageRun} {e : StageEvent}

/-- The stack of the calls outside, once a call has ended with a result of its own. -/
theorem finishStage_own {d : FetchDeadline} {c : StageCall} {outer : List StageCall} {ended : List EndedCall}
    (hactive : d.active = (ownStages (c :: outer) []).map StageCall.active)
    (hrecorded : d.stages.map TraceStage.timing = ended.map EndedCall.timing)
    (htoken : c.token.nested = repeatsParent c.token.name outer) (status : TraceStageStatus) :
    Balanced ⟨d.finishStage c.token status, outer, ended ++ (ownStages [c] outer).map (·.ended d.now)⟩ := by
  rw [ownStages_cons, ← htoken] at hactive
  rw [ownStages_singleton, ← htoken]
  cases hnested : c.token.nested with
  | true =>
    rw [hnested, if_pos rfl] at hactive
    refine ⟨?_, ?_⟩
    · show (d.finishStage c.token status).active = _
      rw [finishStage_nested hnested, hactive]
    · show (d.finishStage c.token status).stages.map _ = (ended ++ []).map _
      rw [finishStage_nested hnested, hrecorded, List.append_nil]
  | false =>
    rw [hnested, if_neg (by simp), List.map_cons] at hactive
    let named : ActiveStage → Bool := (·.name == c.token.name)
    have hname : named c.active = true := beq_self_eq_true c.token.name
    refine ⟨?_, ?_⟩
    · show (d.finishStage c.token status).active = _
      rw [finishStage_active hnested, hactive]
      exact List.eraseP_cons_of_pos hname
    · show (d.finishStage c.token status).stages.map _ = (ended ++ [c.ended d.now]).map _
      have hfind : (c.active :: (ownStages outer []).map StageCall.active).find? named = some c.active :=
        List.find?_cons_of_pos hname
      rw [finishStage_stages hnested, hactive, hfind, List.map_append, List.map_append, hrecorded]
      rfl

/-- The stack has as many stages as the calls have. -/
theorem Balanced.length_active (h : s.Balanced) : s.deadline.active.length = (ownStages s.calls []).length := by
  rw [h.running, List.length_map]

/-- A stage too few on the stack, while calls run. -/
theorem not_balanced_of_popped {d : FetchDeadline} {calls : List StageCall} {ended : List EndedCall}
    (hcalls : calls ≠ []) (hactive : d.active = ((ownStages calls []).map StageCall.active).tail) :
    ¬Balanced ⟨d, calls, ended⟩ := by
  intro hs
  have hpos := List.length_pos_of_ne_nil (ownStages_ne_nil hcalls)
  have hlength := hs.length_active
  change d.active.length = (ownStages calls []).length at hlength
  rw [hactive, List.length_tail, List.length_map] at hlength
  omega

/-- The recorder after `begin_stage`, with the call that it begins. -/
theorem beginStage_spec (hs : s.Balanced) (stage : String) :
    ∃ call d, s.deadline.beginStage stage = (call.token, d) ∧ call.begun = d.now ∧
      call.token = ⟨stage, repeatsParent stage s.calls⟩ ∧ d.expired = s.deadline.expired ∧
      d.now = s.deadline.now ∧ d.stages = s.deadline.stages ∧
      d.active = (ownStages (call :: s.calls) []).map StageCall.active := by
  have hbegin : s.deadline.beginStage stage = (⟨stage, repeatsParent stage s.calls⟩,
      if repeatsParent stage s.calls then s.deadline.setStage stage
      else { s.deadline.setStage stage with active := ⟨stage, s.deadline.now⟩ :: s.deadline.active }) := by
    rw [← beginStage_nested hs stage]
    rfl
  refine ⟨⟨⟨stage, repeatsParent stage s.calls⟩, s.deadline.now⟩, _, hbegin, ?_, rfl, ?_⟩
  · split <;> rfl
  · rw [ownStages_cons]
    cases hrepeats : repeatsParent stage s.calls with
    | true =>
      rw [if_pos rfl, if_pos rfl]
      exact ⟨rfl, rfl, rfl, hs.running⟩
    | false =>
      rw [if_neg (by simp), if_neg (by simp), List.map_cons, ← hs.running]
      exact ⟨rfl, rfl, rfl, rfl⟩

theorem balanced_begin {stage : String} (hs : s.Balanced) (h : s.step (.begin stage) = some s') :
    s'.Balanced ↔ s.KeepsBalance (.begin stage) := by
  obtain ⟨call, d, hbegin, hbegun, htoken, hexpired, hnow, hstages, hactive⟩ := beginStage_spec hs stage
  have hcall : (⟨call.token, d.now⟩ : StageCall) = call := by rw [← hbegun]
  rw [step, hbegin] at h
  dsimp only at h
  rw [hcall, FetchDeadline.remainingWithoutStageUpdate, hexpired] at h
  show _ ↔ (s.deadline.expired = true → repeatsParent stage s.calls = false)
  cases hlate : s.deadline.expired with
  | false =>
    rw [hlate, if_neg (by simp)] at h
    cases h
    refine ⟨fun _ h => absurd h (by simp), fun _ => ⟨hactive, ?_⟩⟩
    show d.stages.map _ = _
    rw [hstages, hs.recorded]
  | true =>
    rw [hlate, if_pos rfl] at h
    cases h
    rw [ownStages_cons, htoken] at hactive
    cases hrepeats : repeatsParent stage s.calls with
    | true =>
      have hpopped : ¬(s.leave (d.markCurrentStage .timeout) [call] s.calls).Balanced := by
        rw [hrepeats, if_pos rfl] at hactive
        obtain ⟨parent, others, hcalls, -⟩ := exists_parent hrepeats
        refine not_balanced_of_popped (by rw [hcalls]; exact List.cons_ne_nil _ _) ?_
        rw [markCurrentStage_active, hactive]
      exact ⟨fun hs' => absurd hs' hpopped, fun h => absurd (h rfl) (by simp)⟩
    | false =>
      refine ⟨fun _ _ => rfl, fun _ => ⟨?_, ?_⟩⟩
      · show (d.markCurrentStage .timeout).active = (ownStages s.calls []).map _
        rw [markCurrentStage_active, hactive, hrepeats]
        rfl
      · show (d.markCurrentStage .timeout).stages.map _ = (s.ended ++ (ownStages [call] s.calls).map _).map _
        rw [markCurrentStage_stages, hactive, hrepeats, ownStages_singleton, htoken, hrepeats, hstages,
          List.map_append, List.map_append, hs.recorded]
        congr 1
        show [((call.token.name, nanosMs (d.now - call.begun)) : String × ℕ)] = [(call.token.name, _)]
        rw [hnow]
        rfl

theorem balanced_wait {w : StageWait} (hs : s.Balanced) (h : s.step (.wait w) = some s') :
    s'.Balanced ↔ s.KeepsBalance (.wait w) := by
  cases h
  show _ ↔ (TimesOut s.deadline w → s.calls = [])
  by_cases hout : TimesOut s.deadline w
  · obtain ⟨e, d, hwait, hactive, hstages⟩ := wait_timesOut hout
    rw [hwait]
    constructor
    · intro hs' _
      by_contra hcalls
      rw [hs.running] at hactive
      exact not_balanced_of_popped hcalls hactive hs'
    · intro hcalls
      have hempty : s.deadline.active = [] := by rw [hs.running, hcalls hout]; rfl
      refine ⟨?_, ?_⟩
      · show d.active = (ownStages s.calls []).map _
        rw [hactive, hempty, hcalls hout]
        rfl
      · show d.stages.map _ = _
        rw [hstages, hempty, ← hs.recorded]
        exact congrArg (List.map TraceStage.timing) (List.append_nil _)
  · obtain ⟨left, d, hwait, -, hactive, hstages⟩ := wait_inTime hout
    rw [hwait]
    refine ⟨fun _ h => absurd h hout, fun _ => ⟨?_, ?_⟩⟩
    · show d.active = _
      rw [hactive, hs.running]
    · show d.stages.map _ = _
      rw [hstages, hs.recorded]

theorem TokensTell.innermost (ht : s.TokensTell) {c : StageCall} {outer : List StageCall}
    (hcalls : s.calls = c :: outer) : c.token.nested = repeatsParent c.token.name outer :=
  ht [] c outer hcalls

/-- A call that ends with a timeout: its stage is popped as the error is made, and looked for by name
when the call ends. -/
theorem balanced_timedOut {c : StageCall} {outer : List StageCall} {d : FetchDeadline} (hs : s.Balanced)
    (ht : s.TokensTell) (hcalls : s.calls = c :: outer) (hactive : d.active = s.deadline.active.tail)
    (hstages : d.stages =
      s.deadline.stages ++ s.deadline.active.head?.toList.map (s.deadline.traceStage .timeout))
    (status : TraceStageStatus) :
    (s.leave (d.finishStage c.token status) [c] outer).Balanced ↔ SoleName s.calls := by
  have htoken := ht.innermost hcalls
  have hrunning := hs.running
  rw [hcalls, ownStages_cons, ← htoken] at hrunning
  rw [hcalls]
  show _ ↔ repeatsParent c.token.name outer = false ∧ _
  rw [← htoken]
  cases hnested : c.token.nested with
  | true =>
    rw [hnested, if_pos rfl] at hrunning
    have hpopped : ¬(s.leave (d.finishStage c.token status) [c] outer).Balanced := by
      obtain ⟨parent, others, houter, -⟩ := exists_parent (htoken.symm.trans hnested)
      refine not_balanced_of_popped (by rw [houter]; exact List.cons_ne_nil _ _) ?_
      rw [finishStage_nested hnested, hactive, hrunning]
    exact ⟨fun hs' => absurd hs' hpopped, fun h => absurd h.1 (by simp)⟩
  | false =>
    rw [hnested, if_neg (by simp), List.map_cons] at hrunning
    rw [hrunning, List.tail_cons] at hactive
    constructor
    · intro hs'
      refine ⟨rfl, fun o ho hname => ?_⟩
      obtain ⟨o', ho', hname'⟩ := (mem_ownStages_names outer c.token.name).mpr ⟨o, ho, hname⟩
      have hmem : o'.active ∈ d.active := by
        rw [hactive]
        exact List.mem_map_of_mem ho'
      have herased : (d.active.eraseP (·.name == c.token.name)).length = d.active.length - 1 :=
        List.length_eraseP_of_mem hmem (beq_iff_eq.mpr hname')
      have hpos := List.length_pos_of_mem ho'
      have hlength := hs'.length_active
      change (d.finishStage c.token status).active.length = (ownStages outer []).length at hlength
      rw [finishStage_active hnested, herased, hactive, List.length_map] at hlength
      omega
    · rintro ⟨-, hothers⟩
      have hnone : ∀ a ∈ d.active, ¬(a.name == c.token.name) = true := by
        intro a ha hname
        rw [hactive] at ha
        obtain ⟨o, ho, rfl⟩ := List.mem_map.mp ha
        obtain ⟨o', ho', hname'⟩ := (mem_ownStages_names outer c.token.name).mp ⟨o, ho, beq_iff_eq.mp hname⟩
        exact hothers o' ho' hname'
      refine ⟨?_, ?_⟩
      · show (d.finishStage c.token status).active = (ownStages outer []).map _
        rw [finishStage_active hnested, List.eraseP_of_forall_not hnone, hactive]
      · show (d.finishStage c.token status).stages.map _ = (s.ended ++ (ownStages [c] outer).map _).map _
        rw [finishStage_stages hnested, List.find?_eq_none.mpr hnone, ownStages_singleton, ← htoken, hnested,
          hstages, hrunning, List.map_append, List.map_append, List.map_append, hs.recorded]
        exact List.append_nil _

theorem balanced_finish {last : Option StageWait} {result : Except ErrorCode Unit} (hs : s.Balanced)
    (ht : s.TokensTell) (h : s.step (.finish last result) = some s') :
    s'.Balanced ↔ s.KeepsBalance (.finish last result) := by
  rw [step] at h
  cases hcalls : s.calls with
  | nil =>
    rw [hcalls] at h
    cases h
  | cons c outer =>
    rw [hcalls] at h
    cases h
    have htoken := ht.innermost hcalls
    have hactive := hs.running
    rw [hcalls] at hactive
    cases last with
    | none =>
      exact ⟨fun _ => trivial, fun _ => finishStage_own hactive hs.recorded htoken (statusForResult result)⟩
    | some w =>
      show _ ↔ (TimesOut s.deadline w → SoleName s.calls)
      rw [Option.elim_some]
      by_cases hout : TimesOut s.deadline w
      · obtain ⟨e, d, hwait, hpopped, hstages⟩ := wait_timesOut hout
        rw [hwait, forall_prop_of_true hout]
        exact balanced_timedOut hs ht hcalls hpopped hstages (statusForResult result)
      · obtain ⟨left, d, hwait, hnow, hkept, hstages⟩ := wait_inTime hout
        rw [hwait]
        refine ⟨fun _ h => absurd h hout, fun _ => ?_⟩
        have hrecorded : d.stages.map TraceStage.timing = s.ended.map EndedCall.timing := by
          rw [hstages, hs.recorded]
        have hbalanced := finishStage_own (hkept.trans hactive) hrecorded htoken (statusForResult result)
        rw [hnow] at hbalanced
        exact hbalanced

theorem balanced_elapsed {inside : ℕ} (hs : s.Balanced) (ht : s.TokensTell)
    (h : s.step (.elapsed inside) = some s') : s'.Balanced ↔ s.KeepsBalance (.elapsed inside) := by
  rw [step] at h
  show _ ↔ ownStages (s.calls.take inside) (s.calls.drop inside) = []
  cases hdrop : s.calls.drop inside with
  | nil =>
    rw [hdrop] at h
    cases h
  | cons c outer =>
    rw [hdrop] at h
    dsimp only at h
    split at h
    · cases h
      generalize hinner : s.calls.take inside = inner
      have hcalls : s.calls = inner ++ c :: outer := by rw [← hinner, ← hdrop, List.take_append_drop]
      have htoken := ht inner c outer hcalls
      have hactive := hs.running
      rw [hcalls, ownStages_append, List.append_nil] at hactive
      constructor
      · intro hs'
        by_contra hown
        have hpos := List.length_pos_of_ne_nil hown
        have hfinish : s.deadline.active.length ≤ (s.deadline.finishStage c.token .timeout).active.length +
            if c.token.nested then 0 else 1 := length_finishStage_active
        have hlength := hs'.length_active
        change (s.deadline.finishStage c.token .timeout).active.length = (ownStages outer []).length at hlength
        rw [hlength, hactive, ownStages_cons, ← htoken, List.length_map, List.length_append] at hfinish
        cases hnested : c.token.nested with
        | true =>
          rw [hnested, if_pos rfl, if_pos rfl] at hfinish
          omega
        | false =>
          rw [hnested, if_neg (by simp), if_neg (by simp), List.length_cons] at hfinish
          omega
      · intro hown
        rw [hown, List.nil_append] at hactive
        have hbalanced := finishStage_own hactive hs.recorded htoken .timeout
        rw [leave, ownStages_append, List.singleton_append, hown, List.nil_append]
        exact hbalanced
    · cases h

theorem balanced_whole (hs : s.Balanced) (h : s.step .whole = some s') :
    s'.Balanced ↔ s.KeepsBalance .whole := by
  rw [step] at h
  split at h
  · cases h
    have hactive := hs.running
    have htail : s.deadline.timeoutError.2.active = s.deadline.active.tail := markCurrentStage_active
    have hstages : s.deadline.timeoutError.2.stages =
        s.deadline.stages ++ s.deadline.active.head?.toList.map (s.deadline.traceStage .timeout) :=
      markCurrentStage_stages
    constructor
    · intro hs'
      have hlength := hs'.length_active
      change s.deadline.timeoutError.2.active.length = 0 at hlength
      rw [htail, List.length_tail, hs.length_active] at hlength
      show (ownStages s.calls []).length ≤ 1
      omega
    · intro hone
      change (ownStages s.calls []).length ≤ 1 at hone
      refine ⟨?_, ?_⟩
      · show s.deadline.timeoutError.2.active = []
        rw [htail]
        apply List.eq_nil_of_length_eq_zero
        rw [List.length_tail, hs.length_active]
        omega
      · show s.deadline.timeoutError.2.stages.map _ = (s.ended ++ (ownStages s.calls []).map _).map _
        rw [hstages, List.map_append, List.map_append, hs.recorded, hactive]
        congr 1
        match ownStages s.calls [], hone with
        | [], _ => rfl
        | [c], _ => rfl
  · cases h

/-- **One step** keeps the balance exactly if the condition allows it. -/
theorem balanced_step (hs : s.Balanced) (ht : s.TokensTell) (h : s.step e = some s') :
    s'.Balanced ↔ s.KeepsBalance e := by
  cases e with
  | tick nanos =>
    cases h
    exact ⟨fun _ => trivial, fun _ => ⟨hs.running, hs.recorded⟩⟩
  | begin stage => exact balanced_begin hs h
  | wait w => exact balanced_wait hs h
  | finish last result => exact balanced_finish hs ht h
  | elapsed inside => exact balanced_elapsed hs ht h
  | whole => exact balanced_whole hs h

/-- The calls after a step: those that go on, and the one that began. -/
theorem step_calls (hs : s.Balanced) (h : s.step e = some s') :
    (∃ inner, s.calls = inner ++ s'.calls) ∨
    ∃ call, s'.calls = call :: s.calls ∧ call.token.nested = repeatsParent call.token.name s.calls := by
  cases e with
  | tick nanos =>
    cases h
    exact Or.inl ⟨[], rfl⟩
  | begin stage =>
    obtain ⟨call, d, hbegin, hbegun, htoken, -⟩ := beginStage_spec hs stage
    rw [step, hbegin] at h
    dsimp only at h
    split at h
    · cases h
      refine Or.inr ⟨_, rfl, ?_⟩
      show call.token.nested = repeatsParent call.token.name s.calls
      rw [htoken]
    · cases h
      exact Or.inl ⟨[], rfl⟩
  | wait w =>
    cases h
    exact Or.inl ⟨[], rfl⟩
  | finish last result =>
    rw [step] at h
    cases hcalls : s.calls with
    | nil =>
      rw [hcalls] at h
      cases h
    | cons c outer =>
      rw [hcalls] at h
      cases h
      exact Or.inl ⟨[c], rfl⟩
  | elapsed inside =>
    rw [step] at h
    cases hdrop : s.calls.drop inside with
    | nil =>
      rw [hdrop] at h
      cases h
    | cons c outer =>
      rw [hdrop] at h
      dsimp only at h
      split at h
      · cases h
        refine Or.inl ⟨s.calls.take inside ++ [c], ?_⟩
        show s.calls = s.calls.take inside ++ [c] ++ outer
        rw [List.append_assoc, List.singleton_append, ← hdrop, List.take_append_drop]
      · cases h
  | whole =>
    rw [step] at h
    split at h
    · cases h
      exact Or.inl ⟨s.calls, (List.append_nil _).symm⟩
    · cases h

theorem TokensTell.step (hs : s.Balanced) (ht : s.TokensTell) (h : s.step e = some s') : s'.TokensTell := by
  rcases step_calls hs h with ⟨left, hcalls⟩ | ⟨call, hcalls, hcall⟩
  · intro inner c outer hc
    exact ht (left ++ inner) c outer (by rw [hcalls, hc, List.append_assoc])
  · intro inner c outer hc
    rw [hcalls] at hc
    cases inner with
    | nil =>
      cases hc
      exact hcall
    | cons i inner =>
      obtain ⟨-, hrest⟩ := List.cons.inj hc
      exact ht inner c outer hrest

/-! ## Runs -/

/-- **One record for each call**, made when it ends, and every stage on the stack while its call runs:
exactly if no step meets the side effect of a timeout error where its call goes on, repeats its parent's
stage or shares its name, and no timer drops a stage. -/
theorem balanced_iff {now timeout : ℕ} {es : List StageEvent}
    (hrun : Run.run step (start now timeout) es = some s) :
    Run.Always step Balanced (start now timeout) es ↔
      Run.RunMeets step KeepsBalance (start now timeout) es := by
  have hstart : (start now timeout).Balanced := ⟨rfl, rfl⟩
  have htokens : (start now timeout).TokensTell := by
    intro inner c outer hcalls
    simp [start] at hcalls
  exact Run.always_iff_runMeets_while step htokens hstart (fun _ _ _ hs ht h => ht.step hs h)
    (fun _ _ _ ht hs h => balanced_step hs ht h) hrun

/-- A stage with one inside it, whose wait times out and is passed up through both. -/
def passedUpTwice : List StageEvent :=
  [.begin "capture_html", .begin "wait_ready", .tick 2000000,
    .finish (some (.remaining "wait_ready")) (.error .navigationTimeout),
    .finish none (.error .navigationTimeout)]

theorem balanced_iff_passedUpTwice :
    Run.Always step Balanced (start 0 1000000) passedUpTwice ↔
      Run.RunMeets step KeepsBalance (start 0 1000000) passedUpTwice :=
  balanced_iff rfl

/-- Two waits of the inner call time out and are swallowed: the second pops the stage of the outer call,
which still runs. -/
theorem timeouts_pop_outer :
    ∃ s, Run.run step (start 0 1000000) [.begin "capture_html", .begin "wait_ready", .tick 2000000,
        .wait (.remaining "wait_ready"), .wait (.remaining "wait_ready"), .finish none (.ok ())] = some s ∧
      s.calls.map (·.token.name) = ["capture_html"] ∧ s.deadline.active.length = 0 ∧ ¬s.Balanced := by
  refine ⟨_, rfl, rfl, rfl, fun h => ?_⟩
  exact absurd h.length_active (by decide)

end StageRun

end Afhttp.Fetch

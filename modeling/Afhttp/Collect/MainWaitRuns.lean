import Afhttp.Collect.MainWait

/-!
# Runs of the wait

Between its selection and its return a call relies on the main request that it has set: that is still
the pick (`Settled`), and its entry has got no answer of which the call is not told.

    a run whose steps are all MainKept → WaitMeets frame s                       (main_status_wait)
    a later page announced during the wait: the earlier one's entry is returned   (stale_main_returned)
-/

namespace Afhttp.Collect

open Text Fetch

/-- A selection would change nothing. -/
def Settled (frame : String) (order : List String) (t : RequestTable) : Prop :=
  (pickId frame order t).or t.main = t.main

section
variable {cfg : CollectorConfig} {frame : String} {order : List String} {t : RequestTable}

theorem Settled.mainEntry {inner : NetworkInner} (h : Settled frame order inner.table) :
    (selectMainDocument (inner.values order) frame inner).mainEntry = inner.mainEntry := by
  rw [selectMainDocument_eq]
  have hmain : (pickId frame order inner.table).or inner.mainRequestId = inner.mainRequestId := h
  rw [hmain]

theorem settled_select (inner : NetworkInner) :
    Settled frame order (selectMainDocument (inner.values order) frame inner).table := by
  rw [selectMainDocument_eq]
  show (pickId frame order inner.table).or ((pickId frame order inner.table).or inner.mainRequestId) =
    (pickId frame order inner.table).or inner.mainRequestId
  rw [← Option.or_assoc, Option.or_self]

theorem Settled.report (h : Settled frame order t) (r : Report) (params : Json) :
    Settled frame order (t.apply cfg (.report r params)) := by
  have hpick : pickId frame order (t.apply cfg (.report r params)) = pickId frame order t := by
    refine pickId_congr fun id _ => ?_
    show ((t.write (idOf params) (r.write cfg params)).entry id).bind _ = _
    rw [RequestTable.write_entry]
    cases t.entry id with
    | none => rfl
    | some entry =>
      show documentMark frame (if id = idOf params then r.write cfg params entry else entry) = documentMark frame entry
      split
      · exact documentMark_write cfg frame r params entry
      · rfl
  unfold Settled
  rw [hpick]
  exact h

/-! ## Announcements -/

/-- What the choice looks at after an accepted announcement. -/
theorem mark_accept {params : Json} {id id' : String} {start : ℕ}
    (h : ((t.accept cfg params).entry id).bind (documentMark frame) = some (start, id')) :
    newStart cfg frame t params id = some start := by
  obtain ⟨entry, hentry, hmark⟩ := Option.bind_eq_some_iff.mp h
  unfold newStart
  by_cases hid : id = idOf params
  · subst hid
    obtain ⟨origin, hself⟩ := t.accept_entry_self cfg params
    rw [hentry] at hself
    cases hself
    rw [if_pos rfl]
    exact congrArg (Option.map Prod.fst) hmark
  · rw [if_neg hid]
    obtain ⟨hself, -⟩ | ⟨-, redirect, hop, -, -, -, rfl⟩ | hold := t.accept_entry_cases cfg params hentry
    · exact absurd hself hid
    · obtain ⟨hroot, -⟩ := documentMark_eq_some.mp hmark
      unfold rootDocument at hroot
      rw [isRedirectHop_endedHop, Bool.not_true, Bool.and_false] at hroot
      cases hroot
    · rw [hold]
      exact congrArg (Option.map Prod.fst) hmark

/-- The main request's start after the announcement. -/
theorem mark_main {params : Json} {main : String} {start : ℕ} (hkeyed : Keyed t) (hat : t.hopAt params ≠ main)
    (h : newStart cfg frame t params main = some start) :
    ((t.accept cfg params).entry main).bind (documentMark frame) = some (start, main) := by
  obtain ⟨⟨start', id'⟩, hmark, rfl⟩ := Option.map_eq_some_iff.mp h
  by_cases hid : main = idOf params
  · subst hid
    rw [if_pos rfl] at hmark
    obtain ⟨origin, hself⟩ := t.accept_entry_self cfg params
    obtain ⟨hroot, hstart, -⟩ := documentMark_eq_some.mp hmark
    rw [hself]
    exact documentMark_eq_some.mpr ⟨hroot, hstart, rfl⟩
  · rw [if_neg hid] at hmark
    obtain ⟨entry, hentry, hmark⟩ := Option.bind_eq_some_iff.mp hmark
    obtain ⟨hroot, hstart, -⟩ := documentMark_eq_some.mp hmark
    rw [t.accept_entry_of_ne cfg params hid hat.symm, hentry]
    exact documentMark_eq_some.mpr ⟨hroot, hstart, hkeyed main entry hentry⟩

/-- The announcement leaves the choice with the main request. -/
theorem settled_accept {params : Json} {main : String} (hkeyed : Keyed t) (hmain : t.main = some main)
    (hat : t.hopAt params ≠ main) (horder : ∀ k, ((t.accept cfg params).entry k).isSome → k ∈ order)
    (hlatest : ∀ k start, k ≠ main → newStart cfg frame t params k = some start →
      ∃ start', newStart cfg frame t params main = some start' ∧ start < start') :
    Settled frame order (t.accept cfg params) := by
  unfold Settled
  rw [accept_main, hmain]
  cases hpick : pickId frame order (t.accept cfg params) with
  | none => rfl
  | some id =>
    obtain ⟨k, -, start, hmark, hmax⟩ := pickId_mem hpick
    have hid : k = id := by
      obtain ⟨entry, hentry, hm⟩ := Option.bind_eq_some_iff.mp hmark
      rw [← hkeyed.accept k entry hentry]
      exact (documentMark_eq_some.mp hm).2.2
    subst hid
    by_contra hne
    have hk : k ≠ main := fun heq => hne (by rw [heq]; rfl)
    obtain ⟨start', hstart', hlt⟩ := hlatest k start hk (mark_accept hmark)
    have hmm := mark_main hkeyed hat hstart'
    have hmem : main ∈ order := by
      obtain ⟨entry, hentry, -⟩ := Option.bind_eq_some_iff.mp hmm
      exact horder main (by rw [hentry]; rfl)
    have hle := hmax main hmem start' main hmm
    omega

/-- Where there is no main request there is no Document, and one that comes becomes the main one. -/
theorem settled_claim {params : Json} (hclaimed : Claimed t) (hmain : t.main = none) :
    Settled frame order ((t.claimMain cfg params).accept cfg params) := by
  unfold Settled
  rw [accept_main, claimMain_main, hmain]
  cases hpick : pickId frame order ((t.claimMain cfg params).accept cfg params) with
  | none => rw [Option.none_or]
  | some id =>
    obtain ⟨k, -, start, hmark, -⟩ := pickId_mem hpick
    obtain ⟨entry, hentry, hm⟩ := Option.bind_eq_some_iff.mp hmark
    obtain ⟨hroot, -, hid⟩ := documentMark_eq_some.mp hm
    have hdoc : entry.resourceType = "Document" := by
      unfold rootDocument at hroot
      rw [Bool.and_eq_true, Bool.and_eq_true, beq_iff_eq] at hroot
      exact hroot.1.1
    obtain ⟨hk, origin, rfl⟩ | ⟨-, redirect, hop, -, hhop, -, rfl⟩ | hold := RequestTable.accept_entry_cases _ _ _ hentry
    · have hisdoc : IsDocument cfg params := hdoc
      rw [if_pos ⟨hisdoc, rfl⟩]
      change some id = some (idOf params)
      rw [← hid]
      rfl
    · rw [RequestTable.claimMain_entry] at hhop
      exact absurd hdoc (hclaimed hmain _ hop hhop)
    · rw [RequestTable.claimMain_entry] at hold
      exact absurd hdoc (hclaimed hmain _ entry hold)

theorem claimMain_hopAt (params : Json) : (t.claimMain cfg params).hopAt params = t.hopAt params := by
  unfold RequestTable.hopAt
  rw [RequestTable.claimMain_hops]

theorem claimMain_of_some {params : Json} {main : String} (h : t.main = some main) : t.claimMain cfg params = t := by
  refine if_neg fun hc => ?_
  rw [h] at hc
  cases hc.2

end

/-! ## Answers and notifications -/

/-- The change touches the main document's entry. -/
def Touches (cfg : CollectorConfig) (t : RequestTable) : Change → Prop
  | .announce params => ¬t.Refuses cfg params ∧ (t.announce cfg params).main = some (idOf params)
  | .report r params => r ≠ .cached ∧ t.main = some (idOf params)
  | .choose _ => False
  | .keep => False

/-- The main document's entry has a status or a failure. -/
def MainAnswered (t : RequestTable) : Prop :=
  ∃ main entry, t.main = some main ∧ t.entry main = some entry ∧ entry.answered = true

theorem mainAnswered_iff (inner : NetworkInner) :
    inner.mainEntry.any NetworkEntry.answered = true ↔ MainAnswered inner.table := by
  unfold NetworkInner.mainEntry MainAnswered
  rw [Option.any_eq_true]
  constructor
  · rintro ⟨entry, hentry, hanswered⟩
    obtain ⟨main, hmain, hslot⟩ := Option.bind_eq_some_iff.mp hentry
    exact ⟨main, entry, hmain, hslot, hanswered⟩
  · rintro ⟨main, entry, hmain, hentry, hanswered⟩
    exact ⟨entry, Option.bind_eq_some_iff.mpr ⟨main, hmain, hentry⟩, hanswered⟩

section
variable {cfg : CollectorConfig} {t : RequestTable}

theorem requestWillBeSent_touched {params : Json} {inner : NetworkInner} {now : ℕ}
    (h : Touches cfg inner.table (.announce params)) :
    (requestWillBeSent cfg.lib cfg.redactHeaders now params inner).2 = true := by
  obtain ⟨hacc, hmain⟩ := h
  rw [← table_requestWillBeSent cfg params inner now] at hmain
  change (requestWillBeSent cfg.lib cfg.redactHeaders now params inner).1.mainRequestId = some (idOf params) at hmain
  unfold requestWillBeSent at hmain ⊢
  dsimp only at hmain ⊢
  rw [if_neg (fun h => hacc ((refuses_iff cfg params inner).mp h))] at hmain ⊢
  exact beq_iff_eq.mpr hmain

/-- The call is told of what touches the main document. -/
theorem handleEvent_touched {event : CdpEvent} {inner : NetworkInner} {now : ℕ}
    (h : Touches cfg inner.table (eventChange event)) :
    (handleEvent cfg.lib cfg.redactHeaders now event inner).2 = true := by
  rw [← table_touch now event inner] at h
  unfold eventChange reportOf at h
  unfold handleEvent
  dsimp only
  split_ifs at h ⊢
  · exact requestWillBeSent_touched h
  · exact beq_iff_eq.mpr h.2
  · exact beq_iff_eq.mpr h.2
  · exact beq_iff_eq.mpr h.2
  · exact absurd rfl h.1
  · exact h.elim

/-- An announcement that moves no main document answers only the request that it announces. -/
theorem touches_of_announce {params : Json} (hhop : ¬t.Refuses cfg params → ∀ main, t.main = some main →
      t.hopAt params ≠ main) (h : MainAnswered (t.announce cfg params)) :
    (¬t.Refuses cfg params ∧ (t.announce cfg params).main = some (idOf params)) ∨ MainAnswered t := by
  obtain ⟨main, entry, hmain, hentry, hanswered⟩ := h
  by_cases hacc : t.Refuses cfg params
  · unfold RequestTable.announce at hmain hentry
    rw [if_pos hacc] at hmain hentry
    exact .inr ⟨main, entry, hmain, hentry, hanswered⟩
  · by_cases hid : main = idOf params
    · subst hid
      exact .inl ⟨hacc, hmain⟩
    · right
      unfold RequestTable.announce at hmain hentry
      rw [if_neg hacc] at hmain hentry
      rw [accept_main, claimMain_main] at hmain
      split at hmain
      · exact absurd (Option.some.inj hmain).symm hid
      · rw [RequestTable.accept_entry_of_ne cfg params _ hid
          (by rw [claimMain_hopAt]; exact (hhop hacc main hmain).symm), RequestTable.claimMain_entry] at hentry
        exact ⟨main, entry, hmain, hentry, hanswered⟩

/-- An answer that an event brings touches the main document. -/
theorem touches_of_answered (event : CdpEvent)
    (hhop : ∀ params, eventChange event = .announce params → ¬t.Refuses cfg params → ∀ main, t.main = some main →
      t.hopAt params ≠ main)
    (h : MainAnswered (t.apply cfg (eventChange event))) : Touches cfg t (eventChange event) ∨ MainAnswered t := by
  cases hc : eventChange event with
  | announce params =>
    rw [hc] at h
    exact touches_of_announce (hhop params hc) h
  | report r params =>
    obtain ⟨main, entry, hmain, hentry, hanswered⟩ := h
    rw [hc] at hmain hentry
    change t.main = some main at hmain
    change (t.write (idOf params) (r.write cfg params)).entry main = some entry at hentry
    rw [RequestTable.write_entry] at hentry
    obtain ⟨old, hold, rfl⟩ := Option.map_eq_some_iff.mp hentry
    by_cases hid : main = idOf params
    · subst hid
      rw [if_pos rfl] at hanswered
      by_cases hr : r = .cached
      · subst hr
        exact .inr ⟨_, old, hmain, hold, hanswered⟩
      · exact .inl ⟨hr, hmain⟩
    · rw [if_neg hid] at hanswered
      exact .inr ⟨main, old, hmain, hold, hanswered⟩
  | choose id =>
    unfold eventChange at hc
    split at hc
    · cases hc
    · cases hr : reportOf event.method with
      | none =>
        rw [hr] at hc
        cases hc
      | some r =>
        rw [hr] at hc
        cases hc
  | keep =>
    rw [hc] at h
    exact .inr h

end

/-! ## The invariant -/

structure WaitInv (frame : String) (s : Wait) : Prop where
  keyed : Keyed s.inner.table
  claimed : Claimed s.inner.table
  order : s.order.Perm s.inner.slots.keys
  settled : s.phase.chosen = true → Settled frame s.order s.inner.table
  told : s.phase.awaits = true → MainAnswered s.inner.table → s.notified = true ∨ s.touched = true
  returned : ∀ entry, s.phase = .returned entry → entry = s.picked frame

theorem chosen_of_awaits {phase : Phase} (h : phase.awaits = true) : phase.chosen = true := by
  cases phase with
  | idle | registered | selected | expired | returned => cases h
  | unanswered | waiting => rfl

theorem WaitInv.meets {frame : String} {s : Wait} (h : WaitInv frame s) : WaitMeets frame s where
  returned := h.returned
  woken := by
    intro hphase htouched hanswered
    have hsettled : Settled frame s.order s.inner.table := h.settled (chosen_of_awaits hphase)
    unfold Wait.picked at hanswered
    rw [hsettled.mainEntry] at hanswered
    obtain hn | ht := h.told hphase ((mainAnswered_iff s.inner).mp hanswered)
    · exact hn
    · rw [htouched] at ht
      cases ht

section
variable {cfg : CollectorConfig} {frame : String} {s s' : Wait}

theorem mainStays_spec {inner : NetworkInner} {params : Json} {main : String}
    (h : mainStays cfg frame inner params main = true) :
    inner.table.hopAt params ≠ main ∧ ∀ k start, k ≠ main → newStart cfg frame inner.table params k = some start →
      ∃ start', newStart cfg frame inner.table params main = some start' ∧ start < start' := by
  unfold mainStays at h
  rw [Bool.and_eq_true, bne_iff_ne, List.all_eq_true] at h
  refine ⟨h.1, fun k start hk hstart => ?_⟩
  have hmem : k ∈ idOf params :: inner.slots.keys := by
    by_cases hid : k = idOf params
    · rw [hid]
      exact List.mem_cons_self
    · refine List.mem_cons_of_mem _ (mem_keys_of_entry ?_)
      unfold newStart at hstart
      rw [if_neg hid] at hstart
      obtain ⟨_, hmark, -⟩ := Option.map_eq_some_iff.mp hstart
      obtain ⟨entry, hentry, -⟩ := Option.bind_eq_some_iff.mp hmark
      exact Option.isSome_iff_exists.mpr ⟨entry, hentry⟩
  have hall := h.2 k hmem
  rw [Bool.or_eq_true, beq_iff_eq, hstart, Option.all_some, Option.any_eq_true] at hall
  obtain ⟨start', hstart', hlt⟩ := hall.resolve_left hk
  exact ⟨start', hstart', of_decide_eq_true hlt⟩

theorem announcement_event {event : CdpEvent} (h : event.sessionId = some cfg.sessionId) (now : ℕ) :
    (CollectorStep.event event now).announcement cfg = (eventChange event).announcement := by
  rw [← announcement_changeOf cfg .default]
  unfold changeOf
  dsimp only
  rw [if_pos h]

/-- An event of the session leaves the choice with the main request. -/
theorem settled_event {event : CdpEvent} {inner inner' : NetworkInner} {order order' : List String}
    (hsession : event.sessionId = some cfg.sessionId) (hkeyed : Keyed inner.table) (hclaimed : Claimed inner.table)
    (hsettled : Settled frame order inner.table) (htable : inner'.table = inner.table.apply cfg (eventChange event))
    (hperm : order'.Perm inner'.slots.keys) (hsame : putsIn cfg inner event = false → order' = order)
    (hkept : ∀ params ∈ (CollectorStep.event event 0).announcement cfg, ¬inner.table.Refuses cfg params →
      ∀ main ∈ inner.mainRequestId, mainStays cfg frame inner params main = true) :
    Settled frame order' inner'.table := by
  have hann := announcement_event hsession 0
  unfold putsIn at hsame
  rw [hann] at hsame hkept
  have hmem (k : String) (hk : (inner'.table.entry k).isSome) : k ∈ order' :=
    hperm.mem_iff.mpr (mem_keys_of_entry hk)
  rw [htable] at hmem ⊢
  cases hc : eventChange event with
  | announce params =>
    rw [hc] at hsame hkept hmem
    show Settled frame order' (inner.table.announce cfg params)
    change ∀ k, ((inner.table.announce cfg params).entry k).isSome → k ∈ order' at hmem
    unfold RequestTable.announce at hmem ⊢
    by_cases hacc : inner.table.Refuses cfg params
    · rw [hsame (by show (!decide (inner.table.Refuses cfg params)) = false; rw [decide_eq_true hacc]; rfl), if_pos hacc]
      exact hsettled
    · rw [if_neg hacc] at hmem ⊢
      cases hmain : inner.mainRequestId with
      | none => exact settled_claim hclaimed hmain
      | some main =>
        have hsome : inner.table.main = some main := hmain
        rw [claimMain_of_some hsome] at hmem ⊢
        obtain ⟨hat, hlatest⟩ := mainStays_spec (hkept params rfl hacc main hmain)
        exact settled_accept hkeyed hsome hat hmem hlatest
  | report r params =>
    rw [hc] at hsame
    rw [hsame rfl]
    exact hsettled.report r params
  | choose id =>
    unfold eventChange at hc
    split at hc
    · cases hc
    · cases hr : reportOf event.method with
      | none =>
        rw [hr] at hc
        cases hc
      | some r =>
        rw [hr] at hc
        cases hc
  | keep =>
    rw [hc] at hsame
    rw [hsame rfl]
    exact hsettled

theorem inv_event {event : CdpEvent} {now : ℕ} {order : List String} (h : WaitInv frame s)
    (hok : MainKept cfg frame s (.event event now order)) (hstep : waitStep cfg frame s (.event event now order) = some s') :
    WaitInv frame s' := by
  unfold waitStep at hstep
  split at hstep
  · cases hstep
  · next hover =>
    dsimp only at hstep
    split at hstep
    · next hguard =>
      obtain ⟨htouched, hperm, hsame⟩ := hguard
      cases hstep
      unfold onEvent at hperm ⊢
      by_cases hsession : event.sessionId = some cfg.sessionId
      · rw [if_pos hsession] at hperm ⊢
        have htable := table_handleEvent cfg event s.inner now
        refine ⟨?_, ?_, hperm, fun hchosen => ?_, fun hphase hanswered => ?_, fun entry hret => ?_⟩
        · rw [htable]
          exact h.keyed.apply _
        · rw [htable]
          exact h.claimed.apply _
        · exact settled_event hsession h.keyed h.claimed (h.settled hchosen) htable hperm hsame (hok hchosen)
        · change MainAnswered (handleEvent cfg.lib cfg.redactHeaders now event s.inner).1.table at hanswered
          rw [htable] at hanswered
          have hchosen : s.phase.chosen = true := chosen_of_awaits hphase
          have hhop (params : Json) (hc : eventChange event = .announce params) (hacc : ¬s.inner.table.Refuses cfg params)
              (main : String) (hmain : s.inner.table.main = some main) : s.inner.table.hopAt params ≠ main := by
            refine (mainStays_spec (hok hchosen params ?_ hacc main hmain)).1
            rw [announcement_event hsession 0, hc]
            rfl
          obtain htouch | hbefore := touches_of_answered event hhop hanswered
          · exact .inr (handleEvent_touched htouch)
          · obtain hn | ht := h.told hphase hbefore
            · exact .inl hn
            · rw [htouched] at ht
              cases ht
        · have hp : s.phase = .returned entry := hret
          rw [hp] at hover
          exact absurd rfl hover
      · rw [if_neg hsession] at hperm ⊢
        have hquiet : putsIn cfg s.inner event = false := by
          unfold putsIn CollectorStep.announcement
          dsimp only
          rw [if_neg fun hc => hsession hc.1]
          rfl
        have horder := hsame hquiet
        subst horder
        refine ⟨h.keyed, h.claimed, h.order, h.settled, fun hphase hanswered => ?_, h.returned⟩
        obtain hn | ht := h.told hphase hanswered
        · exact .inl hn
        · rw [htouched] at ht
          cases ht
    · cases hstep

theorem not_returned {phase : Phase} (h : phase.over = false) (entry : Option NetworkEntry) : phase ≠ .returned entry := by
  intro hp
  rw [hp] at h
  cases h

/-- A selection changes no slot. -/
theorem inv_select (h : WaitInv frame s) (mainFrameId : String) (phase : Phase)
    (hsettled : phase.chosen = true → mainFrameId = frame) (hover : phase.over = false)
    (hawaits : phase.awaits = false) :
    WaitInv frame { s with
      inner := selectMainDocument (s.inner.values s.order) mainFrameId s.inner
      phase := phase } where
  keyed := by
    rw [selectMainDocument_eq]
    exact h.keyed
  claimed := by
    rw [selectMainDocument_eq]
    intro hmain
    exact h.claimed (Option.or_eq_none_iff.mp hmain).2
  order := by
    rw [selectMainDocument_eq]
    exact h.order
  settled := fun hchosen => by
    rw [hsettled hchosen]
    exact settled_select s.inner
  told := fun hp => by
    rw [hawaits] at hp
    cases hp
  returned := fun entry hret => absurd hret (not_returned hover entry)

/-- A change of phase alone. -/
theorem inv_phase (h : WaitInv frame s) {phase : Phase} (notified : Bool)
    (hchosen : phase.chosen = true → s.phase.chosen = true) (hover : phase.over = false)
    (htold : phase.awaits = true → MainAnswered s.inner.table → notified = true ∨ s.touched = true) :
    WaitInv frame { s with phase := phase, notified := notified } where
  keyed := h.keyed
  claimed := h.claimed
  order := h.order
  settled := fun hc => h.settled (hchosen hc)
  told := htold
  returned := fun entry hret => absurd hret (not_returned hover entry)

/-- What the call returns, having settled, is picked. -/
theorem inv_return (h : WaitInv frame s) (hchosen : s.phase.chosen = true) :
    WaitInv frame { s with phase := .returned s.inner.mainEntry } where
  keyed := h.keyed
  claimed := h.claimed
  order := h.order
  settled := fun _ => h.settled hchosen
  told := fun hp => by cases hp
  returned := fun entry hret => by
    cases hret
    exact (h.settled hchosen).mainEntry.symm

/-- Every step keeps the invariant. -/
theorem inv_step {e : WaitEvent} (h : WaitInv frame s) (hok : MainKept cfg frame s e)
    (hstep : waitStep cfg frame s e = some s') : WaitInv frame s' := by
  have hover : s.phase.over = false := by
    unfold waitStep at hstep
    split at hstep
    · cases hstep
    · next hover => exact Bool.eq_false_of_not_eq_true hover
  cases e with
  | event event now order => exact inv_event h hok hstep
  | lagged count now =>
    simp only [waitStep, hover, Bool.false_eq_true, if_false] at hstep
    cases hstep
    exact ⟨h.keyed, h.claimed, h.order, h.settled, h.told, fun entry hret => absurd hret (not_returned hover entry)⟩
  | notifyWaiters =>
    simp only [waitStep, hover, Bool.false_eq_true, if_false] at hstep
    split at hstep
    · cases hstep
      exact ⟨h.keyed, h.claimed, h.order, h.settled, fun _ _ => .inl rfl,
        fun entry hret => absurd hret (not_returned hover entry)⟩
    · cases hstep
  | snapshot mainFrameId =>
    simp only [waitStep, hover, Bool.false_eq_true, if_false] at hstep
    split at hstep
    · next hp =>
      cases hstep
      refine inv_select h mainFrameId s.phase ?_ hover ?_
      · rw [hp]
        exact fun hc => by cases hc
      · rw [hp]
        rfl
    · cases hstep
  | call =>
    simp only [waitStep, hover, Bool.false_eq_true, if_false] at hstep
    split at hstep
    · cases hstep
      exact inv_phase h false (fun hc => by cases hc) rfl (fun hp => by cases hp)
    · cases hstep
  | select =>
    simp only [waitStep, hover, Bool.false_eq_true, if_false] at hstep
    split at hstep
    · cases hstep
      exact inv_select h frame _ (fun _ => rfl) rfl rfl
    · cases hstep
  | read =>
    simp only [waitStep, hover, Bool.false_eq_true, if_false] at hstep
    split at hstep
    · next hp =>
      have hchosen : s.phase.chosen = true := by rw [hp]; rfl
      split at hstep
      · cases hstep
        exact inv_return h hchosen
      · next hopen =>
        cases hstep
        refine inv_phase h s.notified (fun _ => hchosen) rfl fun _ hanswered => ?_
        exact absurd ((mainAnswered_iff s.inner).mpr hanswered) hopen
    · cases hstep
  | sleep =>
    simp only [waitStep, hover, Bool.false_eq_true, if_false] at hstep
    split at hstep
    · next hp =>
      cases hstep
      exact inv_phase h s.notified (fun _ => by rw [hp]; rfl) rfl fun _ => h.told (by rw [hp]; rfl)
    · cases hstep
  | zero =>
    simp only [waitStep, hover, Bool.false_eq_true, if_false] at hstep
    split at hstep
    · next hp =>
      cases hstep
      exact inv_phase h s.notified (fun _ => by rw [hp]; rfl) rfl (fun hp => by cases hp)
    · cases hstep
  | wake =>
    simp only [waitStep, hover, Bool.false_eq_true, if_false] at hstep
    split at hstep
    · split at hstep
      · cases hstep
        exact inv_phase h false (fun hc => by cases hc) rfl (fun hp => by cases hp)
      · cases hstep
    · cases hstep
  | expire =>
    simp only [waitStep, hover, Bool.false_eq_true, if_false] at hstep
    split at hstep
    · next hp =>
      split at hstep
      · cases hstep
      · cases hstep
        exact inv_phase h s.notified (fun _ => by rw [hp]; rfl) rfl (fun hp => by cases hp)
    · cases hstep
  | finish =>
    simp only [waitStep, hover, Bool.false_eq_true, if_false] at hstep
    split at hstep
    · next hp =>
      cases hstep
      exact inv_return h (by rw [hp]; rfl)
    · cases hstep

theorem inv_start : WaitInv frame .start := by
  have hempty : Wait.start.inner.table = .empty := table_default
  refine ⟨?_, ?_, List.Perm.refl _, (fun h => by cases h), (fun h => by cases h), fun entry h => ?_⟩
  · rw [hempty]
    exact fun _ _ h => by cases h
  · rw [hempty]
    exact fun _ _ _ h => by cases h
  · exact absurd h (not_returned rfl entry)

/-- **The wait does what it is for** in every run in which no announcement takes the choice from the
main request while a call relies on it. -/
theorem main_status_wait {es : List WaitEvent} (hrun : Run.run (waitStep cfg frame) .start es = some s)
    (hok : Run.RunMeets (waitStep cfg frame) (MainKept cfg frame) .start es) : WaitMeets frame s := by
  refine WaitInv.meets (Run.runMeets_invariant (waitStep cfg frame) inv_start ?_ hok hrun)
  intro s e s' h hkept hstep
  exact inv_step h hkept hstep

end

/-! ## Runs -/

/-- A page's Document, announced at this time. -/
def samplePage (id : String) (timestamp : ℕ) : CdpEvent :=
  ⟨"Network.requestWillBeSent", some "S",
    sampleParams id "Document" [("frameId", .str "F"), ("timestamp", .posInt timestamp)]⟩

def sampleResponse (id : String) : CdpEvent :=
  ⟨"Network.responseReceived", some "S", .obj [("requestId", .str id), ("response", .obj [("status", .posInt 200)])]⟩

/-- A page answers while the call waits for it. -/
def answeredRun : List WaitEvent :=
  [.event (samplePage "1" 1) 0 ["1"], .notifyWaiters, .call, .select, .read, .sleep, .event (sampleResponse "1") 0 ["1"],
    .notifyWaiters, .wake, .select, .read]

/-- Another page comes and answers while the call waits for the first one. -/
def replacedRun : List WaitEvent :=
  [.event (samplePage "1" 1) 0 ["1"], .notifyWaiters, .call, .select, .read, .sleep,
    .event (samplePage "2" 2) 0 ["1", "2"], .event (sampleResponse "2") 0 ["1", "2"], .expire, .finish]

/-- The request that the call has returned, if it has, and the one that is picked. -/
def Wait.outcome (s : Wait) : Option (Option String) × Option String :=
  (match s.phase with
    | .returned entry => some (entry.map NetworkEntry.requestId)
    | _ => none,
    (s.picked "F").map NetworkEntry.requestId)

theorem main_status_answered : ∃ s, Run.run (waitStep sampleConfig "F") .start answeredRun = some s ∧
    s.outcome = (some (some "1"), some "1") ∧ WaitMeets "F" s := by
  have hrun : (Run.run (waitStep sampleConfig "F") .start answeredRun).map Wait.outcome =
      some (some (some "1"), some "1") := by decide
  obtain ⟨s, hs, houtcome⟩ := Option.map_eq_some_iff.mp hrun
  exact ⟨s, hs, houtcome, main_status_wait hs (by decide)⟩

/-- The call is not woken by the second page, and at its end returns the first page's entry. -/
theorem stale_main_returned : ¬∀ cfg frame es s, Run.run (waitStep cfg frame) .start es = some s → WaitMeets frame s := by
  intro hall
  have hrun : (Run.run (waitStep sampleConfig "F") .start replacedRun).map Wait.outcome =
      some (some (some "1"), some "2") := by decide
  obtain ⟨s, hs, houtcome⟩ := Option.map_eq_some_iff.mp hrun
  have hmeets := (hall sampleConfig "F" replacedRun s hs).returned
  unfold Wait.outcome at houtcome
  cases hp : s.phase with
  | returned entry =>
    rw [hp, hmeets entry hp] at houtcome
    obtain ⟨hreturned, hpicked⟩ := Prod.mk.inj houtcome
    change some ((s.picked "F").map NetworkEntry.requestId) = some (some "1") at hreturned
    rw [hpicked] at hreturned
    exact absurd hreturned (by decide)
  | idle | registered | selected | unanswered | waiting | expired =>
    rw [hp] at houtcome
    exact absurd houtcome.symm (by simp)

end Afhttp.Collect
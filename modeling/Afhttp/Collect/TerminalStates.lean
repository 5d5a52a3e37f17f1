import Afhttp.Collect.NetworkBound

/-!
# Requests that have ended

An entry is finished, failed or unfinished.  The summary counts what the state says, but counts as
failed also an entry with a failure recorded, and no event looks at the state it writes over.

    finished + failed + in flight = all, if every failure is of a failed entry           (summary_exact)
    TerminalMeets cfg es ↔ every step of es is InOrder                             (terminal_meets_iff)
    a response after the failure reopens the request                           (late_response_reopens)
-/

namespace Afhttp.Collect

open Text Fetch

def NetworkEntryState.terminal (state : NetworkEntryState) : Bool := !state.unfinished

/-- What the summary counts an entry as: finished, failed, in flight. -/
def NetworkEntry.counts (entry : NetworkEntry) : List Bool :=
  [entry.state == .finished, entry.state == .failed || entry.failure.isSome, entry.state.unfinished]

def CountedOnce (entry : NetworkEntry) : Prop := entry.counts.count true = 1

theorem countedOnce_iff (entry : NetworkEntry) : CountedOnce entry ↔ (entry.failure.isSome → entry.state = .failed) := by
  unfold CountedOnce NetworkEntry.counts NetworkEntryState.unfinished
  cases entry.state <;> cases entry.failure.isSome <;> decide

/-! ## The summary -/

theorem pendingByResourceType_concat (entries : List NetworkEntry) (entry : NetworkEntry) :
    pendingByResourceType (entries ++ [entry]) =
      if entry.state.unfinished then (pendingByResourceType entries).insert entry.resourceType
        ((pendingByResourceType entries)[entry.resourceType]?.getD 0 + 1)
      else pendingByResourceType entries := by
  unfold pendingByResourceType
  rw [List.foldl_append]
  rfl

/-- The counts by type sum to the number of unfinished requests. -/
theorem inflightTotal_pending (entries : List NetworkEntry) :
    inflightTotal (pendingByResourceType entries) = entries.countP fun e => e.state.unfinished := by
  induction entries using List.reverseRecOn with
  | nil => rfl
  | append_singleton entries entry ih =>
    rw [List.countP_append, List.countP_singleton, ← ih, pendingByResourceType_concat]
    split
    · have hsum := sum_insert (pendingByResourceType entries) entry.resourceType
        ((pendingByResourceType entries)[entry.resourceType]?.getD 0 + 1)
      unfold inflightTotal
      omega
    · rfl

/-- Each entry is counted once, so the counts add up. -/
theorem counts_add_up (entries : List NetworkEntry) (h : ∀ e ∈ entries, CountedOnce e) :
    (entries.countP fun e => e.state == .finished) +
      (entries.countP fun e => e.state == .failed || e.failure.isSome) +
      (entries.countP fun e => e.state.unfinished) = entries.length := by
  induction entries with
  | nil => rfl
  | cons entry entries ih =>
    have hone := h entry List.mem_cons_self
    have hrest := ih fun e he => h e (List.mem_cons_of_mem _ he)
    have hbool (b : Bool) : List.count true [b] = if b then 1 else 0 := by cases b <;> rfl
    have hcounts : entry.counts = [entry.state == .finished] ++ [entry.state == .failed || entry.failure.isSome] ++
      [entry.state.unfinished] := rfl
    unfold CountedOnce at hone
    rw [hcounts, List.count_append, List.count_append, hbool, hbool, hbool] at hone
    rw [List.countP_cons, List.countP_cons, List.countP_cons, List.length_cons]
    omega

/-- In every log the counts partition the retained requests. -/
structure SummaryExact (inner : NetworkInner) : Prop where
  once : ∀ id entry, inner.entry id = some entry → CountedOnce entry
  sums : ∀ order redacted, order.Perm inner.slots.keys →
    let summary := (inner.finish (inner.values order) redacted).summary
    summary.requestsTotal = inner.slots.size ∧
      summary.finishedTotal + summary.failedTotal + summary.inflightTotalAtCapture = summary.requestsTotal ∧
      inflightTotal summary.pendingByResourceType = summary.inflightTotalAtCapture

theorem length_values {inner : NetworkInner} {order : List String} (h : order.Perm inner.slots.keys) :
    (inner.values order).length = inner.slots.size := by
  rw [← Std.ExtTreeMap.length_keys, ← h.length_eq]
  unfold NetworkInner.values
  rw [List.length_filterMap_eq_countP, List.countP_eq_length]
  intro id hid
  rw [Std.ExtTreeMap.isSome_getElem?_eq_contains]
  exact Std.ExtTreeMap.contains_iff_mem.mpr (Std.ExtTreeMap.mem_keys.mp (h.mem_iff.mp hid))

theorem summary_exact {inner : NetworkInner} (h : ∀ id entry, inner.entry id = some entry → CountedOnce entry) :
    SummaryExact inner := by
  refine ⟨h, fun order redacted horder => ?_⟩
  let entries := ((inner.values order).map NetworkSlot.entry).mergeSort fun a b => decide (a.requestId ≤ b.requestId)
  have hperm : entries.Perm ((inner.values order).map NetworkSlot.entry) := List.mergeSort_perm _ _
  have hlen : entries.length = inner.slots.size := by
    rw [hperm.length_eq, List.length_map, length_values horder]
  have honce : ∀ e ∈ entries, CountedOnce e := by
    intro e he
    obtain ⟨slot, hslot, rfl⟩ := List.mem_map.mp (hperm.mem_iff.mp he)
    obtain ⟨id, -, hid⟩ := List.mem_filterMap.mp hslot
    refine h id slot.entry ?_
    unfold NetworkInner.entry
    rw [hid]
    rfl
  refine ⟨hlen, ?_, rfl⟩
  show entries.countP _ + entries.countP _ + inflightTotal (pendingByResourceType entries) = entries.length
  rw [inflightTotal_pending]
  exact counts_add_up entries honce

/-! ## One change -/

section
variable (cfg : CollectorConfig)

/-- No response for a request that has ended, no end and no redirect for one that has failed. -/
def InOrderChange (t : RequestTable) : Change → Prop
  | .report .response params => ∀ entry, t.entry (idOf params) = some entry → entry.state.terminal = false
  | .report .finished params => ∀ entry, t.entry (idOf params) = some entry → entry.failure = none
  | .report .failed _ => True
  | .report .cached _ => True
  | .announce params => ∀ hop, idOf params ≠ "" → (params.get "redirectResponse").isSome →
      t.entry (idOf params) = some hop → t.size < networkEntryLimit → hop.failure = none
  | .choose _ => True
  | .keep => True

/-- Every failure is of a failed entry. -/
def FailuresFailed (t : RequestTable) : Prop :=
  ∀ id entry, t.entry id = some entry → entry.failure.isSome → entry.state = .failed

/-- A request that has ended has ended afterwards, unless it is announced anew. -/
def StaysEnded (t : RequestTable) (c : Change) (t' : RequestTable) : Prop :=
  ∀ id entry, t.entry id = some entry → entry.state.terminal = true →
    (∀ params, c.announcement = some params → idOf params ≠ id) →
    ∃ entry', t'.entry id = some entry' ∧ entry'.state.terminal = true

end

section
variable {cfg : CollectorConfig} {t : RequestTable}

/-- What a report leaves of an entry that may be in it. -/
theorem write_ended (r : Report) (params : Json) {entry : NetworkEntry} (h : FailuresFailed t)
    (hin : t.entry (idOf params) = some entry) (hc : InOrderChange t (.report r params)) :
    ((r.write cfg params entry).failure.isSome → (r.write cfg params entry).state = .failed) ∧
      (entry.state.terminal = true → (r.write cfg params entry).state.terminal = true) := by
  have hentry := h _ entry hin
  cases r with
  | response =>
    have hopen : entry.state.terminal = false := hc entry hin
    refine ⟨fun hf => ?_, fun ht => ?_⟩
    · rw [hentry hf] at hopen
      cases hopen
    · rw [hopen] at ht
      cases ht
  | finished =>
    refine ⟨fun hf => ?_, fun _ => rfl⟩
    change entry.failure.isSome at hf
    rw [hc entry hin] at hf
    cases hf
  | failed => exact ⟨fun _ => rfl, fun _ => rfl⟩
  | cached => exact ⟨hentry, id⟩

/-- The entries of an accepted announcement count once, if the hop that it ends has not failed. -/
theorem accept_failuresFailed {params : Json} (h : FailuresFailed t)
    (hhop : ∀ hop, (params.get "redirectResponse").isSome → t.entry (idOf params) = some hop →
      t.size < networkEntryLimit → hop.failure = none) : FailuresFailed (t.accept cfg params) := by
  intro k entry hentry hf
  obtain ⟨-, origin, rfl⟩ | ⟨-, redirect, hop, hr, hin, hroom, rfl⟩ | hold := t.accept_entry_cases cfg params hentry
  · cases hf
  · change hop.failure.isSome at hf
    rw [hhop hop (by rw [hr]; rfl) hin hroom] at hf
    cases hf
  · exact h k entry hold hf

theorem accept_staysEnded {params : Json} {id : String} {entry : NetworkEntry} (hin : t.entry id = some entry)
    (hended : entry.state.terminal = true) (hid : idOf params ≠ id) :
    ∃ entry', (t.accept cfg params).entry id = some entry' ∧ entry'.state.terminal = true := by
  have hsome : ((t.accept cfg params).entry id).isSome := RequestTable.isSome_accept (by rw [hin]; rfl)
  obtain ⟨entry', hentry'⟩ := Option.isSome_iff_exists.mp hsome
  refine ⟨entry', hentry', ?_⟩
  obtain ⟨heq, -⟩ | ⟨-, redirect, hop, -, -, -, rfl⟩ | hold := t.accept_entry_cases cfg params hentry'
  · exact absurd heq.symm hid
  · rfl
  · rw [hin] at hold
    cases hold
    exact hended

/-- A change in order keeps each entry counted once, and ended requests ended. -/
theorem inOrder_apply {c : Change} (h : FailuresFailed t) (hc : InOrderChange t c) :
    FailuresFailed (t.apply cfg c) ∧ StaysEnded t c (t.apply cfg c) := by
  cases c with
  | announce params =>
    show FailuresFailed (t.announce cfg params) ∧ StaysEnded t _ (t.announce cfg params)
    unfold RequestTable.announce
    split
    · exact ⟨h, fun id entry hin hended _ => ⟨entry, hin, hended⟩⟩
    · next hacc =>
      have hid := (RequestTable.not_refuses hacc).1
      refine ⟨accept_failuresFailed ?_ ?_, fun id entry hin hended hother => ?_⟩
      · intro k entry
        rw [RequestTable.claimMain_entry]
        exact h k entry
      · intro hop
        rw [RequestTable.claimMain_entry, RequestTable.claimMain_size]
        exact hc hop hid
      · exact accept_staysEnded (by rw [RequestTable.claimMain_entry]; exact hin) hended (hother params rfl)
  | report r params =>
    refine ⟨fun k entry hentry hf => ?_, fun k entry hin hended _ => ?_⟩
    · change (t.write (idOf params) (r.write cfg params)).entry k = some entry at hentry
      rw [RequestTable.write_entry] at hentry
      obtain ⟨old, hold, rfl⟩ := Option.map_eq_some_iff.mp hentry
      by_cases hk : k = idOf params
      · subst hk
        rw [if_pos rfl] at hf ⊢
        exact (write_ended r params h hold hc).1 hf
      · rw [if_neg hk] at hf ⊢
        exact h k old hold hf
    · show ∃ entry', (t.write (idOf params) (r.write cfg params)).entry k = some entry' ∧ _
      rw [RequestTable.write_entry, hin]
      refine ⟨_, rfl, ?_⟩
      dsimp only
      by_cases hk : k = idOf params
      · subst hk
        rw [if_pos rfl]
        exact (write_ended r params h hin hc).2 hended
      · rw [if_neg hk]
        exact hended
  | choose id => exact ⟨h, fun id entry hin hended _ => ⟨entry, hin, hended⟩⟩
  | keep => exact ⟨h, fun id entry hin hended _ => ⟨entry, hin, hended⟩⟩

/-- The entry of the hop that an announcement ends, where there is room for it. -/
theorem entry_endedHop {params redirect : Json} {hop : NetworkEntry} (hid : idOf params ≠ "")
    (hredirect : params.get "redirectResponse" = some redirect) (hin : t.entry (idOf params) = some hop)
    (hroom : t.size < networkEntryLimit) : (t.announce cfg params).entry ((t.claimMain cfg params).hopAt params) =
      some (endedHop cfg.lib cfg.redactHeaders params redirect ((t.claimMain cfg params).hopAt params) hop) := by
  have hacc : ¬t.Refuses cfg params := by
    rintro (hempty | ⟨hnone, -⟩)
    · exact hid hempty
    · rw [hin] at hnone
      cases hnone
  unfold RequestTable.announce
  rw [if_neg hacc]
  obtain ⟨hend, -⟩ | ⟨redirect', hop', hr', hin', ⟨hfull, -⟩ | ⟨-, hmove⟩⟩ :=
    (t.claimMain cfg params).accept_cases cfg params
  · unfold RequestTable.ending at hend
    rw [RequestTable.claimMain_entry, hredirect, hin] at hend
    cases hend
  · rw [RequestTable.claimMain_size] at hfull
    omega
  · rw [RequestTable.claimMain_entry, hin] at hin'
    rw [hredirect] at hr'
    cases hin'
    cases hr'
    rw [hmove]
    refine (RequestTable.put_entry_of_ne _ _ (hopId_ne _ _)).trans ?_
    exact RequestTable.put_entry_self _ _ _

/-- Only changes in order do. -/
theorem inOrder_of_apply {c : Change} (hnew : FailuresFailed (t.apply cfg c))
    (hended : StaysEnded t c (t.apply cfg c)) : InOrderChange t c := by
  cases c with
  | announce params =>
    intro hop hid hr hin hroom
    by_contra hf
    obtain ⟨redirect, hredirect⟩ := Option.isSome_iff_exists.mp hr
    have hmoved : (t.apply cfg (.announce params)).entry _ = _ := entry_endedHop hid hredirect hin hroom
    have hfailed := hnew _ _ hmoved (Option.isSome_iff_ne_none.mpr hf)
    cases hfailed
  | report r params =>
    cases r with
    | response =>
      intro entry hin
      by_contra hopen
      obtain ⟨entry', hentry', hstill⟩ := hended _ entry hin (Bool.eq_true_of_not_eq_false hopen) (fun p hp => by cases hp)
      rw [show (t.apply cfg (.report .response params)).entry (idOf params) = _ from t.write_entry_self _ _, hin] at hentry'
      cases hentry'
      cases hstill
    | finished =>
      intro entry hin
      by_contra hf
      have hwritten : (t.apply cfg (.report .finished params)).entry (idOf params) =
          some (finishLoading cfg.lib params entry) := by
        show (t.write _ _).entry _ = _
        rw [t.write_entry_self, hin]
        rfl
      have hfailed := hnew _ _ hwritten (Option.isSome_iff_ne_none.mpr hf)
      cases hfailed
    | failed => trivial
    | cached => trivial
  | choose id => trivial
  | keep => trivial

end

/-! ## Runs -/

section
variable (cfg : CollectorConfig)

/-- The event comes in the order in which a request's events belong. -/
def InOrder (inner : NetworkInner) (e : CollectorStep) : Prop := InOrderChange inner.table (changeOf cfg inner e)

/-- What a log is read for, at every moment of a run. -/
structure TerminalMeets (es : List CollectorStep) : Prop where
  staysEnded : ∀ xs e ys id entry, es = xs ++ e :: ys → (collect cfg xs).entry id = some entry →
    entry.state.terminal = true → (∀ params, e.announcement cfg = some params → idOf params ≠ id) →
    ∃ entry', (collect cfg (xs ++ [e])).entry id = some entry' ∧ entry'.state.terminal = true
  summary : ∀ xs, xs <+: es → SummaryExact (collect cfg xs)

end

section
variable {cfg : CollectorConfig} {es : List CollectorStep}

theorem failuresFailed_iff (inner : NetworkInner) : FailuresFailed inner.table ↔ SummaryExact inner := by
  constructor
  · intro h
    exact summary_exact fun id entry hin => (countedOnce_iff entry).mpr (h id entry hin)
  · intro h id entry hin
    exact (countedOnce_iff entry).mp (h.once id entry hin)

/-- **Ended requests stay ended and are counted once** exactly in the runs whose events are all in order. -/
theorem terminal_meets_iff :
    TerminalMeets cfg es ↔ ∀ xs e ys, es = xs ++ e :: ys → InOrder cfg (collect cfg xs) e := by
  have hstep (xs : List CollectorStep) (e : CollectorStep) : (collect cfg (xs ++ [e])).table =
      (collect cfg xs).table.apply cfg (changeOf cfg (collect cfg xs) e) := by rw [collect_concat, table_step]
  constructor
  · intro h xs e ys hes
    have hnew := (failuresFailed_iff _).mpr (h.summary (xs ++ [e]) ⟨ys, by rw [hes, ← List.append_cons]⟩)
    rw [hstep] at hnew
    refine inOrder_of_apply hnew fun id entry hin hended hother => ?_
    rw [announcement_changeOf] at hother
    rw [← hstep]
    exact h.staysEnded xs e ys id entry hes hin hended hother
  · intro h
    have hall : ∀ xs, xs <+: es → FailuresFailed (collect cfg xs).table := by
      intro xs
      induction xs using List.reverseRecOn with
      | nil =>
        intro _ id entry hin
        cases hin
      | append_singleton xs e ih =>
        rintro ⟨ys, hes⟩
        rw [hstep]
        rw [List.append_assoc] at hes
        exact (inOrder_apply (ih ⟨_, hes⟩) (h xs e ys hes.symm)).1
    refine ⟨fun xs e ys id entry hes hin hended hother => ?_, fun xs hxs => (failuresFailed_iff _).mp (hall xs hxs)⟩
    rw [← announcement_changeOf cfg (collect cfg xs)] at hother
    have hstays : StaysEnded _ _ ((collect cfg xs).table.apply cfg _) :=
      (inOrder_apply (hall xs ⟨_, hes.symm⟩) (h xs e ys hes)).2
    obtain ⟨entry', hentry', hended'⟩ := hstays id entry hin hended hother
    rw [← hstep] at hentry'
    exact ⟨entry', hentry', hended'⟩

end

/-- A response that comes after the failure reopens the request. -/
theorem late_response_reopens : ¬∀ cfg es, TerminalMeets cfg es := by
  intro hall
  let xs : List CollectorStep := [sampleAnnouncement "r" "XHR" [],
    sampleEvent "Network.loadingFailed" [("requestId", .str "r"), ("errorText", .str "net::ERR_ABORTED")]]
  let e := sampleEvent "Network.responseReceived" [("requestId", .str "r")]
  have hstate (es : List CollectorStep) (state : NetworkEntryState)
      (h : ((collect sampleConfig es).entry "r").map NetworkEntry.state = some state) :
      ∃ entry, (collect sampleConfig es).entry "r" = some entry ∧ entry.state = state := Option.map_eq_some_iff.mp h
  obtain ⟨entry, hentry, hfailed⟩ := hstate xs .failed (by decide)
  obtain ⟨entry', hentry', hended⟩ := (hall sampleConfig (xs ++ e :: [])).staysEnded xs e [] "r" entry rfl hentry
    (by rw [hfailed]; rfl) (fun params hp => by cases hp)
  obtain ⟨entry'', hentry'', hopen⟩ := hstate (xs ++ [e]) .responded (by decide)
  rw [hentry'] at hentry''
  cases hentry''
  rw [hopen] at hended
  cases hended

end Afhttp.Collect

import Afhttp.Collect.RedirectChain

/-!
# The slot for the main document

Until a Document is announced, requests take at most `networkEntryLimit - 1` slots, so that the first
Document finds room.  A redirect's hop is not held to that: with as many slots taken it takes the
last one.  That is the only way in which the first Document is refused, if it has an id.

    CollectorKeeps cfg es ↔ RoomForFirstDocument cfg es                        (collector_keeps_iff)
    4095 requests, a redirect of one of them, the Document: refused        (redirect_spends_reserve)
-/

namespace Afhttp.Collect

open Text Fetch

section
variable (cfg : CollectorConfig)

def NoDocument (es : List CollectorStep) : Prop :=
  ∀ e ∈ es, ∀ params, e.announcement cfg = some params → ¬IsDocument cfg params

/-- The step is a redirect whose hop takes the slot that is kept for the main document. -/
def SpendsReserve (inner : NetworkInner) (e : CollectorStep) : Prop :=
  ∃ params, e.announcement cfg = some params ∧ ¬IsDocument cfg params ∧
    (params.get "redirectResponse").isSome ∧ inner.slots.contains (idOf params) = true ∧
    inner.mainRequestId = none ∧ inner.slots.size = networkEntryLimit - 1

def Spent (es : List CollectorStep) : Prop :=
  ∃ xs e ys, es = xs ++ e :: ys ∧ SpendsReserve cfg (collect cfg xs) e

/-- The first Document has an id, and it has a slot already or none has spent the one kept for it. -/
def RoomForFirstDocument (es : List CollectorStep) : Prop :=
  ∀ xs e ys params, es = xs ++ e :: ys → e.announcement cfg = some params → IsDocument cfg params → NoDocument cfg xs →
    idOf params ≠ "" ∧ ((collect cfg xs).slots.contains (idOf params) = true ∨ ¬Spent cfg xs)

/-- The Document announced by `e` gets its entry, and has one ever after. -/
structure Retained (xs : List CollectorStep) (e : CollectorStep) (ys : List CollectorStep) (params : Json) : Prop where
  recorded : ∃ entry, (collect cfg (xs ++ [e])).entry (idOf params) = some entry ∧
    entry.asAnnounced = (announced cfg params).asAnnounced
  held : ∀ zs, zs <+: ys → (collect cfg (xs ++ [e] ++ zs)).slots.contains (idOf params) = true

/-- What the collector is for, at every moment of a run. -/
structure CollectorKeeps (es : List CollectorStep) : Prop where
  bounded : ∀ xs, xs <+: es → (collect cfg xs).slots.size ≤ networkEntryLimit
  firstDocument : ∀ xs e ys params, es = xs ++ e :: ys → e.announcement cfg = some params → IsDocument cfg params →
    NoDocument cfg xs → Retained cfg xs e ys params
  chains : ∀ xs, xs <+: es → (collect cfg xs).truncated = false →
    ∀ id, Plain id → Traced cfg (collect cfg xs).table id (announcements cfg id xs)

/-! ## Before the first Document -/

/-- What holds as long as no Document has been announced. -/
structure Reserve (es : List CollectorStep) (t : RequestTable) : Prop where
  unclaimed : t.main = none
  noDocument : ∀ k entry, t.entry k = some entry → entry.resourceType ≠ "Document"
  named : t.entry "" = none
  kept : ¬Spent cfg es → t.size ≤ networkEntryLimit - 1
  spent : Spent cfg es → t.size = networkEntryLimit

end

section
variable {cfg : CollectorConfig} {es : List CollectorStep}

theorem spent_concat {e : CollectorStep} :
    Spent cfg (es ++ [e]) ↔ Spent cfg es ∨ SpendsReserve cfg (collect cfg es) e := by
  constructor
  · rintro ⟨xs, e', ys, hes, hspends⟩
    obtain rfl | ⟨ys', y, rfl⟩ := ys.eq_nil_or_concat'
    · obtain ⟨rfl, he⟩ := List.append_inj' hes rfl
      cases he
      exact .inr hspends
    · rw [← List.cons_append, ← List.append_assoc] at hes
      obtain ⟨rfl, -⟩ := List.append_inj' hes rfl
      exact .inl ⟨xs, e', ys', rfl, hspends⟩
  · rintro (⟨xs, e', ys, rfl, hspends⟩ | hspends)
    · exact ⟨xs, e', ys ++ [e], by rw [List.append_assoc, List.cons_append], hspends⟩
    · exact ⟨es, e, [], rfl, hspends⟩

theorem spendsReserve_iff {inner : NetworkInner} {e : CollectorStep} {params : Json}
    (he : e.announcement cfg = some params) (hdoc : ¬IsDocument cfg params) (hmain : inner.mainRequestId = none) :
    SpendsReserve cfg inner e ↔ (params.get "redirectResponse").isSome ∧ (inner.table.entry (idOf params)).isSome ∧
      inner.table.size = networkEntryLimit - 1 := by
  unfold SpendsReserve
  rw [show (inner.table.entry (idOf params)).isSome = inner.slots.contains (idOf params) from
    (contains_eq_isSome inner _).symm]
  constructor
  · rintro ⟨params', he', -, hr, hc, -, hsize⟩
    rw [he] at he'
    cases he'
    exact ⟨hr, hc, hsize⟩
  · rintro ⟨hr, hc, hsize⟩
    exact ⟨params, he, hdoc, hr, hc, hmain, hsize⟩

theorem accept_unnamed {t : RequestTable} {params : Json} (hid : idOf params ≠ "") (h : t.entry "" = none) :
    (t.accept cfg params).entry "" = none := by
  rw [t.accept_entry_of_ne cfg params hid.symm (plain_ne_hopId (by decide) _ _)]
  exact h

/-- The announcement is a redirect that ends a hop, with as many slots taken as requests may take. -/
def TakesLast (t : RequestTable) (params : Json) : Prop :=
  (params.get "redirectResponse").isSome ∧ (t.entry (idOf params)).isSome ∧ t.size = networkEntryLimit - 1

/-- The number of slots after an announcement that is no Document's, before any Document. -/
theorem reserve_size {t : RequestTable} {params : Json} (hfresh : HopsFresh t) (hdoc : ¬IsDocument cfg params)
    (hmain : t.main = none) (hacc : ¬t.Refuses cfg params) :
    (TakesLast t params → (t.accept cfg params).size = networkEntryLimit) ∧
      (¬TakesLast t params → t.size ≤ networkEntryLimit - 1 → (t.accept cfg params).size ≤ networkEntryLimit - 1) ∧
      (t.size = networkEntryLimit → (t.accept cfg params).size = networkEntryLimit) := by
  have hroom := (RequestTable.not_refuses hacc).2
  have hlimit : t.limit (typeOf cfg params) = networkEntryLimit - 1 := if_pos ⟨hmain, hdoc⟩
  have hpos : networkEntryLimit = 4096 := rfl
  rw [hlimit] at hroom
  unfold TakesLast
  obtain ⟨hnone, hsize⟩ | ⟨-, hkeep, hsize⟩ | ⟨hr, hsome, hlt, hsize⟩ :=
    t.size_accept_cases cfg params
  · have hlt := hroom hnone
    refine ⟨fun h => ?_, fun _ _ => by omega, fun h => by omega⟩
    rw [hnone] at h
    exact absurd h.2.1 (by decide)
  · refine ⟨fun h => ?_, fun _ hle => by omega, fun h => by omega⟩
    obtain hnone | hfull := hkeep
    · rw [hnone] at h
      exact absurd h.1 (by decide)
    · omega
  · rw [hfresh.hopAt_free params] at hsize
    change _ = t.size + 1 at hsize
    refine ⟨fun h => by omega, fun h hle => ?_, fun h => by omega⟩
    have hne : t.size ≠ networkEntryLimit - 1 := fun heq => h ⟨hr, hsome, heq⟩
    omega

theorem reserve_announce {e : CollectorStep} {params : Json} (he : e.announcement cfg = some params)
    (hdoc : ¬IsDocument cfg params) (hfresh : HopsFresh (collect cfg es).table)
    (h : Reserve cfg es (collect cfg es).table) :
    Reserve cfg (es ++ [e]) ((collect cfg es).table.announce cfg params) := by
  have hspent : Spent cfg (es ++ [e]) ↔ Spent cfg es ∨ TakesLast (collect cfg es).table params := by
    rw [spent_concat, spendsReserve_iff he hdoc h.unclaimed]
    rfl
  have hpos : networkEntryLimit = 4096 := rfl
  unfold RequestTable.announce
  by_cases hacc : (collect cfg es).table.Refuses cfg params
  · rw [if_pos hacc]
    have hnot : ¬TakesLast (collect cfg es).table params := by
      rintro ⟨-, hsome, -⟩
      obtain hid | ⟨hnone, -⟩ := hacc
      · rw [hid, h.named] at hsome
        cases hsome
      · rw [hnone] at hsome
        cases hsome
    exact { unclaimed := h.unclaimed, noDocument := h.noDocument, named := h.named
            kept := fun hs => h.kept fun hes => hs (hspent.mpr (.inl hes))
            spent := fun hs => h.spent ((hspent.mp hs).resolve_right hnot) }
  · rw [if_neg hacc]
    have hclaim : (collect cfg es).table.claimMain cfg params = (collect cfg es).table := if_neg fun hc => hdoc hc.1
    rw [hclaim]
    obtain ⟨hlast, hkeep, hfull⟩ := reserve_size hfresh hdoc h.unclaimed hacc
    refine ⟨accept_main.trans h.unclaimed, ?_, accept_unnamed (RequestTable.not_refuses hacc).1 h.named, ?_, ?_⟩
    · intro k entry hentry
      obtain htype | ⟨k', entry', hold, htype⟩ := accept_type hentry
      · rw [htype]
        exact hdoc
      · rw [htype]
        exact h.noDocument k' entry' hold
    · intro hs
      rw [hspent, not_or] at hs
      exact hkeep hs.2 (h.kept hs.1)
    · intro hs
      obtain hs | hs := hspent.mp hs
      · exact hfull (h.spent hs)
      · exact hlast hs

/-- **Until a Document is announced**, a slot is kept for it, or a redirect has taken that one. -/
theorem collect_reserve (hes : PlainIds es) (h : NoDocument cfg es) : Reserve cfg es (collect cfg es).table := by
  refine collect_history (P := fun es t => PlainIds es → NoDocument cfg es → Reserve cfg es t)
    ?_ ?_ es hes h
  · intro _ _
    refine ⟨rfl, (fun _ _ h => by cases h), rfl, fun _ => Nat.zero_le _, ?_⟩
    rintro ⟨xs, e, ys, hnil, -⟩
    simp at hnil
  · intro es e ih hes h
    have hpre := hes.of_concat.1
    have hr := ih hpre fun x hx => h x (List.mem_append_left _ hx)
    cases hann : e.announcement cfg with
    | some params =>
      rw [changeOf_of_announcement hann]
      exact reserve_announce hann (h e (List.mem_append_right _ (List.mem_singleton_self e)) params hann)
        (hops_fresh hpre) hr
    | none =>
      have hspent : Spent cfg (es ++ [e]) ↔ Spent cfg es := by
        rw [spent_concat, or_iff_left_iff_imp]
        rintro ⟨params, he, -⟩
        rw [hann] at he
        cases he
      rw [← announcement_changeOf cfg (collect cfg es)] at hann
      cases hc : changeOf cfg (collect cfg es) e with
      | announce params =>
        rw [hc] at hann
        cases hann
      | report r params =>
        refine ⟨hr.unclaimed, ?_, ?_, fun hs => hr.kept (fun hs' => hs (hspent.mpr hs')),
          fun hs => hr.spent (hspent.mp hs)⟩
        · intro k entry hentry
          change ((collect cfg es).table.write _ _).entry k = some entry at hentry
          rw [RequestTable.write_entry] at hentry
          obtain ⟨old, hold, rfl⟩ := Option.map_eq_some_iff.mp hentry
          have htype := hr.noDocument k old hold
          split
          · rw [(write_requestId r params old).2]
            exact htype
          · exact htype
        · change ((collect cfg es).table.write _ _).entry "" = none
          rw [RequestTable.write_entry, hr.named]
          rfl
      | choose id =>
        obtain ⟨k, entry, hentry, hdoc⟩ := document_of_choose hc
        exact absurd hdoc (hr.noDocument k entry hentry)
      | keep =>
        exact ⟨hr.unclaimed, hr.noDocument, hr.named, fun hs => hr.kept (fun hs' => hs (hspent.mpr hs')),
          fun hs => hr.spent (hspent.mp hs)⟩

/-! ## The first Document -/

/-- The first Document is refused only if it has no id, or the slot kept for it is spent. -/
theorem refuses_document_iff {params : Json} (hdoc : IsDocument cfg params) (h : Reserve cfg es (collect cfg es).table) :
    ¬(collect cfg es).table.Refuses cfg params ↔
      idOf params ≠ "" ∧ ((collect cfg es).slots.contains (idOf params) = true ∨ ¬Spent cfg es) := by
  have hlimit : (collect cfg es).table.limit (typeOf cfg params) = networkEntryLimit := if_neg fun hc => hc.2 hdoc
  have hpos : networkEntryLimit = 4096 := rfl
  have hfull : networkEntryLimit ≤ (collect cfg es).table.size ↔ Spent cfg es := by
    constructor
    · intro hle
      by_contra hs
      have := h.kept hs
      omega
    · intro hs
      rw [h.spent hs]
  unfold RequestTable.Refuses
  rw [hlimit, hfull, not_or, not_and_or, contains_eq_isSome, Option.isSome_iff_ne_none]
  rfl

theorem retained_iff {e : CollectorStep} {params : Json} (ys : List CollectorStep) (hes : PlainIds es)
    (he : e.announcement cfg = some params) (hdoc : IsDocument cfg params) (hno : NoDocument cfg es) :
    Retained cfg es e ys params ↔
      idOf params ≠ "" ∧ ((collect cfg es).slots.contains (idOf params) = true ∨ ¬Spent cfg es) := by
  have hr := collect_reserve hes hno
  have hstep : (collect cfg (es ++ [e])).table = (collect cfg es).table.announce cfg params := by
    rw [collect_concat, table_step, changeOf_of_announcement he]
    rfl
  rw [← refuses_document_iff hdoc hr]
  unfold RequestTable.announce at hstep
  constructor
  · intro h hrefuse
    obtain ⟨entry, hentry, -⟩ := h.recorded
    change (collect cfg (es ++ [e])).table.entry (idOf params) = some entry at hentry
    rw [hstep, if_pos hrefuse] at hentry
    obtain hid | ⟨hnone, -⟩ := hrefuse
    · rw [hid] at hentry
      exact Option.some_ne_none _ (hentry.symm.trans hr.named)
    · exact Option.some_ne_none _ (hentry.symm.trans hnone)
  · intro hacc
    rw [if_neg hacc] at hstep
    obtain ⟨origin, hself⟩ := ((collect cfg es).table.claimMain cfg params).accept_entry_self cfg params
    rw [← hstep] at hself
    refine ⟨⟨_, hself, rfl⟩, fun zs _ => contains_collect_append ?_ zs⟩
    rw [contains_eq_isSome]
    exact Option.isSome_iff_exists.mpr ⟨_, hself⟩

/-- **The collector keeps what it is for** exactly in the runs that leave room for the first Document. -/
theorem collector_keeps_iff (hes : PlainIds es) : CollectorKeeps cfg es ↔ RoomForFirstDocument cfg es := by
  constructor
  · intro h xs e ys params hsplit he hdoc hno
    have hxs : PlainIds xs := (hsplit ▸ hes).of_append
    exact (retained_iff ys hxs he hdoc hno).mp (h.firstDocument xs e ys params hsplit he hdoc hno)
  · intro h
    refine ⟨fun xs _ => collect_bounded cfg xs, ?_, ?_⟩
    · intro xs e ys params hsplit he hdoc hno
      have hxs : PlainIds xs := (hsplit ▸ hes).of_append
      exact (retained_iff ys hxs he hdoc hno).mpr (h xs e ys params hsplit he hdoc hno)
    · rintro xs ⟨ys, rfl⟩ hkept id hid
      exact collect_traced hes.of_append hkept hid

end

/-! ## A run, and the reserve spent -/

def sampleRedirect (id resourceType : String) : CollectorStep :=
  sampleAnnouncement id resourceType [("redirectResponse", .obj [("status", .posInt 302)])]

theorem plainIds_of_forall {es : List CollectorStep}
    (h : ∀ e ∈ es, ∃ id ty rest, e = sampleAnnouncement id ty rest ∧ Plain id) : PlainIds es := by
  intro event now hmem
  obtain ⟨id, ty, rest, he, hid⟩ := h _ hmem
  cases he
  exact hid

def sampleRun : List CollectorStep :=
  [sampleAnnouncement "a" "XHR" [], sampleAnnouncement "main" "Document" [], sampleRedirect "a" "XHR"]

theorem collector_keeps_sampleRun : CollectorKeeps sampleConfig sampleRun := by
  refine (collector_keeps_iff (plainIds_of_forall ?_)).mpr ?_
  · intro e he
    simp only [sampleRun, List.mem_cons, List.not_mem_nil, or_false] at he
    rcases he with rfl | rfl | rfl
    · exact ⟨"a", "XHR", [], rfl, by decide⟩
    · exact ⟨"main", "Document", [], rfl, by decide⟩
    · exact ⟨"a", "XHR", _, rfl, by decide⟩
  · intro xs e ys params hsplit he hdoc hno
    rcases xs with _ | ⟨x, _ | ⟨y, xs⟩⟩
    · cases hsplit
      cases he
      exact absurd hdoc (by decide)
    · cases hsplit
      cases he
      refine ⟨by decide, .inr ?_⟩
      rintro ⟨xs', e', ys', hone, _, -, -, -, -, -, hsize⟩
      rcases xs' with _ | ⟨x', xs'⟩
      · exact absurd hsize (by decide)
      · simp at hone
    · simp only [sampleRun, List.cons_append, List.cons.injEq] at hsplit
      obtain ⟨-, rfl, -⟩ := hsplit
      exact absurd (show IsDocument sampleConfig (sampleParams "main" "Document" []) by decide)
        (hno _ (List.mem_cons_of_mem _ List.mem_cons_self) _ rfl)

/-! ### The reserve spent -/

/-- The `i`-th of many ids. -/
def manyId (i : ℕ) : String := String.ofList (List.replicate (i + 1) 'x')

def manyRequests (n : ℕ) : List CollectorStep := (List.range n).map fun i => sampleAnnouncement (manyId i) "XHR" []

theorem manyId_inj {i j : ℕ} (h : manyId i = manyId j) : i = j := by
  have hlen := congrArg (fun s => s.toList.length) h
  simpa [manyId] using hlen

theorem manyId_plain (i : ℕ) : Plain (manyId i) := by
  rintro ⟨s, t, h⟩
  have hmem : '#' ∈ (manyId i).toList := by
    rw [← h]
    exact List.mem_append_left _ (List.mem_append_right _ (by decide))
  unfold manyId at hmem
  rw [String.toList_ofList] at hmem
  exact absurd (List.eq_of_mem_replicate hmem) (by decide)

theorem manyId_ne_empty (i : ℕ) : manyId i ≠ "" := by
  intro h
  have hlen := congrArg (fun s => s.toList.length) h
  simp [manyId] at hlen

/-- Requests alone fill the table up to the slot that is kept. -/
theorem manyRequests_table {n : ℕ} (hn : n ≤ networkEntryLimit - 1) :
    let t := (collect sampleConfig (manyRequests n)).table
    t.size = n ∧ t.main = none ∧ ∀ k, (t.entry k).isSome ↔ ∃ i < n, k = manyId i := by
  induction n with
  | zero =>
    refine ⟨rfl, rfl, fun k => ⟨(fun h => by cases h), ?_⟩⟩
    rintro ⟨i, hi, -⟩
    exact absurd hi (Nat.not_lt_zero i)
  | succ n ih =>
    obtain ⟨hsize, hmain, hentry⟩ := ih (by omega)
    intro t
    let old := (collect sampleConfig (manyRequests n)).table
    let params := sampleParams (manyId n) "XHR" []
    have hfree : old.entry (manyId n) = none := by
      by_contra hsome
      obtain ⟨i, hi, heq⟩ := (hentry (manyId n)).mp (Option.isSome_iff_ne_none.mpr hsome)
      exact absurd (manyId_inj heq) (by omega)
    have hdoc : typeOf sampleConfig params ≠ "Document" := by
      show "XHR" ≠ "Document"
      decide
    have hrefuse : ¬old.Refuses sampleConfig params := by
      rintro (hid | ⟨-, hlimit⟩)
      · exact manyId_ne_empty n hid
      · rw [show old.limit (typeOf sampleConfig params) = networkEntryLimit - 1 from if_pos ⟨hmain, hdoc⟩] at hlimit
        change networkEntryLimit - 1 ≤ (collect sampleConfig (manyRequests n)).table.size at hlimit
        omega
    have ht : t = old.link sampleConfig params none := by
      have hstep : t = old.announce sampleConfig params := by
        show (collect sampleConfig (manyRequests (n + 1))).table = _
        unfold manyRequests
        rw [List.range_succ, List.map_append, List.map_singleton, collect_concat, table_step]
        rfl
      rw [hstep]
      unfold RequestTable.announce
      rw [if_neg hrefuse, show old.claimMain sampleConfig params = old from if_neg fun h => hdoc h.1]
      rfl
    rw [ht]
    refine ⟨?_, hmain, fun k => ?_⟩
    · rw [← hsize]
      exact RequestTable.size_put_of_none _ hfree
    · by_cases hk : k = manyId n
      · subst hk
        exact ⟨fun _ => ⟨n, Nat.lt_succ_self n, rfl⟩, fun _ => by
          rw [show (old.link sampleConfig params none).entry (manyId n) = some _ from old.put_entry_self _ _]
          rfl⟩
      · rw [show (old.link sampleConfig params none).entry k = old.entry k from old.put_entry_of_ne _ hk, hentry]
        constructor
        · rintro ⟨i, hi, rfl⟩
          exact ⟨i, by omega, rfl⟩
        · rintro ⟨i, hi, rfl⟩
          have hne : i ≠ n := fun h => hk (by rw [h])
          exact ⟨i, by omega, rfl⟩

/-- A redirect of a subresource leaves no room for the main document. -/
theorem redirect_spends_reserve : ¬∀ cfg es, PlainIds es → CollectorKeeps cfg es := by
  intro hall
  obtain ⟨xs, hmany⟩ : ∃ xs, xs = manyRequests (networkEntryLimit - 1) := ⟨_, rfl⟩
  let params := sampleParams "main" "Document" []
  let redirect := sampleParams (manyId 0) "XHR" [("redirectResponse", .obj [("status", .posInt 302)])]
  obtain ⟨hsize, hmain, hentry⟩ := manyRequests_table (le_refl (networkEntryLimit - 1))
  rw [← hmany] at hsize hmain hentry
  have hfirst : ((collect sampleConfig xs).table.entry (manyId 0)).isSome :=
    (hentry (manyId 0)).mpr ⟨0, by decide, rfl⟩
  have hnotdoc : typeOf sampleConfig redirect ≠ "Document" := by
    show "XHR" ≠ "Document"
    decide
  have hspends : SpendsReserve sampleConfig (collect sampleConfig xs) (sampleRedirect (manyId 0) "XHR") :=
    (spendsReserve_iff (show _ = some redirect from rfl) hnotdoc hmain).mpr ⟨rfl, hfirst, hsize⟩
  have hxs : ∀ e ∈ xs, ∃ i, e = sampleAnnouncement (manyId i) "XHR" [] := by
    intro e he
    rw [hmany] at he
    obtain ⟨i, -, rfl⟩ := List.mem_map.mp he
    exact ⟨i, rfl⟩
  have hplain : PlainIds (xs ++ [sampleRedirect (manyId 0) "XHR"]) := by
    refine plainIds_of_forall fun e he => ?_
    obtain he | he := List.mem_append.mp he
    · obtain ⟨i, rfl⟩ := hxs e he
      exact ⟨manyId i, "XHR", [], rfl, manyId_plain i⟩
    · rw [List.mem_singleton] at he
      exact ⟨manyId 0, "XHR", _, he, manyId_plain 0⟩
  have hno : NoDocument sampleConfig (xs ++ [sampleRedirect (manyId 0) "XHR"]) := by
    intro e he p hp
    obtain he | he := List.mem_append.mp he
    · obtain ⟨i, rfl⟩ := hxs e he
      cases hp
      show "XHR" ≠ "Document"
      decide
    · rw [List.mem_singleton] at he
      subst he
      cases hp
      exact hnotdoc
  have hes : PlainIds (xs ++ [sampleRedirect (manyId 0) "XHR"] ++ [sampleAnnouncement "main" "Document" []]) := by
    intro event now hmem
    obtain hmem | hmem := List.mem_append.mp hmem
    · exact hplain event now hmem
    · rw [List.mem_singleton] at hmem
      cases hmem
      show Plain "main"
      decide
  have hkept := (hall sampleConfig _ hes).firstDocument (xs ++ [sampleRedirect (manyId 0) "XHR"])
    (sampleAnnouncement "main" "Document" []) [] params rfl rfl (show "Document" = "Document" from rfl) hno
  obtain ⟨-, hroom⟩ := (retained_iff [] hplain (show _ = some params from rfl) rfl hno).mp hkept
  obtain hslot | hspent := hroom
  · rw [contains_eq_isSome] at hslot
    change ((collect sampleConfig (xs ++ [sampleRedirect (manyId 0) "XHR"])).table.entry "main").isSome = true at hslot
    have hother (i : ℕ) : "main" ≠ manyId i := by
      intro h
      have hmem : 'm' ∈ (manyId i).toList := by
        rw [← h]
        decide
      unfold manyId at hmem
      rw [String.toList_ofList] at hmem
      exact absurd (List.eq_of_mem_replicate hmem) (by decide)
    rw [collect_concat, table_step, changeOf_of_announcement (show _ = some redirect from rfl),
      announce_entry_of_ne (hother 0) (plain_ne_hopId (by decide) _ _), hentry] at hslot
    obtain ⟨i, -, heq⟩ := hslot
    exact hother i heq
  · exact hspent ⟨xs, _, [], rfl, hspends⟩

end Afhttp.Collect
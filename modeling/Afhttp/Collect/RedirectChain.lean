import Afhttp.Collect.NetworkBound

/-!
# Redirect chains

CDP keeps a request's id from hop to hop.  The announcements of an id since its last one without a
redirect response (`announcements`) are the request and its hops, newest first, and the links of the
entries follow them.

    id ≠ hopId r k, hopId r k = hopId r' k' → r = r' ∧ k = k'                 (plain_ne_hopId, hopId_inj)
    an entry at hopId r k has k < hops r                                                  (hops_fresh)
    not truncated → Traced cfg t id (announcements cfg id es)                          (collect_traced)
-/

namespace Afhttp.Collect

open Text Fetch

/-! ## Ids of hops -/

/-- An id without the mark of a redirect hop. -/
def Plain (id : String) : Prop := ¬"#redirect".toList <:+: id.toList

instance (id : String) : Decidable (Plain id) := inferInstanceAs (Decidable (¬_))

/-- Every event names a request by a plain id. -/
def PlainIds (es : List CollectorStep) : Prop :=
  ∀ event now, CollectorStep.event event now ∈ es → Plain (idOf event.params)

theorem plain_ne_hopId {id : String} (h : Plain id) (r : String) (k : ℕ) : id ≠ hopId r k := by
  rintro rfl
  refine h ⟨r.toList, (toString k).toList, ?_⟩
  unfold hopId
  rw [String.toList_append, String.toList_append]

theorem toList_toString (k : ℕ) : (toString k).toList = Nat.toDigits 10 k := by
  rw [Nat.toString_eq_ofList_toDigits, String.toList_ofList]

/-- What follows the last `a` determines what stands before it. -/
theorem append_cons_inj {α : Type*} {a : α} {x z x' z' : List α} (hz : a ∉ z) (hz' : a ∉ z')
    (h : x ++ a :: z = x' ++ a :: z') : x = x' ∧ z = z' := by
  obtain ⟨w, hx, hw⟩ | ⟨w, hx, hw⟩ := List.append_eq_append_iff.mp h
  · cases w with
    | nil =>
      cases hw
      exact ⟨by rw [hx, List.append_nil], rfl⟩
    | cons b w =>
      cases hw
      exact absurd (List.mem_append_right w List.mem_cons_self) hz
  · cases w with
    | nil =>
      cases hw
      exact ⟨by rw [hx, List.append_nil], rfl⟩
    | cons b w =>
      cases hw
      exact absurd (List.mem_append_right w List.mem_cons_self) hz'

theorem hopId_inj {r r' : String} {k k' : ℕ} (h : hopId r k = hopId r' k') : r = r' ∧ k = k' := by
  have hlist (r : String) (k : ℕ) :
      (hopId r k).toList = r.toList ++ '#' :: ("redirect".toList ++ Nat.toDigits 10 k) := by
    unfold hopId
    rw [String.toList_append, String.toList_append, toList_toString, List.append_assoc]
    rfl
  have hhash (k : ℕ) : '#' ∉ "redirect".toList ++ Nat.toDigits 10 k := by
    intro hmem
    obtain hmem | hmem := List.mem_append.mp hmem
    · exact absurd hmem (by decide)
    · exact absurd (Nat.isDigit_of_mem_toDigits (by omega) (by omega) hmem) (by decide)
  have hl := congrArg String.toList h
  rw [hlist, hlist] at hl
  obtain ⟨hr, hk⟩ := append_cons_inj (hhash k) (hhash k') hl
  refine ⟨String.toList_inj.mp hr, ?_⟩
  have hnum := congrArg (fun ds => Nat.ofDigitChars 10 ds 0) (List.append_cancel_left hk)
  simpa using hnum

/-- The ids of the hops still to come are free. -/
def HopsFresh (t : RequestTable) : Prop := ∀ r k, (t.entry (hopId r k)).isSome → k < t.hops r

/-- The change is about a plain id. -/
def Change.IsPlain : Change → Prop
  | .announce params => Plain (idOf params)
  | .report _ params => Plain (idOf params)
  | .choose _ => True
  | .keep => True

theorem isPlain_changeOf {cfg : CollectorConfig} {inner : NetworkInner} {e : CollectorStep}
    (h : ∀ event now, e = .event event now → Plain (idOf event.params)) : (changeOf cfg inner e).IsPlain := by
  cases e with
  | event event now =>
    have hplain := h event now rfl
    unfold changeOf eventChange
    dsimp only
    split
    · split
      · exact hplain
      · cases reportOf event.method with
        | none => trivial
        | some r => exact hplain
    · trivial
  | lagged count now => trivial
  | select mainFrameId order =>
    unfold changeOf
    dsimp only
    cases maxByKey (·.entry.timing.startMonotonicMs) ((inner.values order).filter (isMainCandidate mainFrameId)) <;>
      trivial

section
variable {cfg : CollectorConfig} {params : Json} {t : RequestTable}

theorem link_entry_hopId (h : Plain (idOf params)) (origin : Option String) (r : String) (k : ℕ) :
    (t.link cfg params origin).entry (hopId r k) = t.entry (hopId r k) :=
  t.put_entry_of_ne _ (plain_ne_hopId h r k).symm

theorem moveHop_entry_self (redirect : Json) (hop : NetworkEntry) :
    (t.moveHop cfg params redirect hop).entry (t.hopAt params) =
      some (endedHop cfg.lib cfg.redactHeaders params redirect (t.hopAt params) hop) := t.put_entry_self ..

theorem moveHop_entry_of_ne (redirect : Json) (hop : NetworkEntry) {id : String} (h : id ≠ t.hopAt params) :
    (t.moveHop cfg params redirect hop).entry id = t.entry id := t.put_entry_of_ne _ h

theorem HopsFresh.link (ht : HopsFresh t) (h : Plain (idOf params)) (origin : Option String) :
    HopsFresh (t.link cfg params origin) := by
  intro r k hk
  rw [link_entry_hopId h] at hk
  exact ht r k hk

theorem HopsFresh.moveHop (ht : HopsFresh t) (redirect : Json) (hop : NetworkEntry) :
    HopsFresh (t.moveHop cfg params redirect hop) := by
  intro r k hk
  show k < Function.update t.hops (idOf params) (t.hops (idOf params) + 1) r
  rw [Function.update_apply]
  by_cases hat : hopId r k = t.hopAt params
  · obtain ⟨rfl, rfl⟩ := hopId_inj hat
    rw [if_pos rfl]
    exact Nat.lt_succ_self _
  · rw [moveHop_entry_of_ne _ _ hat] at hk
    have hlt := ht r k hk
    split
    · next hr =>
      rw [← hr]
      exact Nat.lt_succ_of_lt hlt
    · exact hlt

theorem HopsFresh.accept (ht : HopsFresh t) (h : Plain (idOf params)) : HopsFresh (t.accept cfg params) := by
  obtain ⟨-, hacc⟩ | ⟨redirect, hop, -, -, ⟨-, hacc⟩ | ⟨-, hacc⟩⟩ := t.accept_cases cfg params
  · rw [hacc]
    exact ht.link h none
  · rw [hacc]
    exact HopsFresh.link (t := { t with truncated := true }) ht h none
  · rw [hacc]
    exact (ht.moveHop redirect hop).link h _

theorem HopsFresh.claimMain (ht : HopsFresh t) : HopsFresh (t.claimMain cfg params) := by
  intro r k hk
  rw [RequestTable.claimMain_entry] at hk
  rw [RequestTable.claimMain_hops]
  exact ht r k hk

theorem HopsFresh.apply (ht : HopsFresh t) {c : Change} (hc : c.IsPlain) : HopsFresh (t.apply cfg c) := by
  cases c with
  | announce params =>
    show HopsFresh (t.announce cfg params)
    unfold RequestTable.announce
    split
    · exact ht
    · exact ht.claimMain.accept hc
  | report r params =>
    intro r' k hk
    have hkept : (t.write (idOf params) (r.write cfg params)).entry (hopId r' k) = t.entry (hopId r' k) :=
      t.write_entry_of_ne _ (plain_ne_hopId hc r' k).symm
    refine ht r' k ?_
    rw [← hkept]
    exact hk
  | choose id => exact ht
  | keep => exact ht

end

/-! ## Chains -/

/-- What an announcement says about a request. -/
def NetworkEntry.asAnnounced (entry : NetworkEntry) :=
  (entry.frameId, entry.loaderId, entry.resourceType, entry.requestUrl, entry.method, entry.initiator,
    entry.requestHeaders, entry.requestPostDataPresent, entry.requestPostDataSizeBytes, entry.timing.startMonotonicMs)

/-- The announcements of a request since its last one without a redirect response, newest first. -/
def announcements (cfg : CollectorConfig) (id : String) : List CollectorStep → List Json :=
  List.foldl (fun hops e => (e.announcement cfg).elim hops fun params =>
    if idOf params = id then if (params.get "redirectResponse").isSome then params :: hops else [params]
    else hops) []

theorem announcements_concat (cfg : CollectorConfig) (id : String) (es : List CollectorStep) (e : CollectorStep) :
    announcements cfg id (es ++ [e]) = (e.announcement cfg).elim (announcements cfg id es) fun params =>
      if idOf params = id then
        if (params.get "redirectResponse").isSome then params :: announcements cfg id es else [params]
      else announcements cfg id es := by
  unfold announcements
  rw [List.foldl_append, List.foldl_cons, List.foldl_nil]

section
variable (cfg : CollectorConfig)

/-- The entry is of the hop announced by `hop` and ended by the redirect response in `next`. -/
structure EndedBy (hop next : Json) (entry : NetworkEntry) : Prop where
  asAnnounced : entry.asAnnounced = (announced cfg hop).asAnnounced
  finished : entry.state = .finished
  redirected : entry.isRedirectHop = true
  status : entry.status = (((next.index "redirectResponse").get "status").bind Json.asU64).map asU16

/-- From a link, the entries visited are those of the hops, in this order, and then no more. -/
def ChainFrom (t : RequestTable) (id : String) : Json → Option String → List Json → Prop
  | _, origin, [] => origin = none
  | next, origin, hop :: older => ∃ k entry, origin = some (hopId id k) ∧ t.entry (hopId id k) = some entry ∧
      EndedBy cfg hop next entry ∧ ChainFrom t id hop entry.redirectFromRequestId older

/-- The request's entry is of its last announcement, and its links lead to the hops before that. -/
def Traced (t : RequestTable) (id : String) : List Json → Prop
  | [] => t.entry id = none
  | last :: hops => ∃ entry, t.entry id = some entry ∧ entry.asAnnounced = (announced cfg last).asAnnounced ∧
      ChainFrom cfg t id last entry.redirectFromRequestId hops

end

section
variable {cfg : CollectorConfig} {params : Json} {t t' : RequestTable} {id : String}

theorem ChainFrom.mono {next : Json} {origin : Option String} {hops : List Json}
    (h : ChainFrom cfg t id next origin hops)
    (hkept : ∀ k, (t.entry (hopId id k)).isSome → t'.entry (hopId id k) = t.entry (hopId id k)) :
    ChainFrom cfg t' id next origin hops := by
  induction hops generalizing next origin with
  | nil => exact h
  | cons hop older ih =>
    obtain ⟨k, entry, horigin, hentry, hended, hrest⟩ := h
    refine ⟨k, entry, horigin, ?_, hended, ih hrest⟩
    rw [hkept k (by rw [hentry]; rfl), hentry]

theorem Traced.mono {hops : List Json} (h : Traced cfg t id hops) (hid : t'.entry id = t.entry id)
    (hkept : ∀ k, (t.entry (hopId id k)).isSome → t'.entry (hopId id k) = t.entry (hopId id k)) :
    Traced cfg t' id hops := by
  cases hops with
  | nil =>
    show t'.entry id = none
    rw [hid]
    exact h
  | cons last hops =>
    obtain ⟨entry, hentry, hann, hchain⟩ := h
    exact ⟨entry, by rw [hid, hentry], hann, hchain.mono hkept⟩

theorem HopsFresh.hopAt_free (ht : HopsFresh t) (params : Json) : t.entry (t.hopAt params) = none := by
  by_contra hsome
  exact absurd (ht _ _ (Option.isSome_iff_ne_none.mpr hsome)) (lt_irrefl _)

theorem announce_entry_of_ne {k : String} (hk : k ≠ idOf params) (hat : k ≠ t.hopAt params) :
    (t.apply cfg (.announce params)).entry k = t.entry k := by
  show (t.announce cfg params).entry k = t.entry k
  unfold RequestTable.announce
  split
  · rfl
  · have hsame : (t.claimMain cfg params).hopAt params = t.hopAt params := by
      unfold RequestTable.hopAt
      rw [RequestTable.claimMain_hops]
    rw [RequestTable.accept_entry_of_ne _ _ _ hk (by rw [hsame]; exact hat), RequestTable.claimMain_entry]

theorem endedBy_endedHop {redirect last : Json} {hop : NetworkEntry} (hr : params.get "redirectResponse" = some redirect)
    (hann : hop.asAnnounced = (announced cfg last).asAnnounced) (id : String) :
    EndedBy cfg last params (endedHop cfg.lib cfg.redactHeaders params redirect id hop) where
  asAnnounced := hann
  finished := rfl
  redirected := isRedirectHop_endedHop cfg params redirect id hop
  status := by
    unfold Json.index
    rw [hr]
    rfl

/-- The announced request itself: its chain starts anew, or is one hop longer. -/
theorem traced_accept_self (ht : HopsFresh t) (hplain : Plain (idOf params)) {hops : List Json}
    (h : Traced cfg t (idOf params) hops) (hkept : (t.accept cfg params).truncated = false) :
    Traced cfg (t.accept cfg params) (idOf params)
      (if (params.get "redirectResponse").isSome then params :: hops else [params]) := by
  obtain ⟨hend, hacc⟩ | ⟨redirect, hop, hr, hhop, ⟨-, hacc⟩ | ⟨-, hacc⟩⟩ := t.accept_cases cfg params
  · have hone : (if (params.get "redirectResponse").isSome then params :: hops else [params]) = [params] := by
      split
      · next hr =>
        obtain ⟨redirect, hr⟩ := Option.isSome_iff_exists.mp hr
        unfold RequestTable.ending at hend
        rw [hr, Option.bind_some, Option.map_eq_none_iff] at hend
        cases hops with
        | nil => rfl
        | cons last older =>
          obtain ⟨entry, hentry, -⟩ := h
          rw [hend] at hentry
          cases hentry
      · rfl
    rw [hone, hacc]
    exact ⟨_, t.put_entry_self _ _, rfl, rfl⟩
  · rw [hacc] at hkept
    cases hkept
  · rw [if_pos (by rw [hr]; rfl), hacc]
    cases hops with
    | nil =>
      rw [show t.entry (idOf params) = none from h] at hhop
      cases hhop
    | cons last older =>
      obtain ⟨entry, hentry, hann, hchain⟩ := h
      rw [hhop] at hentry
      cases hentry
      have hat : t.hopAt params = hopId (idOf params) (t.hops (idOf params)) := rfl
      refine ⟨_, RequestTable.put_entry_self _ _ _, rfl, t.hops (idOf params), _, rfl,
        (link_entry_hopId hplain _ _ _).trans (moveHop_entry_self redirect hop), endedBy_endedHop hr hann _, ?_⟩
      refine hchain.mono fun k hk => ?_
      rw [link_entry_hopId hplain]
      refine moveHop_entry_of_ne redirect hop fun heq => ?_
      rw [heq, ht.hopAt_free params] at hk
      cases hk

theorem traced_accept_of_ne (ht : HopsFresh t) (hplain : Plain (idOf params)) (hid : Plain id) (hne : idOf params ≠ id)
    {hops : List Json} (h : Traced cfg t id hops) : Traced cfg (t.accept cfg params) id hops := by
  refine h.mono (t.accept_entry_of_ne cfg params hne.symm (plain_ne_hopId hid _ _)) fun k hk => ?_
  refine t.accept_entry_of_ne cfg params (plain_ne_hopId hplain id k).symm fun heq => ?_
  rw [heq, ht.hopAt_free params] at hk
  cases hk

theorem Traced.claimMain {hops : List Json} (h : Traced cfg t id hops) : Traced cfg (t.claimMain cfg params) id hops :=
  h.mono (by rw [RequestTable.claimMain_entry]) fun k _ => by rw [RequestTable.claimMain_entry]

theorem asAnnounced_write (r : Report) (params : Json) (entry : NetworkEntry) :
    (r.write cfg params entry).asAnnounced = entry.asAnnounced ∧
      (r.write cfg params entry).redirectFromRequestId = entry.redirectFromRequestId := by
  cases r <;> exact ⟨rfl, rfl⟩

/-- A report on a request leaves its chain alone. -/
theorem traced_write (hplain : Plain (idOf params)) (r : Report) {hops : List Json} (h : Traced cfg t id hops) :
    Traced cfg (t.write (idOf params) (r.write cfg params)) id hops := by
  have hkept (k : ℕ) : (t.write (idOf params) (r.write cfg params)).entry (hopId id k) = t.entry (hopId id k) :=
    t.write_entry_of_ne _ (plain_ne_hopId hplain id k).symm
  by_cases hid : id = idOf params
  · subst hid
    cases hops with
    | nil =>
      show (t.write (idOf params) (r.write cfg params)).entry (idOf params) = none
      rw [t.write_entry_self, show t.entry (idOf params) = none from h]
      rfl
    | cons last hops =>
      obtain ⟨entry, hentry, hann, hchain⟩ := h
      obtain ⟨hsame, hlink⟩ : (r.write cfg params entry).asAnnounced = _ ∧ _ := asAnnounced_write r params entry
      refine ⟨r.write cfg params entry, ?_, hsame.trans hann, ?_⟩
      · rw [t.write_entry_self, hentry]
        rfl
      · rw [hlink]
        exact hchain.mono fun k _ => hkept k
  · exact h.mono (t.write_entry_of_ne _ hid) fun k _ => hkept k

end

/-! ## Runs -/

section
variable {cfg : CollectorConfig}

theorem truncated_accept {t : RequestTable} {params : Json} (h : t.truncated = true) :
    (t.accept cfg params).truncated = true := by
  obtain ⟨-, hacc⟩ | ⟨redirect, hop, -, -, ⟨-, hacc⟩ | ⟨-, hacc⟩⟩ := t.accept_cases cfg params
  · rw [hacc]
    exact h
  · rw [hacc]
    rfl
  · rw [hacc]
    exact h

/-- Truncation is not taken back. -/
theorem truncated_apply {t : RequestTable} (c : Change) (h : t.truncated = true) : (t.apply cfg c).truncated = true := by
  cases c with
  | announce params =>
    show (t.announce cfg params).truncated = true
    unfold RequestTable.announce
    split
    · rfl
    · exact truncated_accept (by rw [RequestTable.claimMain_truncated]; exact h)
  | report r params => exact h
  | choose id => exact h
  | keep => exact h

theorem PlainIds.of_append {xs ys : List CollectorStep} (h : PlainIds (xs ++ ys)) : PlainIds xs :=
  fun event now hmem => h event now (List.mem_append_left _ hmem)

theorem PlainIds.of_concat {es : List CollectorStep} {e : CollectorStep} (h : PlainIds (es ++ [e])) :
    PlainIds es ∧ ∀ event now, e = .event event now → Plain (idOf event.params) := by
  refine ⟨h.of_append, fun event now he => ?_⟩
  exact h event now (List.mem_append_right _ (by rw [he]; exact List.mem_singleton_self _))

theorem hops_fresh {es : List CollectorStep} (h : PlainIds es) : HopsFresh (collect cfg es).table := by
  refine collect_history (P := fun es t => PlainIds es → HopsFresh t) ?_ ?_ es h
  · intro _ r k hk
    cases hk
  · intro es e ih hes
    obtain ⟨hpre, he⟩ := hes.of_concat
    exact (ih hpre).apply (isPlain_changeOf he)

/-- One step: every chain stays as the announcements have it, unless something is left out. -/
theorem traced_apply {es : List CollectorStep} {e : CollectorStep} {id : String} (hes : PlainIds (es ++ [e]))
    (hid : Plain id) (h : Traced cfg (collect cfg es).table id (announcements cfg id es))
    (hkept : ((collect cfg es).table.apply cfg (changeOf cfg (collect cfg es) e)).truncated = false) :
    Traced cfg ((collect cfg es).table.apply cfg (changeOf cfg (collect cfg es) e)) id
      (announcements cfg id (es ++ [e])) := by
  obtain ⟨hpre, he⟩ := hes.of_concat
  have hfresh : HopsFresh (collect cfg es).table := hops_fresh hpre
  have hplain : (changeOf cfg (collect cfg es) e).IsPlain := isPlain_changeOf he
  rw [announcements_concat, ← announcement_changeOf cfg (collect cfg es)]
  cases hc : changeOf cfg (collect cfg es) e with
  | announce params =>
    rw [hc] at hkept hplain
    show Traced cfg ((collect cfg es).table.announce cfg params) id (if idOf params = id then _ else _)
    change ((collect cfg es).table.announce cfg params).truncated = false at hkept
    unfold RequestTable.announce at hkept ⊢
    split at hkept
    · cases hkept
    · next hacc =>
      rw [if_neg hacc]
      have hclaimed : HopsFresh ((collect cfg es).table.claimMain cfg params) := hfresh.claimMain
      split
      · next heq =>
        subst heq
        exact traced_accept_self hclaimed hplain h.claimMain hkept
      · next hne => exact traced_accept_of_ne hclaimed hplain hid hne h.claimMain
  | report r params =>
    rw [hc] at hplain
    exact traced_write hplain r h
  | choose main => exact h.mono rfl fun _ _ => rfl
  | keep => exact h

/-- **Chains.**  As long as nothing is left out, the links from a request lead to exactly its hops. -/
theorem collect_traced {es : List CollectorStep} (h : PlainIds es) (hkept : (collect cfg es).truncated = false)
    {id : String} (hid : Plain id) : Traced cfg (collect cfg es).table id (announcements cfg id es) := by
  refine collect_history
    (P := fun es t => PlainIds es → t.truncated = false → Traced cfg t id (announcements cfg id es)) ?_ ?_ es h hkept
  · intro _ _
    rfl
  · intro es e ih hes htrunc
    refine traced_apply hes hid (ih hes.of_concat.1 ?_) htrunc
    cases hb : (collect cfg es).table.truncated with
    | false => rfl
    | true =>
      rw [truncated_apply _ hb] at htrunc
      cases htrunc

end

end Afhttp.Collect
import Afhttp.Host.Takeover
import Afhttp.Lib.Run

/-!
# A handoff is exchanged once

A fixed handoff should yield one lease, and none once it is revoked.  The handler does not
look at what became of the handoff while its request waited for the readiness probe: a
second request with the same link mints a second lease (`two_leases`), and so does one whose
handoff has been revoked meanwhile.  The runs without both are exactly those where no lease
is minted beside an exchange of the same handoff, or after a revocation, that came in
between (`single_use`).
-/

namespace Afhttp.Host.TakeoverHost

variable {R : Type} {s s' : TakeoverHost R}

def Alive (s : TakeoverHost R) (secret : String) : Prop := secret ∉ s.expired ∧ secret ∉ s.revoked

instance (s : TakeoverHost R) (secret : String) : Decidable (s.Alive secret) :=
  inferInstanceAs (Decidable (secret ∉ s.expired ∧ secret ∉ s.revoked))

/-- The lease is live and was minted on the authority of `h`. -/
def Holds (s : TakeoverHost R) (h lease : String) : Prop := s.authority lease = some h ∧ s.Alive lease

/-! ## The credentials that a request can present -/

theorem isLive_iff (token : UiAccessToken) : s.isLive token = true ↔ s.Alive token.secret := by
  unfold isLive Alive
  rw [Bool.and_eq_true, Bool.not_eq_true', Bool.not_eq_true', decide_eq_false_iff_not, decide_eq_false_iff_not]

theorem mem_retainLive {token : UiAccessToken} :
    token ∈ s.retainLive.handoffs ↔ token ∈ s.handoffs ∧ s.Alive token.secret := by
  show token ∈ s.handoffs.filter s.isLive ↔ _
  rw [List.mem_filter, isLive_iff]

theorem authorizing_some {ui : UiAccess} (hui : ui.Exact) {secret : String} {token : UiAccessToken}
    (h : s.authorizing ui secret = some token) :
    token ∈ s.handoffs ∧ token.secret = secret ∧ s.Alive secret := by
  have hexact : secret = token.secret := by
    have hfound := List.find?_some (p := fun t : UiAccessToken => ui.authorize t.secret secret) h
    exact (hui token.secret secret).mp hfound
  obtain ⟨hmem, hlive⟩ := mem_retainLive.mp (List.mem_of_find?_eq_some h)
  exact ⟨hmem, hexact.symm, hexact ▸ hlive⟩

/-- What holds in every run. -/
structure Inv (s : TakeoverHost R) : Prop where
  listed : ∀ token ∈ s.handoffs, token.secret ∈ s.issued
  ended : ∀ a, ¬ s.Alive a → a ∈ s.issued
  /-- A live credential is on the list. -/
  kept : ∀ a ∈ s.issued, s.Alive a → ∃ token ∈ s.handoffs, token.secret = a
  fixed : s.fixed ⊆ s.issued
  named : ∀ a h, s.authority a = some h → a ∈ s.issued ∧ h ∈ s.issued
  fresh : ∀ r, s.requests r = none → s.revokedUnder r = false ∧ s.rivals r = ∅
  waits : ∀ r h, s.requests r = some (.probing (some h)) →
    h ∈ s.issued ∧ (s.revokedUnder r = true ↔ h ∈ s.revoked)
  minted : ∀ r h a, s.requests r = some (.minted h a) → s.authority a = h ∧ a ∈ s.issued
  rivals : ∀ r h, s.requests r = some (.probing (some h)) → ∀ a ∈ s.rivals r, s.authority a = some h
  /-- The live leases on a waiting request's credential are those of exchanges it overlaps. -/
  overlap : ∀ r h, s.requests r = some (.probing (some h)) → ∀ a, s.Holds h a →
    a ∈ s.rivals r ∨ ∃ r', s.requests r' = some (.minted (some h) a)
  /-- A credential outlives no exchange. -/
  through : ∀ a h, s.Holds h a → s.Alive h → ∃ r, s.requests r = some (.minted (some h) a)

theorem authorizing_none {ui : UiAccess} (hui : ui.Exact) (hs : s.Inv) {secret : String}
    (h : s.authorizing ui secret = none) (hi : secret ∈ s.issued) : ¬ s.Alive secret := by
  intro hlive
  obtain ⟨token, hmem, rfl⟩ := hs.kept secret hi hlive
  have hno := List.find?_eq_none.mp h token (mem_retainLive.mpr ⟨hmem, hlive⟩)
  exact hno ((hui token.secret token.secret).mpr rfl)

theorem Inv.start : (start R).Inv where
  listed token h := absurd h List.not_mem_nil
  ended a h := absurd ⟨Finset.notMem_empty a, Finset.notMem_empty a⟩ h
  kept a h := absurd h (Finset.notMem_empty a)
  fixed := Finset.Subset.refl _
  named a h hn := by cases hn
  fresh r h := ⟨rfl, rfl⟩
  waits r h hr := by cases hr
  minted r h a hr := by cases hr
  rivals r h hr := by cases hr
  overlap r h hr := by cases hr
  through a h hh := by cases hh.1

theorem Inv.retainLive (hs : s.Inv) : s.retainLive.Inv :=
  { hs with
    listed := fun token h => hs.listed token (mem_retainLive.mp h).1
    kept := by
      intro a hi hlive
      obtain ⟨token, hmem, rfl⟩ := hs.kept a hi hlive
      exact ⟨token, mem_retainLive.mpr ⟨hmem, hlive⟩, rfl⟩ }

theorem alive_revoke {secrets : Finset String} {a : String} :
    (s.revoke secrets).Alive a ↔ s.Alive a ∧ a ∉ secrets := by
  show a ∉ s.expired ∧ a ∉ s.revoked ∪ secrets ↔ (a ∉ s.expired ∧ a ∉ s.revoked) ∧ a ∉ secrets
  rw [Finset.mem_union, not_or, and_assoc]

theorem Inv.revoke (hs : s.Inv) {secrets : Finset String} (hi : secrets ⊆ s.issued) : (s.revoke secrets).Inv where
  listed := hs.listed
  ended a h := by
    by_cases ha : a ∈ secrets
    · exact hi ha
    · exact hs.ended a fun hlive => h (alive_revoke.mpr ⟨hlive, ha⟩)
  kept a ha hlive := hs.kept a ha (alive_revoke.mp hlive).1
  fixed := hs.fixed
  named := hs.named
  fresh r hr := by
    obtain ⟨hu, hrv⟩ := hs.fresh r hr
    have hr : s.requests r = none := hr
    refine ⟨?_, hrv⟩
    show (s.revokedUnder r || _) = false
    rw [hu, hr, Bool.false_or]
  waits r h hr := by
    obtain ⟨hh, hu⟩ := hs.waits r h hr
    have hr : s.requests r = some (.probing (some h)) := hr
    refine ⟨hh, ?_⟩
    show (s.revokedUnder r || _) = true ↔ h ∈ s.revoked ∪ secrets
    rw [hr, Bool.or_eq_true, decide_eq_true_eq, Finset.mem_union, hu]
  minted := hs.minted
  rivals := hs.rivals
  overlap r h hr a ha := hs.overlap r h hr a ⟨ha.1, (alive_revoke.mp ha.2).1⟩
  through a h ha hh := hs.through a h ⟨ha.1, (alive_revoke.mp ha.2).1⟩ (alive_revoke.mp hh).1

/-- A new credential. -/
theorem Inv.issueTakeoverToken (hs : s.Inv) (token : UiAccessToken) : (s.issueTakeoverToken token).Inv where
  listed t ht := by
    rcases List.mem_append.mp ht with ht | ht
    · exact Finset.mem_insert_of_mem (hs.listed t (mem_retainLive.mp ht).1)
    · rw [List.mem_singleton.mp ht]
      exact Finset.mem_insert_self _ _
  ended a h := Finset.mem_insert_of_mem (hs.ended a h)
  kept a ha hlive := by
    rcases Finset.mem_insert.mp ha with rfl | ha
    · exact ⟨token, List.mem_append_right _ (List.mem_singleton.mpr rfl), rfl⟩
    · obtain ⟨t, ht, rfl⟩ := hs.retainLive.kept a ha hlive
      exact ⟨t, List.mem_append_left _ ht, rfl⟩
  fixed := hs.fixed.trans (Finset.subset_insert _ _)
  named a h hn := ⟨Finset.mem_insert_of_mem (hs.named a h hn).1, Finset.mem_insert_of_mem (hs.named a h hn).2⟩
  fresh := hs.fresh
  waits r h hr := ⟨Finset.mem_insert_of_mem (hs.waits r h hr).1, (hs.waits r h hr).2⟩
  minted r h a hr := ⟨(hs.minted r h a hr).1, Finset.mem_insert_of_mem (hs.minted r h a hr).2⟩
  rivals := hs.rivals
  overlap := hs.overlap
  through := hs.through

/-- A secret that was not issued is not dead. -/
theorem Inv.alive_new (hs : s.Inv) {a : String} (ha : a ∉ s.issued) : s.Alive a := by
  by_contra h
  exact ha (hs.ended a h)

theorem Inv.revokeTakeoverHandoff {ui : UiAccess} (hui : ui.Exact) (hs : s.Inv) (secret : String) :
    (s.revokeTakeoverHandoff ui secret).1.Inv := by
  unfold TakeoverHost.revokeTakeoverHandoff
  split
  · exact hs.retainLive
  · next token h =>
    refine (hs.retainLive.revoke (Finset.singleton_subset_iff.mpr ?_)).retainLive
    exact hs.listed token (authorizing_some hui h).1

/-- What a revocation leaves as it is, and what it does to the credential. -/
theorem revokeTakeoverHandoff_spec {ui : UiAccess} (hui : ui.Exact) (hs : s.Inv) (secret : String) :
    let s' := (s.revokeTakeoverHandoff ui secret).1
    s'.requests = s.requests ∧ s'.authority = s.authority ∧ s'.rivals = s.rivals ∧ s'.fixed = s.fixed ∧
      s'.late = s.late ∧ (∀ a, s'.Alive a → s.Alive a) ∧ (secret ∈ s.issued → ¬ s'.Alive secret) := by
  unfold TakeoverHost.revokeTakeoverHandoff
  split
  · next h => exact ⟨rfl, rfl, rfl, rfl, rfl, fun _ h => h, authorizing_none hui hs h⟩
  · next token h =>
    refine ⟨rfl, rfl, rfl, rfl, rfl, fun a ha => (alive_revoke (s := s.retainLive).mp ha).1, fun _ ha => ?_⟩
    have hno := (alive_revoke (s := s.retainLive).mp ha).2
    exact hno (Finset.mem_singleton.mpr (authorizing_some hui h).2.1.symm)

theorem Inv.revokeTakeoverHandoffs (hs : s.Inv) : s.revokeTakeoverHandoffs.Inv := by
  have hsub : (s.handoffs.map UiAccessToken.secret).toFinset ⊆ s.issued := by
    intro a ha
    obtain ⟨token, ht, rfl⟩ := List.mem_map.mp (List.mem_toFinset.mp ha)
    exact hs.listed token ht
  refine { hs.revoke hsub with listed := fun t ht => absurd ht List.not_mem_nil, kept := fun a ha hlive => ?_ }
  -- a live credential is on the list, so it is revoked
  obtain ⟨hlive, hno⟩ := (alive_revoke (s := s)).mp hlive
  obtain ⟨token, ht, rfl⟩ := hs.kept a ha hlive
  exact absurd (List.mem_toFinset.mpr (List.mem_map_of_mem ht)) hno

/-! ## The requests -/

variable [DecidableEq R]

theorem put_self {r : R} {x : UiSessionCreate} : (s.put r x).requests r = some x := Function.update_self ..

theorem put_of_ne {r r' : R} {x : UiSessionCreate} (h : r' ≠ r) : (s.put r x).requests r' = s.requests r' :=
  Function.update_of_ne h ..

/-- A request that goes on stood there before the other one came to its end. -/
theorem put_done_some {r r' : R} {x : UiSessionCreate} (h : (s.put r .done).requests r' = some x)
    (hx : x ≠ .done) : s.requests r' = some x ∧ r' ≠ r := by
  by_cases hne : r' = r
  · rw [hne, put_self, Option.some.injEq] at h
    exact absurd h.symm hx
  · rw [put_of_ne hne] at h
    exact ⟨h, hne⟩

/-- A request ends.  If it has minted, its lease is dead, or its handoff is and the requests
that wait on the same handoff know of the lease. -/
theorem Inv.put_done (hs : s.Inv) {r : R}
    (hr : ∀ h a, s.requests r = some (.minted (some h) a) → s.Alive a →
      ¬ s.Alive h ∧ ∀ r', s.requests r' = some (.probing (some h)) → a ∈ s.rivals r') :
    (s.put r .done).Inv where
  listed := hs.listed
  ended := hs.ended
  kept := hs.kept
  fixed := hs.fixed
  named := hs.named
  fresh r' hr' := by
    by_cases hne : r' = r
    · rw [hne, put_self] at hr'
      cases hr'
    · rw [put_of_ne hne] at hr'
      exact hs.fresh r' hr'
  waits r' h hr' := hs.waits r' h (put_done_some hr' (by simp)).1
  minted r' h a hr' := hs.minted r' h a (put_done_some hr' (by simp)).1
  rivals r' h hr' := hs.rivals r' h (put_done_some hr' (by simp)).1
  overlap r' h hr' a ha := by
    have hr' := (put_done_some hr' (by simp)).1
    rcases hs.overlap r' h hr' a ha with hin | ⟨r'', hm⟩
    · exact Or.inl hin
    · by_cases hne : r'' = r
      · rw [hne] at hm
        exact Or.inl ((hr h a hm ha.2).2 r' hr')
      · exact Or.inr ⟨r'', by rw [put_of_ne hne]; exact hm⟩
  through a h ha hh := by
    obtain ⟨r', hm⟩ := hs.through a h ha hh
    by_cases hne : r' = r
    · rw [hne] at hm
      exact absurd hh (hr h a hm ha.2).1
    · exact ⟨r', by rw [put_of_ne hne]; exact hm⟩

/-- A request that has not minted ends. -/
theorem Inv.put_done_unminted (hs : s.Inv) {r : R} (hr : ∀ h a, s.requests r ≠ some (.minted h a)) :
    (s.put r .done).Inv :=
  hs.put_done fun h a hm => absurd hm (hr (some h) a)

/-- A request comes through the middleware, with a live credential or with none. -/
theorem Inv.put_probing (hs : s.Inv) {r : R} (hr : s.requests r = none) {handoff : Option String}
    (hh : ∀ h, handoff = some h → h ∈ s.issued ∧ s.Alive h) : (s.put r (.probing handoff)).Inv := by
  have cases' : ∀ r' x, (s.put r (.probing handoff)).requests r' = some x →
      s.requests r' = some x ∨ r' = r ∧ x = .probing handoff := by
    intro r' x h
    by_cases hne : r' = r
    · rw [hne, put_self, Option.some.injEq] at h
      exact Or.inr ⟨hne, h.symm⟩
    · rw [put_of_ne hne] at h
      exact Or.inl h
  have keeps : ∀ r' x, s.requests r' = some x → (s.put r (.probing handoff)).requests r' = some x := by
    intro r' x h
    rw [put_of_ne]
    · exact h
    · rintro rfl
      rw [hr] at h
      cases h
  obtain ⟨hunder, hrivals⟩ := hs.fresh r hr
  refine { hs with fresh := ?_, waits := ?_, minted := ?_, rivals := ?_, overlap := ?_, through := ?_ }
  · intro r' hr'
    by_cases hne : r' = r
    · rw [hne, put_self] at hr'
      cases hr'
    · rw [put_of_ne hne] at hr'
      exact hs.fresh r' hr'
  · intro r' h hr'
    rcases cases' r' _ hr' with hr' | ⟨rfl, hx⟩
    · exact hs.waits r' h hr'
    · have hx : some h = handoff := by simpa using hx
      obtain ⟨hi, hlive⟩ := hh h hx.symm
      refine ⟨hi, iff_of_false ?_ hlive.2⟩
      show ¬ s.revokedUnder r' = true
      rw [hunder]
      exact Bool.false_ne_true
  · intro r' h a hr'
    rcases cases' r' _ hr' with hr' | ⟨rfl, hx⟩
    · exact hs.minted r' h a hr'
    · cases hx
  · intro r' h hr' a ha
    rcases cases' r' _ hr' with hr' | ⟨rfl, -⟩
    · exact hs.rivals r' h hr' a ha
    · have ha : a ∈ s.rivals r' := ha
      rw [hrivals] at ha
      exact absurd ha (Finset.notMem_empty a)
  · intro r' h hr' a ha
    rcases cases' r' _ hr' with hr' | ⟨rfl, hx⟩
    · rcases hs.overlap r' h hr' a ha with hin | ⟨r'', hm⟩
      · exact Or.inl hin
      · exact Or.inr ⟨r'', keeps r'' _ hm⟩
    · -- its credential is live, so whoever minted on it is not through
      have hx : some h = handoff := by simpa using hx
      obtain ⟨r'', hm⟩ := hs.through a h ha (hh h hx.symm).2
      exact Or.inr ⟨r'', keeps r'' _ hm⟩
  · intro a h ha hlive
    obtain ⟨r', hm⟩ := hs.through a h ha hlive
    exact ⟨r', keeps r' _ hm⟩

theorem Inv.begun (hs : s.Inv) (cfg : TakeoverConfig) {r : R} (hr : s.requests r = none)
    {handoff : Option String} (hh : ∀ h, handoff = some h → h ∈ s.issued ∧ s.Alive h) :
    (s.put r (begun cfg handoff)).Inv := by
  unfold TakeoverHost.begun
  split
  · exact hs.put_probing hr hh
  · exact hs.put_done_unminted fun h a hm => by rw [hr] at hm; cases hm

theorem Inv.arrive {ui : UiAccess} (hui : ui.Exact) (hs : s.Inv) (cfg : TakeoverConfig) {r : R}
    (hr : s.requests r = none) (bearer : Bool) (secret : Option String) :
    (s.arrive ui cfg r bearer secret).Inv := by
  have hother : ∀ s' : TakeoverHost R, s'.Inv → s'.requests r = none →
      (s'.put r (if cfg.token then .done else TakeoverHost.begun cfg none)).Inv := by
    intro s' hs' hr'
    split
    · exact hs'.put_done_unminted fun h a hm => by rw [hr'] at hm; cases hm
    · exact hs'.begun cfg hr' (by simp)
  unfold TakeoverHost.arrive
  by_cases hb : (cfg.token && bearer) = true
  · rw [if_pos hb]
    exact hs.begun cfg hr (by simp)
  · rw [if_neg hb]
    cases secret with
    | none => exact hother s hs hr
    | some secret =>
      cases hfound : s.authorizing ui secret with
      | none =>
        simp only [hfound]
        exact hother _ hs.retainLive hr
      | some token =>
        simp only [hfound]
        refine hs.retainLive.begun cfg hr fun h hh => ?_
        obtain ⟨hmem, heq, hlive⟩ := authorizing_some hui hfound
        cases hh
        exact ⟨heq ▸ hs.listed token hmem, hlive⟩

/-- A lease is minted. -/
theorem Inv.mint (hs : s.Inv) {r : R} {handoff : Option String} (hr : s.requests r = some (.probing handoff))
    {lease : String} (hnew : lease ∉ s.issued) : (s.mint r handoff lease).Inv := by
  have hi := hs.issueTakeoverToken ⟨lease, .idle takeoverUiSessionIdleTimeoutS⟩
  have hauth : ∀ a h, (s.mint r handoff lease).authority a = some h →
      a = lease ∧ handoff = some h ∨ a ≠ lease ∧ s.authority a = some h := by
    intro a h ha
    have ha : Function.update s.authority lease handoff a = some h := ha
    by_cases hal : a = lease
    · rw [hal, Function.update_self] at ha
      exact Or.inl ⟨hal, ha⟩
    · rw [Function.update_of_ne hal] at ha
      exact Or.inr ⟨hal, ha⟩
  have hkeep : ∀ a, a ∈ s.issued → (s.mint r handoff lease).authority a = s.authority a := by
    intro a ha
    show Function.update s.authority lease handoff a = s.authority a
    rw [Function.update_of_ne]
    rintro rfl
    exact hnew ha
  have hreq : ∀ r' x, (s.mint r handoff lease).requests r' = some x →
      r' = r ∧ x = .minted handoff lease ∨ r' ≠ r ∧ s.requests r' = some x := by
    intro r' x h
    have h : Function.update s.requests r (some (.minted handoff lease)) r' = some x := h
    by_cases hne : r' = r
    · rw [hne, Function.update_self, Option.some.injEq] at h
      exact Or.inl ⟨hne, h.symm⟩
    · rw [Function.update_of_ne hne] at h
      exact Or.inr ⟨hne, h⟩
  have hmint : (s.mint r handoff lease).requests r = some (.minted handoff lease) := Function.update_self ..
  have hothers : ∀ r' h a, s.requests r' = some (.minted h a) →
      (s.mint r handoff lease).requests r' = some (.minted h a) := by
    intro r' h a hm
    show Function.update s.requests r (some (.minted handoff lease)) r' = _
    rw [Function.update_of_ne]
    · exact hm
    · rintro rfl
      rw [hr] at hm
      cases hm
  refine { hi with named := ?_, fresh := ?_, waits := ?_, minted := ?_, rivals := ?_, overlap := ?_, through := ?_ }
  · intro a h ha
    rcases hauth a h ha with ⟨rfl, rfl⟩ | ⟨-, ha⟩
    · exact ⟨Finset.mem_insert_self _ _, Finset.mem_insert_of_mem (hs.waits r h hr).1⟩
    · exact hi.named a h ha
  · intro r' hr'
    have hr' : Function.update s.requests r (some (.minted handoff lease)) r' = none := hr'
    by_cases hne : r' = r
    · rw [hne, Function.update_self] at hr'
      cases hr'
    · rw [Function.update_of_ne hne] at hr'
      exact hs.fresh r' hr'
  · intro r' h hr'
    rcases hreq r' _ hr' with ⟨-, hx⟩ | ⟨-, hr'⟩
    · cases hx
    · exact hi.waits r' h hr'
  · intro r' h a hr'
    rcases hreq r' _ hr' with ⟨-, hx⟩ | ⟨-, hr'⟩
    · cases hx
      exact ⟨Function.update_self .., Finset.mem_insert_self _ _⟩
    · obtain ⟨ha, hia⟩ := hs.minted r' h a hr'
      exact ⟨(hkeep a hia).trans ha, Finset.mem_insert_of_mem hia⟩
  · intro r' h hr' a ha
    rcases hreq r' _ hr' with ⟨-, hx⟩ | ⟨-, hr'⟩
    · cases hx
    · have hold := hs.rivals r' h hr' a ha
      exact (hkeep a (hs.named a h hold).1).trans hold
  · intro r' h hr' a ha
    rcases hreq r' _ hr' with ⟨-, hx⟩ | ⟨-, hr'⟩
    · cases hx
    · rcases hauth a h ha.1 with ⟨rfl, rfl⟩ | ⟨-, hold⟩
      · exact Or.inr ⟨r, hmint⟩
      · rcases hs.overlap r' h hr' a ⟨hold, ha.2⟩ with hin | ⟨r'', hm⟩
        · exact Or.inl hin
        · exact Or.inr ⟨r'', hothers r'' _ a hm⟩
  · intro a h ha hlive
    rcases hauth a h ha.1 with ⟨rfl, rfl⟩ | ⟨-, hold⟩
    · exact ⟨r, hmint⟩
    · obtain ⟨r'', hm⟩ := hs.through a h ⟨hold, ha.2⟩ hlive
      exact ⟨r'', hothers r'' _ a hm⟩

/-- An exchange comes through: its handoff is dead, and whoever waits on it knows of the lease. -/
theorem Inv.exchange {ui : UiAccess} (hui : ui.Exact) (hs : s.Inv) {r : R} {handoff : Option String}
    {lease : String} (hr : s.requests r = some (.minted handoff lease)) : (s.exchange ui r handoff lease).Inv := by
  cases handoff with
  | none =>
    refine hs.put_done fun h a hm => ?_
    rw [hr] at hm
    cases hm
  | some h =>
    obtain ⟨hreq, hauth, hriv, -, -, hmono, hdead⟩ := revokeTakeoverHandoff_spec hui hs h
    have hrev := hs.revokeTakeoverHandoff hui h
    have hmint := hs.minted r (some h) lease hr
    -- the state after the revocation, with the lease made known
    have hknown : ({ (s.revokeTakeoverHandoff ui h).1 with
        rivals := fun r' =>
          if s.requests r' = some (.probing (some h)) then insert lease (s.rivals r') else s.rivals r' } :
        TakeoverHost R).Inv := by
      refine { hrev with fresh := ?_, rivals := ?_, overlap := ?_ }
      · intro r' hr'
        have hr' : (s.revokeTakeoverHandoff ui h).1.requests r' = none := hr'
        refine ⟨(hrev.fresh r' hr').1, ?_⟩
        rw [hreq] at hr'
        show (if _ then _ else _) = _
        rw [hr', if_neg (by simp)]
        exact (hs.fresh r' hr').2
      · intro r' h' hr' a ha
        have hr' : (s.revokeTakeoverHandoff ui h).1.requests r' = some (.probing (some h')) := hr'
        rw [hreq] at hr'
        have ha : a ∈ if s.requests r' = some (.probing (some h)) then insert lease (s.rivals r')
          else s.rivals r' := ha
        show (s.revokeTakeoverHandoff ui h).1.authority a = some h'
        rw [hauth]
        split at ha
        · next hp =>
          rw [hr', Option.some.injEq, UiSessionCreate.probing.injEq, Option.some.injEq] at hp
          rcases Finset.mem_insert.mp ha with rfl | ha
          · rw [hmint.1, hp]
          · exact hs.rivals r' h' hr' a ha
        · exact hs.rivals r' h' hr' a ha
      · intro r' h' hr' a ha
        rcases hrev.overlap r' h' hr' a ha with hin | hm
        · left
          rw [hriv] at hin
          show a ∈ if s.requests r' = some (.probing (some h)) then insert lease (s.rivals r') else s.rivals r'
          split
          · exact Finset.mem_insert_of_mem hin
          · exact hin
        · exact Or.inr hm
    refine hknown.put_done fun h' a hm ha => ?_
    have hm : (s.revokeTakeoverHandoff ui h).1.requests r = some (.minted (some h') a) := hm
    rw [hreq, hr, Option.some.injEq, UiSessionCreate.minted.injEq, Option.some.injEq] at hm
    obtain ⟨rfl, rfl⟩ := hm
    refine ⟨hdead (hs.named lease h hmint.1).2, fun r' hr' => ?_⟩
    have hr' : (s.revokeTakeoverHandoff ui h).1.requests r' = some (.probing (some h)) := hr'
    rw [hreq] at hr'
    show lease ∈ if s.requests r' = some (.probing (some h)) then insert lease (s.rivals r') else s.rivals r'
    rw [if_pos hr']
    exact Finset.mem_insert_self _ _

/-! ## Every run -/

/-- What a step can do to the leases: make a new fixed handoff, mint a lease, or let leases die. -/
inductive Change (s : TakeoverHost R) : TakeoverEvent R → TakeoverHost R → Prop where
  | handoff (secret : String) (ttlS : ℕ) (new : secret ∉ s.issued) : Change s (.issueHandoff secret ttlS)
      { s.issueTakeoverToken ⟨secret, .after ttlS⟩ with fixed := insert secret s.fixed }
  | mint (r : R) (handoff : Option String) (lease : String) (request : s.requests r = some (.probing handoff))
      (new : lease ∉ s.issued) : Change s (.mint r (some lease)) (s.mint r handoff lease)
  | quiet (e : TakeoverEvent R) (s' : TakeoverHost R) (notMint : ∀ r lease, e ≠ .mint r (some lease))
      (inv : s'.Inv) (fixed : s'.fixed = s.fixed) (late : s'.late = s.late)
      (holds : ∀ h a, s'.Holds h a → s.Holds h a) : Change s e s'

theorem step_change {ui : UiAccess} (hui : ui.Exact) {cfg : TakeoverConfig} (hs : s.Inv) {e : TakeoverEvent R}
    (h : s.step ui cfg e = some s') : Change s e s' := by
  cases e with
  | issueHandoff secret ttlS =>
    simp only [step] at h
    split at h
    · cases h
    · next hnew =>
      cases h
      exact .handoff secret ttlS hnew
  | arrive r bearer secret =>
    simp only [step] at h
    split at h
    · cases h
    · next hr =>
      cases h
      have hsame : (s.arrive ui cfg r bearer secret).fixed = s.fixed ∧
          (s.arrive ui cfg r bearer secret).late = s.late ∧
          ∀ h a, (s.arrive ui cfg r bearer secret).Holds h a → s.Holds h a := by
        unfold arrive
        simp only []
        split
        · exact ⟨rfl, rfl, fun _ _ h => h⟩
        · cases secret with
          | none => exact ⟨rfl, rfl, fun _ _ h => h⟩
          | some secret =>
            cases hfound : s.authorizing ui secret with
            | none =>
              simp only [hfound]
              exact ⟨rfl, rfl, fun _ _ h => h⟩
            | some token =>
              simp only [hfound]
              exact ⟨rfl, rfl, fun _ _ h => h⟩
      exact .quiet _ _ (by simp) (hs.arrive hui cfg hr bearer secret) hsame.1 hsame.2.1 hsame.2.2
  | unready r =>
    simp only [step] at h
    split at h
    · next hr =>
      cases h
      refine .quiet _ _ (by simp) (hs.put_done_unminted fun h a hm => ?_) rfl rfl fun _ _ h => h
      rw [hr] at hm
      cases hm
    · cases h
  | mint r secret =>
    simp only [step] at h
    split at h
    · next handoff hr =>
      cases secret with
      | none =>
        cases h
        refine .quiet _ _ (by simp) (hs.put_done_unminted fun h a hm => ?_) rfl rfl fun _ _ h => h
        rw [hr] at hm
        cases hm
      | some lease =>
        simp only [] at h
        split at h
        · cases h
        · next hnew =>
          cases h
          exact .mint r handoff lease hr hnew
    · cases h
  | noUrl r =>
    simp only [step] at h
    split at h
    · next handoff lease hr =>
      cases h
      have hi : ({lease} : Finset String) ⊆ s.issued :=
        Finset.singleton_subset_iff.mpr (hs.minted r handoff lease hr).2
      refine .quiet _ _ (by simp) ((hs.revoke hi).put_done fun h a hm ha => ?_) rfl rfl
        fun _ _ h => ⟨h.1, (alive_revoke (s := s).mp h.2).1⟩
      -- the lease has just been revoked
      have hm : s.requests r = some (.minted (some h) a) := hm
      rw [hr, Option.some.injEq, UiSessionCreate.minted.injEq] at hm
      exact absurd (Finset.mem_singleton.mpr hm.2.symm) (alive_revoke.mp ha).2
    · cases h
  | exchange r =>
    simp only [step] at h
    split at h
    · next handoff lease hr =>
      cases h
      have hinv := hs.exchange hui hr
      cases handoff with
      | none => exact .quiet _ _ (by simp) hinv rfl rfl fun _ _ h => h
      | some h =>
        obtain ⟨-, hauth, -, hfixed, hlate, hmono, -⟩ := revokeTakeoverHandoff_spec hui hs h
        refine .quiet _ _ (by simp) hinv hfixed hlate fun h' a ha => ⟨?_, hmono a ha.2⟩
        have ha : (s.revokeTakeoverHandoff ui h).1.authority a = some h' := ha.1
        rwa [hauth] at ha
    · cases h
  | delete secret =>
    cases h
    obtain ⟨-, hauth, -, hfixed, hlate, hmono, -⟩ := revokeTakeoverHandoff_spec hui hs secret
    refine .quiet _ _ (by simp) (hs.revokeTakeoverHandoff hui secret) hfixed hlate fun h a ha => ⟨?_, hmono a ha.2⟩
    rw [← hauth]
    exact ha.1
  | look =>
    cases h
    exact .quiet _ _ (by simp) hs.retainLive rfl rfl fun _ _ h => h
  | switchProfile =>
    cases h
    exact .quiet _ _ (by simp) hs.revokeTakeoverHandoffs rfl rfl
      fun _ _ h => ⟨h.1, (alive_revoke (s := s).mp h.2).1⟩
  | expire secret =>
    simp only [step] at h
    split at h
    · next hi =>
      cases h
      have hmono : ∀ a, ({ s with expired := insert secret s.expired } : TakeoverHost R).Alive a → s.Alive a := by
        intro a ha
        exact ⟨fun h => ha.1 (Finset.mem_insert_of_mem h), ha.2⟩
      refine .quiet _ _ (by simp) { hs with ended := ?_, kept := ?_, overlap := ?_, through := ?_ } rfl rfl
        fun _ a h => ⟨h.1, hmono a h.2⟩
      · intro a ha
        by_cases has : a = secret
        · rw [has]
          exact hi
        · refine hs.ended a fun hlive => ha ⟨fun h => ?_, hlive.2⟩
          rcases Finset.mem_insert.mp h with h | h
          · exact has h
          · exact hlive.1 h
      · exact fun a ha hlive => hs.kept a ha (hmono a hlive)
      · exact fun r h hr a ha => hs.overlap r h hr a ⟨ha.1, hmono a ha.2⟩
      · exact fun a h ha hh => hs.through a h ⟨ha.1, hmono a ha.2⟩ (hmono h hh)
    · cases h

/-- **Step.** -/
theorem Inv.step {ui : UiAccess} (hui : ui.Exact) {cfg : TakeoverConfig} (hs : s.Inv) {e : TakeoverEvent R}
    (h : s.step ui cfg e = some s') : s'.Inv := by
  cases step_change hui hs h with
  | handoff secret ttlS _ =>
    have hi := hs.issueTakeoverToken ⟨secret, .after ttlS⟩
    exact { hi with fixed := Finset.insert_subset_insert _ hs.fixed }
  | mint r handoff lease request new => exact hs.mint request new
  | quiet _ _ _ inv _ _ _ => exact inv

/-- Each fixed handoff has at most one live lease, and none was minted on a revoked one. -/
def SingleUse (s : TakeoverHost R) : Prop :=
  (∀ h ∈ s.fixed, ∀ a b, s.Holds h a → s.Holds h b → a = b) ∧ s.late = false

/-- The lease of an exchange of `h` that has minted and is not through. -/
def leaseOn (h : String) : Option UiSessionCreate → Option String
  | some (.minted (some h') lease) => if h' = h then some lease else none
  | _ => none

/-- Where a lease is minted on a fixed handoff: the handoff was not revoked while the request
waited, and no lease is live of another exchange of it that came through while the request
waited, or is not through. -/
def Undisturbed (s : TakeoverHost R) : TakeoverEvent R → Prop
  | .mint r (some _) => ∀ h ∈ s.fixed, s.requests r = some (.probing (some h)) →
    s.revokedUnder r = false ∧ (∀ a ∈ s.rivals r, ¬ s.Alive a) ∧
      ∀ r', ∀ a ∈ leaseOn h (s.requests r'), ¬ s.Alive a
  | _ => True

instance [Fintype R] (s : TakeoverHost R) : ∀ e, Decidable (s.Undisturbed e)
  | .mint r (some _) => inferInstanceAs (Decidable (∀ h ∈ s.fixed, s.requests r = some (.probing (some h)) →
      s.revokedUnder r = false ∧ (∀ a ∈ s.rivals r, ¬ s.Alive a) ∧
        ∀ r', ∀ a ∈ leaseOn h (s.requests r'), ¬ s.Alive a))
  | .mint _ none | .issueHandoff _ _ | .arrive _ _ _ | .unready _ | .noUrl _ | .exchange _ | .delete _ | .look
  | .switchProfile | .expire _ => isTrue trivial

omit [DecidableEq R] in
theorem leaseOn_some {h a : String} {x : Option UiSessionCreate} :
    leaseOn h x = some a ↔ x = some (.minted (some h) a) := by
  unfold leaseOn
  split
  · next h' lease =>
    by_cases hh : h' = h
    · simp [hh]
    · simp [hh]
  · next hno =>
    refine iff_of_false (by simp) ?_
    rintro rfl
    exact hno h a rfl

/-- A mint keeps single use iff it is undisturbed. -/
theorem singleUse_mint (hs : s.Inv) (hsu : s.SingleUse) {r : R} {handoff : Option String} {lease : String}
    (hr : s.requests r = some (.probing handoff)) (hnew : lease ∉ s.issued) :
    (s.mint r handoff lease).SingleUse ↔ s.Undisturbed (.mint r (some lease)) := by
  have hlease : ∀ h, handoff = some h → (s.mint r handoff lease).Holds h lease := by
    rintro h rfl
    exact ⟨Function.update_self .., hs.alive_new hnew⟩
  have hold : ∀ h a, s.Holds h a → (s.mint r handoff lease).Holds h a ∧ a ≠ lease := by
    intro h a ha
    have hne : a ≠ lease := by
      rintro rfl
      exact hnew (hs.named a h ha.1).1
    refine ⟨⟨?_, ha.2⟩, hne⟩
    show Function.update s.authority lease handoff a = some h
    rw [Function.update_of_ne hne]
    exact ha.1
  have hlate : (s.mint r handoff lease).late = false ↔ ∀ h ∈ s.fixed, handoff = some h → h ∉ s.revoked := by
    show (s.late || _) = false ↔ _
    rw [hsu.2, Bool.false_or]
    cases handoff with
    | none => simp
    | some h =>
      simp only [Option.any_some, Bool.and_eq_false_iff, decide_eq_false_iff_not, Option.some.injEq]
      constructor
      · rintro hor h' hfix rfl
        exact hor.resolve_left (fun hno => hno hfix)
      · intro hall
        by_cases hfix : h ∈ s.fixed
        · exact Or.inr (hall h hfix rfl)
        · exact Or.inl hfix
  constructor
  · rintro ⟨hone, hnl⟩ h hfix hreq
    have hh : handoff = some h := by
      rw [hr, Option.some.injEq, UiSessionCreate.probing.injEq] at hreq
      exact hreq
    have hdead : ∀ a, s.authority a = some h → ¬ s.Alive a := by
      intro a ha hlive
      obtain ⟨hholds, hne⟩ := hold h a ⟨ha, hlive⟩
      exact hne (hone h hfix a lease hholds (hlease h hh))
    refine ⟨?_, fun a ha => hdead a (hs.rivals r h hreq a ha), fun r' a ha => ?_⟩
    · rw [← Bool.not_eq_true, (hs.waits r h hreq).2]
      exact hlate.mp hnl h hfix hh
    · exact hdead a (hs.minted r' (some h) a (leaseOn_some.mp ha)).1
  · intro hund
    refine ⟨fun h hfix a b ha hb => ?_, hlate.mpr fun h hfix hh => ?_⟩
    · have hcases : ∀ a, (s.mint r handoff lease).Holds h a → a = lease ∧ handoff = some h ∨ s.Holds h a := by
        intro a ha
        have hauth : Function.update s.authority lease handoff a = some h := ha.1
        by_cases hal : a = lease
        · rw [hal, Function.update_self] at hauth
          exact Or.inl ⟨hal, hauth⟩
        · rw [Function.update_of_ne hal] at hauth
          exact Or.inr ⟨hauth, ha.2⟩
      -- beside the new lease no other on the same handoff is live
      have halone : handoff = some h → ∀ a, ¬ s.Holds h a := by
        rintro rfl a ha
        obtain ⟨-, hriv, hway⟩ := hund h hfix hr
        rcases hs.overlap r h hr a ha with hin | ⟨r', hm⟩
        · exact hriv a hin ha.2
        · exact hway r' a (leaseOn_some.mpr hm) ha.2
      rcases hcases a ha with ⟨rfl, hh⟩ | ha
      · rcases hcases b hb with ⟨rfl, -⟩ | hb
        · rfl
        · exact absurd hb (halone hh b)
      · rcases hcases b hb with ⟨-, hh⟩ | hb
        · exact absurd ha (halone hh a)
        · exact hsu.1 h hfix a b ha hb
    · subst hh
      have hu := (hund h hfix hr).1
      rw [← (hs.waits r h hr).2, Bool.not_eq_true]
      exact hu

theorem singleUse_step {ui : UiAccess} (hui : ui.Exact) {cfg : TakeoverConfig} (hs : s.Inv) (hsu : s.SingleUse)
    {e : TakeoverEvent R} (hstep : s.step ui cfg e = some s') : s'.SingleUse ↔ s.Undisturbed e := by
  cases step_change hui hs hstep with
  | handoff secret ttlS new =>
    refine iff_of_true ⟨fun h hfix a b ha hb => ?_, hsu.2⟩ trivial
    rcases Finset.mem_insert.mp hfix with hnew | hfix
    · rw [hnew] at ha
      exact absurd (hs.named a secret ha.1).2 new
    · exact hsu.1 h hfix a b ha hb
  | mint r handoff lease request new => exact singleUse_mint hs hsu request new
  | quiet _ _ notMint _ fixed late holds =>
    refine iff_of_true ⟨fun h hfix a b ha hb => ?_, late.trans hsu.2⟩ ?_
    · rw [fixed] at hfix
      exact hsu.1 h hfix a b (holds h a ha) (holds h b hb)
    · cases e with
      | mint r secret =>
        cases secret with
        | none => trivial
        | some lease => exact absurd rfl (notMint r lease)
      | _ => trivial

/-- **A handoff is exchanged once**, and not after it was revoked, throughout a run exactly if
every mint on a fixed handoff is undisturbed. -/
theorem single_use {ui : UiAccess} (hui : ui.Exact) (cfg : TakeoverConfig) {es : List (TakeoverEvent R)}
    {s : TakeoverHost R} (hrun : Run.run (step ui cfg) (start R) es = some s) :
    Run.Always (step ui cfg) SingleUse (start R) es ↔ Run.RunMeets (step ui cfg) Undisturbed (start R) es :=
  Run.always_iff_runMeets (step ui cfg) Inv.start ⟨fun h hfix => absurd hfix (Finset.notMem_empty h), rfl⟩
    (fun _ _ _ hs h => hs.step hui h) (fun _ _ _ hs hsu h => singleUse_step hui hs hsu h) hrun

end Afhttp.Host.TakeoverHost

namespace Afhttp.Host

/-! ## Runs -/

/-- Secrets are compared as they are. -/
def exactAccess : UiAccess := ⟨fun secret given => given == secret⟩

theorem exactAccess_exact : exactAccess.Exact := fun _ _ => beq_iff_eq

/-- A host with takeover and a token of its own. -/
def takeoverHost : TakeoverConfig := ⟨true, true⟩

/-- One request exchanges the handoff, and another comes with the same link later. -/
def oneAfterAnother : List (TakeoverEvent Bool) :=
  [.issueHandoff "h" 900, .arrive false false (some "h"), .mint false (some "a"), .exchange false,
   .arrive true false (some "h")]

theorem single_use_oneAfterAnother :
    Run.Always (TakeoverHost.step exactAccess takeoverHost) TakeoverHost.SingleUse (TakeoverHost.start Bool)
      oneAfterAnother := by
  have hs : (Run.run (TakeoverHost.step exactAccess takeoverHost) (TakeoverHost.start Bool)
      oneAfterAnother).isSome = true := by decide
  obtain ⟨s, hs⟩ := Option.isSome_iff_exists.mp hs
  exact (TakeoverHost.single_use exactAccess_exact takeoverHost hs).mpr (by decide)

/-- Two requests with the same link are both through the middleware before one of them mints. -/
def twoAtOnce : List (TakeoverEvent Bool) :=
  [.issueHandoff "h" 900, .arrive false false (some "h"), .arrive true false (some "h"),
   .mint false (some "a"), .exchange false, .mint true (some "b"), .exchange true]

theorem two_leases :
    ¬ Run.Always (TakeoverHost.step exactAccess takeoverHost) TakeoverHost.SingleUse (TakeoverHost.start Bool)
      twoAtOnce := by
  intro h
  have hf : (Run.run (TakeoverHost.step exactAccess takeoverHost) (TakeoverHost.start Bool) twoAtOnce).map
      (fun s => decide ("h" ∈ s.fixed ∧ s.Alive "a" ∧ s.Alive "b" ∧ s.authority "a" = some "h" ∧
        s.authority "b" = some "h")) = some true := by decide
  obtain ⟨s, hs, hf⟩ := Option.map_eq_some_iff.mp hf
  obtain ⟨hfix, ha, hb, hha, hhb⟩ := of_decide_eq_true hf
  have hone := (h twoAtOnce [] s (List.append_nil _).symm hs).1 "h" hfix "a" "b" ⟨hha, ha⟩ ⟨hhb, hb⟩
  exact absurd hone (by decide)

end Afhttp.Host

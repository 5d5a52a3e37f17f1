import Mathlib
import Afhttp.Sdk.Client

/-!
# What holds of clients throughout a run

The calls, the locks they hold and the connections the clients keep, in every order of the steps.

    what a call may do without others noticing            (Inv.callStep)
    ... a change of the handles                           (Inv.setStore)
    each step keeps the invariant, so each run does       (inv_takes, inv_run)
    each run leaves the clients as if they were values    (values_run)
-/

namespace Afhttp.Sdk

open SharedCell Run

variable {E : Type*}

namespace Clients

variable {s s' : Clients E}

/-! ## The invariant -/

/-- A client configured so comes to this endpoint. -/
structure Reaches (hosts : ℕ → InlineHost E) (cfg : Settings E) (endpoint : E) : Prop where
  own : cfg.inlineHost = none → endpoint = cfg.endpoint
  inline : ∀ k, cfg.inlineHost = some k → (hosts k).launched = some endpoint

/-- A connection that a client configured so opens. -/
structure Matches (hosts : ℕ → InlineHost E) (cfg : Settings E) (conn : Conn E) : Prop where
  token : conn.token = cfg.token
  profile : conn.profile = cfg.profile
  endpoint : Reaches hosts cfg conn.endpoint

/-- The call holds the lock of `cdp`, where it has found no connection that is open. -/
structure HoldsCdp (s : Clients E) (t : ℕ) (inner : ClientInner E) : Prop where
  lock : inner.cdpLock = some t
  stale : inner.cdp.filter s.isOpen = none

def CallOk (s : Clients E) (t h : ℕ) : Phase E → Prop
  | .waiting => ∃ c inner, s.site h = some (c, inner)
  | .locating =>
    ∃ c inner k, s.site h = some (c, inner) ∧ s.HoldsCdp t inner ∧ inner.settings.inlineHost = some k
  | .launching =>
    ∃ c inner k, s.site h = some (c, inner) ∧ s.HoldsCdp t inner ∧ inner.settings.inlineHost = some k ∧
      (s.hosts k).lock = some t ∧ (s.hosts k).launched = none
  | .connecting endpoint =>
    ∃ c inner, s.site h = some (c, inner) ∧ s.HoldsCdp t inner ∧ Reaches s.hosts inner.settings endpoint
  | .returned _ | .failed _ => True

structure Inv (s : Clients E) : Prop where
  store : s.store.WellFormed
  call_lt : ∀ t call, s.calls t = some call → t < s.nextCall
  conn_lt : ∀ k conn, s.conns k = some conn → k < s.nextConn
  call : ∀ t call, s.calls t = some call → s.CallOk t call.handle call.phase
  cdpLock : ∀ c inner t, s.store.content c = some inner → inner.cdpLock = some t →
    ∃ call, s.calls t = some call ∧ call.phase.holdsCdp ∧ s.store.cell call.handle = some c
  hostLock : ∀ k t, (s.hosts k).lock = some t →
    ∃ h c inner, s.calls t = some ⟨h, .launching⟩ ∧ s.site h = some (c, inner) ∧
      inner.settings.inlineHost = some k
  launches : ∀ k, (s.hosts k).launches = if (s.hosts k).launched.isSome then 1 else 0
  /-- What a client keeps is its own and was opened with its settings. -/
  cached : ∀ c inner k, s.store.content c = some inner → inner.cdp = some k →
    ∃ conn, s.conns k = some conn ∧ conn.owner = c ∧ conn.released = false ∧ Matches s.hosts inner.settings conn
  /-- A connection that is open and not let go of is kept. -/
  kept : ∀ k conn, s.conns k = some conn → conn.closed = false → conn.released = false →
    ∃ inner, s.store.content conn.owner = some inner ∧ inner.cdp = some k

/-- A host that is launched stays so. -/
def Keeps (s s' : Clients E) : Prop :=
  ∀ k endpoint, (s.hosts k).launched = some endpoint → (s'.hosts k).launched = some endpoint

theorem Reaches.mono (hl : s.Keeps s') {cfg : Settings E} {endpoint : E} (h : Reaches s.hosts cfg endpoint) :
    Reaches s'.hosts cfg endpoint :=
  ⟨h.own, fun k hk => hl k endpoint (h.inline k hk)⟩

theorem Matches.mono (hl : s.Keeps s') {cfg : Settings E} {conn : Conn E} (h : Matches s.hosts cfg conn) :
    Matches s'.hosts cfg conn :=
  ⟨h.token, h.profile, h.endpoint.mono hl⟩

/-- A connection that has been closed is not opened again. -/
theorem HoldsCdp.mono {t : ℕ} {inner : ClientInner E} (h : s.HoldsCdp t inner)
    (hopen : ∀ k, inner.cdp = some k → s'.isOpen k = true → s.isOpen k = true) : s'.HoldsCdp t inner := by
  refine ⟨h.lock, ?_⟩
  have hstale := h.stale
  cases hk : inner.cdp with
  | none => rfl
  | some k =>
    rw [hk, Option.filter_some] at hstale
    rw [Option.filter_some]
    cases ho : s'.isOpen k with
    | false => rfl
    | true =>
      rw [hopen k hk ho] at hstale
      cases hstale

/-- What a call that has not moved needs of a step. -/
theorem CallOk.frame {t h : ℕ} {phase : Phase E} (ok : s.CallOk t h phase)
    (hs : phase.inFlight → ∀ c inner, s.site h = some (c, inner) →
      ∃ c' inner', s'.site h = some (c', inner') ∧ inner'.settings = inner.settings ∧
        (s.HoldsCdp t inner → s'.HoldsCdp t inner'))
    (hh : ∀ k, (s.hosts k).lock = some t → s'.hosts k = s.hosts k)
    (hl : s.Keeps s') : s'.CallOk t h phase := by
  cases phase with
  | waiting =>
    obtain ⟨c, inner, hsite⟩ := ok
    obtain ⟨c', inner', hsite', -, -⟩ := hs rfl c inner hsite
    exact ⟨c', inner', hsite'⟩
  | locating =>
    obtain ⟨c, inner, k, hsite, hold, hk⟩ := ok
    obtain ⟨c', inner', hsite', he, hold'⟩ := hs rfl c inner hsite
    exact ⟨c', inner', k, hsite', hold' hold, by rw [he]; exact hk⟩
  | launching =>
    obtain ⟨c, inner, k, hsite, hold, hk, hlock, hnone⟩ := ok
    obtain ⟨c', inner', hsite', he, hold'⟩ := hs rfl c inner hsite
    have hhost := hh k hlock
    exact ⟨c', inner', k, hsite', hold' hold, by rw [he]; exact hk, by rw [hhost]; exact hlock,
      by rw [hhost]; exact hnone⟩
  | connecting endpoint =>
    obtain ⟨c, inner, hsite, hold, hr⟩ := ok
    obtain ⟨c', inner', hsite', he, hold'⟩ := hs rfl c inner hsite
    exact ⟨c', inner', hsite', hold' hold, by rw [he]; exact hr.mono hl⟩
  | returned k => exact trivial
  | failed e => exact trivial

/-! ## A call moves on -/

/-- What a step of call `t` through handle `h` of cell `c` touches: the call is then in phase `o`,
or gone, and the cell holds `inner'`. -/
structure CallStep (s s' : Clients E) (t h c : ℕ) (inner inner' : ClientInner E) (o : Option (Phase E)) :
    Prop where
  site : s.site h = some (c, inner)
  before : ∃ phase, s.calls t = some ⟨h, phase⟩
  free : inner.cdpLock = none ∨ inner.cdpLock = some t
  settings : inner'.settings = inner.settings
  cell : s'.store.cell = s.store.cell
  store : s'.store.WellFormed
  content : ∀ c', s'.store.content c' = if c' = c then some inner' else s.store.content c'
  calls : ∀ t', s'.calls t' = if t' = t then o.map fun phase => ⟨h, phase⟩ else s.calls t'
  nextCall : s'.nextCall = s.nextCall
  oldConn : ∀ k, k < s.nextConn → s'.conns k = s.conns k
  newConn : ∀ k conn, s'.conns k = some conn → k < s'.nextConn ∧ (k < s.nextConn ∨ conn.owner = c)
  host : ∀ k, s'.hosts k = s.hosts k ∨
    ((s.hosts k).lock = none ∨ (s.hosts k).lock = some t) ∧
      ((s'.hosts k).lock = none ∨ (s'.hosts k).lock = some t) ∧
      ∀ endpoint, (s.hosts k).launched = some endpoint → (s'.hosts k).launched = some endpoint
  ok : ∀ phase, o = some phase → s'.CallOk t h phase
  lock : ∀ t', inner'.cdpLock = some t' → t' = t ∧ ∃ phase, o = some phase ∧ phase.holdsCdp
  hostLock : ∀ k, (s'.hosts k).lock = some t → o = some .launching ∧ inner.settings.inlineHost = some k
  launches : ∀ k, (s'.hosts k).launches = if (s'.hosts k).launched.isSome then 1 else 0
  cached : ∀ k, inner'.cdp = some k →
    ∃ conn, s'.conns k = some conn ∧ conn.owner = c ∧ conn.released = false ∧ Matches s'.hosts inner.settings conn
  kept : ∀ k conn, s'.conns k = some conn → conn.owner = c → conn.closed = false → conn.released = false →
    inner'.cdp = some k

theorem CallStep.launched {t h c : ℕ} {inner inner' : ClientInner E} {o : Option (Phase E)}
    (st : CallStep s s' t h c inner inner' o) : s.Keeps s' := by
  intro k endpoint hk
  rcases st.host k with e | ⟨-, -, hl⟩
  · rw [e]
    exact hk
  · exact hl endpoint hk

theorem CallStep.host_other {t h c : ℕ} {inner inner' : ClientInner E} {o : Option (Phase E)}
    (st : CallStep s s' t h c inner inner' o) {t' k : ℕ} (ht : t' ≠ t)
    (hk : (s.hosts k).lock = some t' ∨ (s'.hosts k).lock = some t') : s'.hosts k = s.hosts k := by
  rcases st.host k with e | ⟨hold, hnew, -⟩
  · exact e
  · have hno : ∀ o : Option ℕ, (o = none ∨ o = some t) → o ≠ some t' := by
      rintro o (rfl | rfl) he
      · cases he
      · cases he
        exact ht rfl
    rcases hk with hk | hk
    · exact absurd hk (hno _ hold)
    · exact absurd hk (hno _ hnew)

theorem CallStep.site_other {t h c : ℕ} {inner inner' : ClientInner E} {o : Option (Phase E)}
    (st : CallStep s s' t h c inner inner' o) {h' c' : ℕ} {inner₀ : ClientInner E}
    (hs : s.site h' = some (c', inner₀)) :
    (c' = c ∧ inner₀ = inner ∧ s'.site h' = some (c, inner')) ∨ (c' ≠ c ∧ s'.site h' = some (c', inner₀)) := by
  obtain ⟨hc, hi⟩ := site_eq_some.mp hs
  have hc' : s'.store.cell h' = some c' := by rw [st.cell]; exact hc
  by_cases he : c' = c
  · subst he
    have hi' := (site_eq_some.mp st.site).2
    rw [hi] at hi'
    cases hi'
    refine .inl ⟨rfl, rfl, site_eq_some.mpr ⟨hc', ?_⟩⟩
    rw [st.content, if_pos rfl]
  · refine .inr ⟨he, site_eq_some.mpr ⟨hc', ?_⟩⟩
    rw [st.content, if_neg he]
    exact hi

theorem CallStep.isOpen {t h c : ℕ} {inner inner' : ClientInner E} {o : Option (Phase E)}
    (st : CallStep s s' t h c inner inner' o) {k : ℕ} (hk : k < s.nextConn) : s'.isOpen k = s.isOpen k := by
  unfold Clients.isOpen
  rw [st.oldConn k hk]

theorem Inv.cached_lt (w : s.Inv) {c k : ℕ} {inner : ClientInner E} (hi : s.store.content c = some inner)
    (hk : inner.cdp = some k) : k < s.nextConn := by
  obtain ⟨conn, hconn, -⟩ := w.cached c inner k hi hk
  exact w.conn_lt k conn hconn

theorem Inv.callStep (w : s.Inv) {t h c : ℕ} {inner inner' : ClientInner E} {o : Option (Phase E)}
    (st : CallStep s s' t h c inner inner' o) : s'.Inv := by
  obtain ⟨hcell, hinner⟩ := site_eq_some.mp st.site
  constructor
  · exact st.store
  · intro t' call ht'
    rw [st.nextCall]
    rw [st.calls] at ht'
    split at ht'
    · next e =>
      obtain ⟨phase, hb⟩ := st.before
      rw [e]
      exact w.call_lt t _ hb
    · exact w.call_lt t' call ht'
  · exact fun k conn hk => (st.newConn k conn hk).1
  · intro t' call ht'
    rw [st.calls] at ht'
    split at ht'
    · next e =>
      obtain ⟨phase, ho, rfl⟩ := Option.map_eq_some_iff.mp ht'
      rw [e]
      exact st.ok phase ho
    · next hne =>
      refine (w.call t' call ht').frame ?_ (fun k hk => st.host_other hne (.inl hk)) st.launched
      intro _ c' inner₀ hs
      rcases st.site_other hs with ⟨rfl, rfl, hs'⟩ | ⟨-, hs'⟩
      · refine ⟨_, _, hs', st.settings, fun hold => ?_⟩
        rcases st.free with hf | hf
        · rw [hold.lock] at hf
          cases hf
        · rw [hold.lock] at hf
          cases hf
          exact absurd rfl hne
      · refine ⟨_, _, hs', rfl, fun hold => hold.mono fun k hk ho => ?_⟩
        rw [← st.isOpen (w.cached_lt (site_eq_some.mp hs).2 hk)]
        exact ho
  · intro c' inner₀ t' hi hl
    rw [st.content] at hi
    split at hi
    · next e =>
      cases hi
      obtain ⟨rfl, phase, ho, hp⟩ := st.lock t' hl
      refine ⟨⟨h, phase⟩, ?_, hp, ?_⟩
      · rw [st.calls, if_pos rfl, ho]
        rfl
      · rw [st.cell, e]
        exact hcell
    · next hne =>
      obtain ⟨call, hcall, hp, hc⟩ := w.cdpLock c' inner₀ t' hi hl
      refine ⟨call, ?_, hp, by rw [st.cell]; exact hc⟩
      have ht' : t' ≠ t := by
        rintro rfl
        obtain ⟨phase, hb⟩ := st.before
        rw [hb] at hcall
        cases hcall
        rw [hcell] at hc
        cases hc
        exact hne rfl
      rw [st.calls, if_neg ht']
      exact hcall
  · intro k t' hk
    by_cases ht' : t' = t
    · subst ht'
      obtain ⟨ho, hin⟩ := st.hostLock k hk
      refine ⟨h, c, inner', ?_, ?_, by rw [st.settings]; exact hin⟩
      · rw [st.calls, if_pos rfl, ho]
        rfl
      · refine site_eq_some.mpr ⟨by rw [st.cell]; exact hcell, ?_⟩
        rw [st.content, if_pos rfl]
    · rw [st.host_other ht' (.inr hk)] at hk
      obtain ⟨h', c', inner₀, hcall, hs, hin⟩ := w.hostLock k t' hk
      have hcall' : s'.calls t' = some ⟨h', .launching⟩ := by rw [st.calls, if_neg ht']; exact hcall
      rcases st.site_other hs with ⟨rfl, rfl, hs'⟩ | ⟨-, hs'⟩
      · exact ⟨h', _, inner', hcall', hs', by rw [st.settings]; exact hin⟩
      · exact ⟨h', _, inner₀, hcall', hs', hin⟩
  · exact st.launches
  · intro c' inner₀ k hi hk
    rw [st.content] at hi
    split at hi
    · next e =>
      cases hi
      obtain ⟨conn, hconn, ho, hr, hm⟩ := st.cached k hk
      exact ⟨conn, hconn, by rw [e]; exact ho, hr, by rw [st.settings]; exact hm⟩
    · obtain ⟨conn, hconn, ho, hr, hm⟩ := w.cached c' inner₀ k hi hk
      exact ⟨conn, by rw [st.oldConn k (w.conn_lt k conn hconn)]; exact hconn, ho, hr, hm.mono st.launched⟩
  · intro k conn hconn hcl hr
    by_cases ho : conn.owner = c
    · refine ⟨inner', ?_, st.kept k conn hconn ho hcl hr⟩
      rw [st.content, if_pos ho]
    · rcases (st.newConn k conn hconn).2 with hlt | hown
      · rw [st.oldConn k hlt] at hconn
        obtain ⟨inner₀, hi, hk⟩ := w.kept k conn hconn hcl hr
        refine ⟨inner₀, ?_, hk⟩
        rw [st.content, if_neg ho]
        exact hi
      · exact absurd hown ho

/-! ## The steps of a call -/

theorem content_modify {c : ℕ} {inner : ClientInner E} (hi : s.store.content c = some inner)
    (f : ClientInner E → ClientInner E) (c' : ℕ) :
    (s.modify c f).store.content c' = if c' = c then some (f inner) else s.store.content c' := by
  show Function.update s.store.content c ((s.store.content c).map f) c' = _
  rw [hi]
  exact Function.update_apply ..

/-- All that most steps of a call do: to its phase, to the lock of its cell and to the hosts. -/
def move (s : Clients E) (t c : ℕ) (l : Option ℕ) (call : Option (Call E)) (hosts : ℕ → InlineHost E) :
    Clients E :=
  { s.modify c fun inner => { inner with cdpLock := l } with
    hosts := hosts
    calls := Function.update s.calls t call }

theorem site_move {t h c : ℕ} {inner : ClientInner E} (hs : s.site h = some (c, inner)) (l : Option ℕ)
    (call : Option (Call E)) (hosts : ℕ → InlineHost E) :
    (s.move t c l call hosts).site h = some (c, { inner with cdpLock := l }) := by
  obtain ⟨hcell, hi⟩ := site_eq_some.mp hs
  refine site_eq_some.mpr ⟨hcell, ?_⟩
  exact (content_modify hi (fun inner => { inner with cdpLock := l }) c).trans (if_pos rfl)

theorem setPhase_eq_move {t h c : ℕ} {inner : ClientInner E} {phase : Phase E} (ht : s.calls t = some ⟨h, phase⟩)
    (hs : s.site h = some (c, inner)) {l : Option ℕ} (hl : inner.cdpLock = l) (phase' : Phase E)
    (hosts : ℕ → InlineHost E) :
    { s with hosts := hosts }.setPhase t phase' = s.move t c l (some ⟨h, phase'⟩) hosts := by
  obtain ⟨hcell, hi⟩ := site_eq_some.mp hs
  have hcontent : s.store.content = Function.update s.store.content c
      ((s.store.content c).map fun inner => { inner with cdpLock := l }) := by
    rw [hi, Option.map_some, ← hl, ← hi, Function.update_eq_self]
  unfold setPhase move modify Store.modify
  simp only [ht, Option.map_some, ← hcontent]

theorem modify_setPhase_eq_move {t h : ℕ} {phase : Phase E} (ht : s.calls t = some ⟨h, phase⟩) (c : ℕ)
    (l : Option ℕ) (phase' : Phase E) (hosts : ℕ → InlineHost E) :
    ({ s with hosts := hosts }.modify c fun inner => { inner with cdpLock := l }).setPhase t phase' =
      s.move t c l (some ⟨h, phase'⟩) hosts := by
  unfold setPhase move modify
  simp only [ht, Option.map_some]

/-- What a step may do to the hosts. -/
structure HostStep (s : Clients E) (hosts : ℕ → InlineHost E) (t : ℕ) (inner : ClientInner E)
    (o : Option (Phase E)) : Prop where
  host : ∀ k, hosts k = s.hosts k ∨
    ((s.hosts k).lock = none ∨ (s.hosts k).lock = some t) ∧ ((hosts k).lock = none ∨ (hosts k).lock = some t) ∧
      ∀ endpoint, (s.hosts k).launched = some endpoint → (hosts k).launched = some endpoint
  lock : ∀ k, (hosts k).lock = some t → o = some .launching ∧ inner.settings.inlineHost = some k
  launches : ∀ k, (hosts k).launches = if (hosts k).launched.isSome then 1 else 0

theorem Inv.move (w : s.Inv) {t h c : ℕ} {inner : ClientInner E} {phase : Phase E}
    (ht : s.calls t = some ⟨h, phase⟩) (hs : s.site h = some (c, inner))
    (hf : inner.cdpLock = none ∨ inner.cdpLock = some t) {l : Option ℕ}
    {o : Option (Phase E)} {hosts : ℕ → InlineHost E} (hh : s.HostStep hosts t inner o)
    (hok : ∀ phase, o = some phase → (s.move t c l (o.map fun phase => ⟨h, phase⟩) hosts).CallOk t h phase)
    (hl : ∀ t', l = some t' → t' = t ∧ ∃ phase, o = some phase ∧ phase.holdsCdp) :
    (s.move t c l (o.map fun phase => ⟨h, phase⟩) hosts).Inv := by
  obtain ⟨hcell, hi⟩ := site_eq_some.mp hs
  have hkeeps : s.Keeps (s.move t c l (o.map fun phase => ⟨h, phase⟩) hosts) := by
    intro k endpoint hk
    rcases hh.host k with e | ⟨-, -, hk'⟩
    · exact (congrArg InlineHost.launched e).trans hk
    · exact hk' endpoint hk
  have st : CallStep s (s.move t c l (o.map fun phase => ⟨h, phase⟩) hosts) t h c inner
      { inner with cdpLock := l } o :=
    { site := hs
      before := ⟨phase, ht⟩
      free := hf
      settings := rfl
      cell := rfl
      store := w.store.modify c _
      content := content_modify hi _
      calls := fun t' => Function.update_apply ..
      nextCall := rfl
      oldConn := fun _ _ => rfl
      newConn := fun k conn hk => ⟨w.conn_lt k conn hk, .inl (w.conn_lt k conn hk)⟩
      host := hh.host
      ok := hok
      lock := hl
      hostLock := hh.lock
      launches := hh.launches
      cached := fun k hk => by
        obtain ⟨conn, hconn, ho, hr, hm⟩ := w.cached c inner k hi hk
        exact ⟨conn, hconn, ho, hr, hm.mono hkeeps⟩
      kept := fun k conn hconn ho hcl hr => by
        obtain ⟨inner₀, hi₀, hk⟩ := w.kept k conn hconn hcl hr
        rw [ho, hi] at hi₀
        cases hi₀
        exact hk }
  exact w.callStep st

/-- No call but a launching one holds the lock of `launched`. -/
theorem Inv.no_hostLock (w : s.Inv) {t h : ℕ} {phase : Phase E} (ht : s.calls t = some ⟨h, phase⟩)
    (hp : phase ≠ .launching) (k : ℕ) : (s.hosts k).lock ≠ some t := by
  intro hk
  obtain ⟨h', c, inner, hcall, -⟩ := w.hostLock k t hk
  rw [ht] at hcall
  cases hcall
  exact hp rfl

/-- A step that leaves the hosts alone. -/
theorem Inv.hostStep_same (w : s.Inv) {t h : ℕ} {phase : Phase E} (ht : s.calls t = some ⟨h, phase⟩)
    (hp : phase ≠ .launching) (inner : ClientInner E) (o : Option (Phase E)) : s.HostStep s.hosts t inner o :=
  ⟨fun _ => .inl rfl, fun k hk => absurd hk (w.no_hostLock ht hp k), w.launches⟩

/-- A step that sets one host. -/
theorem Inv.hostStep_set (w : s.Inv) {t k : ℕ} {inner : ClientInner E} {o : Option (Phase E)}
    {host : InlineHost E} (hother : ∀ k', k' ≠ k → (s.hosts k').lock ≠ some t)
    (hold : (s.hosts k).lock = none ∨ (s.hosts k).lock = some t) (hnew : host.lock = none ∨ host.lock = some t)
    (hkeep : ∀ endpoint, (s.hosts k).launched = some endpoint → host.launched = some endpoint)
    (hlock : host.lock = some t → o = some .launching ∧ inner.settings.inlineHost = some k)
    (hcount : host.launches = if host.launched.isSome then 1 else 0) :
    s.HostStep (Function.update s.hosts k host) t inner o := by
  constructor
  · intro k'
    by_cases hk : k' = k
    · subst hk
      rw [Function.update_self]
      exact .inr ⟨hold, hnew, hkeep⟩
    · rw [Function.update_of_ne hk]
      exact .inl rfl
  · intro k' hk'
    by_cases hk : k' = k
    · subst hk
      rw [Function.update_self] at hk'
      exact hlock hk'
    · rw [Function.update_of_ne hk] at hk'
      exact absurd hk' (hother k' hk)
  · intro k'
    by_cases hk : k' = k
    · subst hk
      rw [Function.update_self]
      exact hcount
    · rw [Function.update_of_ne hk]
      exact w.launches k'

/-- What a call that holds the lock of `cdp` has found. -/
theorem Inv.held (w : s.Inv) {t h c : ℕ} {inner : ClientInner E} {phase : Phase E}
    (ht : s.calls t = some ⟨h, phase⟩) (hp : phase.holdsCdp = true) (hs : s.site h = some (c, inner)) :
    s.HoldsCdp t inner := by
  have hok := w.call t _ ht
  cases phase with
  | locating =>
    obtain ⟨c', inner', k, hs', hold, -⟩ := hok
    cases hs.symm.trans hs'
    exact hold
  | launching =>
    obtain ⟨c', inner', k, hs', hold, -⟩ := hok
    cases hs.symm.trans hs'
    exact hold
  | connecting endpoint =>
    obtain ⟨c', inner', hs', hold, -⟩ := hok
    cases hs.symm.trans hs'
    exact hold
  | waiting => cases hp
  | returned k => cases hp
  | failed e => cases hp

/-- What holds of the host that a call launches. -/
theorem Inv.launching (w : s.Inv) {t h c k : ℕ} {inner : ClientInner E} (ht : s.calls t = some ⟨h, .launching⟩)
    (hs : s.site h = some (c, inner)) (hk : inner.settings.inlineHost = some k) :
    (s.hosts k).lock = some t ∧ (s.hosts k).launched = none ∧ ∀ k', k' ≠ k → (s.hosts k').lock ≠ some t := by
  obtain ⟨c', inner', k', hs', -, hk', hlock, hnone⟩ := w.call t _ ht
  cases hs.symm.trans hs'
  cases hk.symm.trans hk'
  refine ⟨hlock, hnone, fun k' hne hk' => hne ?_⟩
  obtain ⟨h'', c'', inner'', ht'', hs'', hk''⟩ := w.hostLock k' t hk'
  cases ht.symm.trans ht''
  cases hs.symm.trans hs''
  cases hk.symm.trans hk''
  rfl

/-- The call ends, or is gone, and has no locks any more. -/
theorem Inv.ends (w : s.Inv) {t h c : ℕ} {inner : ClientInner E} {phase : Phase E}
    (ht : s.calls t = some ⟨h, phase⟩) (hs : s.site h = some (c, inner))
    (hf : inner.cdpLock = none ∨ inner.cdpLock = some t) {o : Option (Phase E)} {hosts : ℕ → InlineHost E}
    (hh : s.HostStep hosts t inner o) (ho : ∀ phase, o = some phase → phase.inFlight = false) :
    (s.move t c none (o.map fun phase => ⟨h, phase⟩) hosts).Inv := by
  refine w.move ht hs hf hh (fun phase e => ?_) (fun t' e => (by cases e))
  have hp := ho phase e
  cases phase with
  | returned k => exact trivial
  | failed e => exact trivial
  | waiting => cases hp
  | locating => cases hp
  | launching => cases hp
  | connecting endpoint => cases hp

/-- The call goes on with the lock of `cdp`. -/
theorem Inv.goesOn (w : s.Inv) {t h c : ℕ} {inner : ClientInner E} {phase : Phase E}
    (ht : s.calls t = some ⟨h, phase⟩) (hs : s.site h = some (c, inner))
    (hf : inner.cdpLock = none ∨ inner.cdpLock = some t) (hstale : inner.cdp.filter s.isOpen = none)
    {phase' : Phase E} {hosts : ℕ → InlineHost E} (hh : s.HostStep hosts t inner (some phase'))
    (hp : phase'.holdsCdp = true)
    (hok : (s.move t c (some t) (some ⟨h, phase'⟩) hosts).site h = some (c, { inner with cdpLock := some t }) →
      (s.move t c (some t) (some ⟨h, phase'⟩) hosts).HoldsCdp t { inner with cdpLock := some t } →
      (s.move t c (some t) (some ⟨h, phase'⟩) hosts).CallOk t h phase') :
    (s.move t c (some t) (some ⟨h, phase'⟩) hosts).Inv := by
  refine w.move ht hs hf (o := some phase') hh (fun phase e => ?_) (fun t' e => ?_)
  · cases e
    exact hok (site_move hs _ _ _) ⟨rfl, hstale⟩
  · cases e
    exact ⟨rfl, phase', rfl, hp⟩

theorem Inv.acquire (w : s.Inv) {t h c : ℕ} {inner : ClientInner E} (ht : s.calls t = some ⟨h, .waiting⟩)
    (hs : s.site h = some (c, inner)) (hl : inner.cdpLock = none) : (s.acquire t c inner).Inv := by
  have hhost : ∀ o, s.HostStep s.hosts t inner o := w.hostStep_same ht (by simp) inner
  have hends : ∀ phase : Phase E, phase.inFlight = false → (s.setPhase t phase).Inv := by
    intro phase hp
    have e : s.setPhase t phase = s.move t c none (some ⟨h, phase⟩) s.hosts :=
      setPhase_eq_move ht hs hl phase s.hosts
    rw [e]
    exact w.ends ht hs (.inl hl) (o := some phase) (hhost _) fun phase' e' => by cases e'; exact hp
  have hheld : ∀ phase : Phase E, (s.modify c fun inner => { inner with cdpLock := some t }).setPhase t phase =
      s.move t c (some t) (some ⟨h, phase⟩) s.hosts := fun phase => modify_setPhase_eq_move ht c _ phase s.hosts
  unfold Clients.acquire
  split
  · exact hends _ rfl
  · next hstale =>
    split
    · exact hends _ rfl
    · dsimp only
      split
      · next k hk =>
        rw [hheld]
        exact w.goesOn ht hs (.inl hl) hstale (hhost _) rfl fun hsite hold => ⟨c, _, k, hsite, hold, hk⟩
      · next hk =>
        rw [hheld]
        refine w.goesOn ht hs (.inl hl) hstale (hhost _) rfl
          fun hsite hold => ⟨c, _, hsite, hold, fun _ => rfl, fun k hk' => ?_⟩
        exact absurd (hk.symm.trans hk') (by simp)

theorem Inv.locate (w : s.Inv) {t h c k : ℕ} {inner : ClientInner E} (ht : s.calls t = some ⟨h, .locating⟩)
    (hs : s.site h = some (c, inner)) (hk : inner.settings.inlineHost = some k) (hl : (s.hosts k).lock = none) :
    (s.locate t k).Inv := by
  have hold := w.held ht rfl hs
  have hno := w.no_hostLock ht (by simp)
  unfold Clients.locate
  cases hd : (s.hosts k).launched with
  | some endpoint =>
    have e : s.setPhase t (.connecting endpoint) = s.move t c (some t) (some ⟨h, .connecting endpoint⟩) s.hosts :=
      setPhase_eq_move ht hs hold.lock _ s.hosts
    dsimp only
    rw [e]
    refine w.goesOn ht hs (.inr hold.lock) hold.stale (w.hostStep_same ht (by simp) inner _) rfl
      fun hsite hold' => ⟨c, _, hsite, hold', fun hn => absurd (hn.symm.trans hk) (by simp), fun k' hk' => ?_⟩
    cases hk.symm.trans hk'
    exact hd
  | none =>
    have e : (s.setHost k { s.hosts k with lock := some t }).setPhase t .launching =
        s.move t c (some t) (some ⟨h, .launching⟩) (Function.update s.hosts k { s.hosts k with lock := some t }) :=
      setPhase_eq_move ht hs hold.lock _ _
    dsimp only
    rw [e]
    have hstep : s.HostStep (Function.update s.hosts k { s.hosts k with lock := some t }) t inner
        (some .launching) :=
      w.hostStep_set (fun k' _ => hno k') (.inl hl) (.inr rfl) (fun _ h => h) (fun _ => ⟨rfl, hk⟩) (w.launches k)
    refine w.goesOn ht hs (.inr hold.lock) hold.stale hstep rfl
      fun hsite hold' => ⟨c, _, k, hsite, hold', hk, ?_, ?_⟩
    · exact congrArg InlineHost.lock (Function.update_self k _ s.hosts)
    · exact (congrArg InlineHost.launched (Function.update_self k _ s.hosts)).trans hd

theorem Inv.launched (w : s.Inv) {t h c k : ℕ} {inner : ClientInner E} (ht : s.calls t = some ⟨h, .launching⟩)
    (hs : s.site h = some (c, inner)) (hk : inner.settings.inlineHost = some k) (result : Except Error E) :
    (s.launched t c k result).Inv := by
  have hold := w.held ht rfl hs
  obtain ⟨hlock, hnone, hother⟩ := w.launching ht hs hk
  have hcount := w.launches k
  rw [hnone] at hcount
  have hkeep : ∀ (o : Option E) endpoint, (s.hosts k).launched = some endpoint → o = some endpoint :=
    fun _ _ e => absurd (hnone.symm.trans e) (by simp)
  cases result with
  | ok endpoint =>
    have e : (s.setHost k ⟨some endpoint, none, (s.hosts k).launches + 1⟩).setPhase t (.connecting endpoint) =
        s.move t c (some t) (some ⟨h, .connecting endpoint⟩)
          (Function.update s.hosts k ⟨some endpoint, none, (s.hosts k).launches + 1⟩) :=
      setPhase_eq_move ht hs hold.lock _ _
    show ((s.setHost k ⟨some endpoint, none, (s.hosts k).launches + 1⟩).setPhase t (.connecting endpoint)).Inv
    rw [e]
    have hstep : s.HostStep (Function.update s.hosts k ⟨some endpoint, none, (s.hosts k).launches + 1⟩) t inner
        (some (.connecting endpoint)) :=
      w.hostStep_set hother (.inr hlock) (.inl rfl) (hkeep _) (fun e => by cases e) (by rw [hcount]; rfl)
    refine w.goesOn ht hs (.inr hold.lock) hold.stale hstep rfl
      fun hsite hold' => ⟨c, _, hsite, hold', fun hn => absurd (hn.symm.trans hk) (by simp), fun k' hk' => ?_⟩
    cases hk.symm.trans hk'
    exact congrArg InlineHost.launched (Function.update_self k _ s.hosts)
  | error e =>
    have heq : ((s.setHost k { s.hosts k with lock := none }).unlock c).setPhase t (.failed e) =
        s.move t c none (some ⟨h, .failed e⟩) (Function.update s.hosts k { s.hosts k with lock := none }) :=
      modify_setPhase_eq_move ht c none _ _
    show (((s.setHost k { s.hosts k with lock := none }).unlock c).setPhase t (.failed e)).Inv
    rw [heq]
    have hstep : s.HostStep (Function.update s.hosts k { s.hosts k with lock := none }) t inner
        (some (.failed e)) :=
      w.hostStep_set hother (.inr hlock) (.inl rfl) (fun _ h => h) (fun e => by cases e) (w.launches k)
    exact w.ends ht hs (.inr hold.lock) (o := some (.failed e)) hstep fun phase e' => by cases e'; rfl

theorem Inv.connected (w : s.Inv) {t h c : ℕ} {inner : ClientInner E} {endpoint : E}
    (ht : s.calls t = some ⟨h, .connecting endpoint⟩) (hs : s.site h = some (c, inner)) (failure : Option Error) :
    (s.connected t c inner endpoint failure).Inv := by
  obtain ⟨hcell, hi⟩ := site_eq_some.mp hs
  have hold := w.held ht rfl hs
  have hno := w.no_hostLock ht (by simp)
  cases failure with
  | some e =>
    have heq : (s.unlock c).setPhase t (.failed e) = s.move t c none (some ⟨h, .failed e⟩) s.hosts :=
      modify_setPhase_eq_move ht c none _ s.hosts
    show ((s.unlock c).setPhase t (.failed e)).Inv
    rw [heq]
    exact w.ends ht hs (.inr hold.lock) (o := some (.failed e)) (w.hostStep_same ht (by simp) inner _)
      fun phase e' => by cases e'; rfl
  | none =>
    have hreach : Reaches s.hosts inner.settings endpoint := by
      obtain ⟨c', inner', hs', -, hr⟩ := w.call t _ ht
      cases hs.symm.trans hs'
      exact hr
    have hconns : ∀ k conn, (s.connected t c inner endpoint none).conns k = some conn →
        (k = s.nextConn ∧ conn = ⟨endpoint, inner.settings.token, inner.settings.profile, c, false, false⟩) ∨
          (k ≠ s.nextConn ∧ s.conns k = some conn) := by
      intro k conn hk
      have hk' : Function.update s.conns s.nextConn _ k = some conn := hk
      rw [Function.update_apply] at hk'
      split at hk'
      · next e => exact .inl ⟨e, (Option.some.inj hk').symm⟩
      · next e => exact .inr ⟨e, hk'⟩
    have st : CallStep s (s.connected t c inner endpoint none) t h c inner
        { inner with cdp := some s.nextConn, cdpLock := none } (some (.returned s.nextConn)) :=
      { site := hs
        before := ⟨_, ht⟩
        free := .inr hold.lock
        settings := rfl
        cell := rfl
        store := w.store.modify c _
        content := content_modify hi _
        calls := fun t' => by
          show Function.update s.calls t ((s.calls t).map _) t' = _
          rw [ht]
          exact Function.update_apply ..
        nextCall := rfl
        oldConn := fun k hk => Function.update_of_ne (Nat.ne_of_lt hk) _ s.conns
        newConn := fun k conn hk => by
          rcases hconns k conn hk with ⟨rfl, rfl⟩ | ⟨-, hk⟩
          · exact ⟨Nat.lt_succ_self _, .inr rfl⟩
          · exact ⟨Nat.lt_succ_of_lt (w.conn_lt k conn hk), .inl (w.conn_lt k conn hk)⟩
        host := fun _ => .inl rfl
        ok := fun phase e => by cases e; exact trivial
        lock := fun t' e => by cases e
        hostLock := fun k hk => absurd hk (hno k)
        launches := w.launches
        cached := fun k hk => by
          cases hk
          exact ⟨_, Function.update_self .., rfl, rfl, rfl, rfl, hreach⟩
        kept := fun k conn hk ho hcl hr => by
          rcases hconns k conn hk with ⟨rfl, -⟩ | ⟨-, hk⟩
          · rfl
          · -- the connection that was kept before is closed
            obtain ⟨inner₀, hi₀, hc⟩ := w.kept k conn hk hcl hr
            rw [ho, hi] at hi₀
            cases hi₀
            have hstale := hold.stale
            rw [hc, Option.filter_some] at hstale
            have hopen : s.isOpen k = true := by
              unfold Clients.isOpen
              rw [hk, Option.any_some, hcl]
              rfl
            rw [hopen] at hstale
            cases hstale }
    exact w.callStep st

/-! ## Calls come and go -/

/-- Calls that hold nothing come and go. -/
theorem Inv.setCalls (w : s.Inv) {calls : ℕ → Option (Call E)} {n : ℕ}
    (hlt : ∀ t call, calls t = some call → t < n)
    (hold : ∀ t call, calls t = some call →
      s.calls t = some call ∨ call.phase = .waiting ∧ ∃ c inner, s.site call.handle = some (c, inner))
    (hkeep : ∀ t call, s.calls t = some call → call.phase.holdsCdp → calls t = some call) :
    Inv { s with calls := calls, nextCall := n } := by
  refine ⟨w.store, hlt, w.conn_lt, fun t call ht => ?_, fun c inner t hi hl => ?_, fun k t hk => ?_, w.launches,
    fun c inner k hi hk => ?_, w.kept⟩
  · rcases hold t call ht with ht | ⟨hp, hs⟩
    · refine (w.call t call ht).frame (fun _ c inner hs => ⟨c, inner, hs, rfl, fun h => ⟨h.lock, h.stale⟩⟩)
        (fun _ _ => rfl) fun _ _ h => h
    · rw [hp]
      exact hs
  · obtain ⟨call, ht, hp, hc⟩ := w.cdpLock c inner t hi hl
    exact ⟨call, hkeep t call ht hp, hp, hc⟩
  · obtain ⟨h, c, inner, ht, hs⟩ := w.hostLock k t hk
    exact ⟨h, c, inner, hkeep t _ ht rfl, hs⟩
  · obtain ⟨conn, hconn, ho, hr, hm⟩ := w.cached c inner k hi hk
    exact ⟨conn, hconn, ho, hr, hm⟩

theorem Inv.startCall (w : s.Inv) {h c : ℕ} {inner : ClientInner E} (hs : s.site h = some (c, inner)) :
    Inv { s with calls := Function.update s.calls s.nextCall (some ⟨h, .waiting⟩), nextCall := s.nextCall + 1 } := by
  refine w.setCalls (fun t call ht => ?_) (fun t call ht => ?_) fun t call ht _ => ?_
  · rw [Function.update_apply] at ht
    split at ht
    · next e => omega
    · exact Nat.lt_succ_of_lt (w.call_lt t call ht)
  · rw [Function.update_apply] at ht
    split at ht
    · cases ht
      exact .inr ⟨rfl, c, inner, hs⟩
    · exact .inl ht
  · rw [Function.update_of_ne (Nat.ne_of_lt (w.call_lt t call ht))]
    exact ht

theorem Inv.cancel (w : s.Inv) {t h c : ℕ} {inner : ClientInner E} {phase : Phase E}
    (ht : s.calls t = some ⟨h, phase⟩) (hs : s.site h = some (c, inner)) : (s.cancel t c inner phase).Inv := by
  have hfree : phase.holdsCdp = false → Inv { s with calls := Function.update s.calls t none } := by
    intro hp
    refine w.setCalls (fun t' call ht' => ?_) (fun t' call ht' => ?_) fun t' call ht' hp' => ?_
    · rw [Function.update_apply] at ht'
      split at ht'
      · cases ht'
      · exact w.call_lt t' call ht'
    · rw [Function.update_apply] at ht'
      split at ht'
      · cases ht'
      · exact .inl ht'
    · have hne : t' ≠ t := by
        rintro rfl
        cases ht.symm.trans ht'
        rw [hp] at hp'
        cases hp'
      rw [Function.update_of_ne hne]
      exact ht'
  have hgone : ∀ (hosts : ℕ → InlineHost E), s.HostStep hosts t inner none → phase.holdsCdp = true →
      (s.move t c none none hosts).Inv := fun hosts hh hp =>
    w.ends ht hs (.inr (w.held ht hp hs).lock) (o := none) hh fun _ e => by cases e
  cases phase with
  | waiting => exact hfree rfl
  | returned k => exact hfree rfl
  | failed e => exact hfree rfl
  | locating => exact hgone s.hosts (w.hostStep_same ht (by simp) inner _) rfl
  | connecting endpoint => exact hgone s.hosts (w.hostStep_same ht (by simp) inner _) rfl
  | launching =>
    obtain ⟨c', inner', k, hs', -, hk, -⟩ := w.call t _ ht
    cases hs.symm.trans hs'
    obtain ⟨hlock, hnone, hother⟩ := w.launching ht hs hk
    have hstep : s.HostStep (Function.update s.hosts k { s.hosts k with lock := none }) t inner none :=
      w.hostStep_set hother (.inr hlock) (.inl rfl) (fun _ h => h) (fun e => by cases e) (w.launches k)
    unfold Clients.cancel
    simp only [hk]
    exact hgone _ hstep rfl

/-! ## Connections -/

theorem Inv.hangUp (w : s.Inv) {k : ℕ} {conn : Conn E} (hk : s.conns k = some conn) :
    Inv { s with conns := Function.update s.conns k (some { conn with closed := true }) } := by
  have hconns : ∀ k' conn', Function.update s.conns k (some { conn with closed := true }) k' = some conn' →
      (k' = k ∧ conn' = { conn with closed := true }) ∨ (k' ≠ k ∧ s.conns k' = some conn') := by
    intro k' conn' h
    rw [Function.update_apply] at h
    split at h
    · next e => exact .inl ⟨e, (Option.some.inj h).symm⟩
    · next e => exact .inr ⟨e, h⟩
  refine ⟨w.store, w.call_lt, fun k' conn' h => ?_, fun t call ht => ?_, w.cdpLock, w.hostLock, w.launches,
    fun c inner k' hi hc => ?_, fun k' conn' h hcl hr => ?_⟩
  · rcases hconns k' conn' h with ⟨rfl, -⟩ | ⟨-, h⟩
    · exact w.conn_lt _ conn hk
    · exact w.conn_lt k' conn' h
  · refine (w.call t call ht).frame (fun _ c inner hs => ⟨c, inner, hs, rfl, fun h => h.mono fun k' _ ho => ?_⟩)
      (fun _ _ => rfl) fun _ _ h => h
    obtain ⟨conn', hconn', hcl⟩ := (Option.any_eq_true ..).mp ho
    rcases hconns k' conn' hconn' with ⟨-, rfl⟩ | ⟨-, hk'⟩
    · cases hcl
    · exact (Option.any_eq_true ..).mpr ⟨conn', hk', hcl⟩
  · obtain ⟨conn', hconn, ho, hr, hm⟩ := w.cached c inner k' hi hc
    by_cases he : k' = k
    · subst he
      cases hk.symm.trans hconn
      exact ⟨_, Function.update_self .., ho, hr, hm.token, hm.profile, hm.endpoint⟩
    · exact ⟨conn', by rw [← hconn]; exact Function.update_of_ne he .., ho, hr, hm⟩
  · rcases hconns k' conn' h with ⟨-, rfl⟩ | ⟨-, h⟩
    · cases hcl
    · exact w.kept k' conn' h hcl hr

/-- The connections after a cell has let go of its own. -/
theorem Inv.conns_release (w : s.Inv) {c : ℕ} {inner : ClientInner E} (hi : s.store.content c = some inner)
    (k : ℕ) :
    (inner.cdp = some k ∧
        ∃ conn, s.conns k = some conn ∧ (s.release c).conns k = some { conn with released := true }) ∨
      inner.cdp ≠ some k ∧ (s.release c).conns k = s.conns k := by
  unfold Clients.release
  rw [hi, Option.bind_some]
  cases hc : inner.cdp with
  | none => exact .inr ⟨by simp, rfl⟩
  | some k₀ =>
    obtain ⟨conn, hconn, -⟩ := w.cached c inner k₀ hi hc
    by_cases hk : k = k₀
    · subst hk
      exact .inl ⟨rfl, conn, hconn, by dsimp only; rw [Function.update_self, hconn, Option.map_some]⟩
    · refine .inr ⟨fun e => hk (Option.some.inj e).symm, ?_⟩
      exact Function.update_of_ne hk ..

theorem Inv.release (w : s.Inv) {c : ℕ} {inner : ClientInner E} (hi : s.store.content c = some inner) :
    (s.release c).Inv := by
  have hcells : ∀ c', (s.release c).store.content c' =
      if c' = c then some { inner with cdp := none } else s.store.content c' :=
    content_modify hi fun inner => { inner with cdp := none }
  have hsite : ∀ h c' inner₀, s.site h = some (c', inner₀) →
      (c' = c ∧ inner₀ = inner ∧ (s.release c).site h = some (c, { inner with cdp := none })) ∨
        (c' ≠ c ∧ (s.release c).site h = some (c', inner₀)) := by
    intro h c' inner₀ hs
    obtain ⟨hc, hi₀⟩ := site_eq_some.mp hs
    by_cases he : c' = c
    · subst he
      cases hi.symm.trans hi₀
      exact .inl ⟨rfl, rfl, site_eq_some.mpr ⟨hc, (hcells c').trans (if_pos rfl)⟩⟩
    · exact .inr ⟨he, site_eq_some.mpr ⟨hc, ((hcells c').trans (if_neg he)).trans hi₀⟩⟩
  have hconns := w.conns_release hi
  constructor
  · exact w.store.modify c _
  · exact w.call_lt
  · intro k conn hk
    rcases hconns k with ⟨-, conn', hk', -⟩ | ⟨-, e⟩
    · exact w.conn_lt k conn' hk'
    · rw [e] at hk
      exact w.conn_lt k conn hk
  · intro t call ht
    refine (w.call t call ht).frame (fun _ c' inner₀ hs => ?_) (fun _ _ => rfl) fun _ _ h => h
    rcases hsite _ c' inner₀ hs with ⟨rfl, rfl, hs'⟩ | ⟨-, hs'⟩
    · exact ⟨_, _, hs', rfl, fun hold => ⟨hold.lock, rfl⟩⟩
    · refine ⟨_, _, hs', rfl, fun hold => hold.mono fun k _ ho => ?_⟩
      obtain ⟨conn, hk, hcl⟩ := (Option.any_eq_true ..).mp ho
      rcases hconns k with ⟨-, conn', hk', e⟩ | ⟨-, e⟩
      · cases e.symm.trans hk
        exact (Option.any_eq_true ..).mpr ⟨conn', hk', hcl⟩
      · exact (Option.any_eq_true ..).mpr ⟨conn, e.symm.trans hk, hcl⟩
  · intro c' inner₀ t hi₀ hl
    rw [hcells] at hi₀
    split at hi₀
    · next e =>
      cases hi₀
      rw [e]
      exact w.cdpLock c inner t hi hl
    · exact w.cdpLock c' inner₀ t hi₀ hl
  · intro k t hk
    obtain ⟨h, c', inner₀, ht, hs, hin⟩ := w.hostLock k t hk
    rcases hsite h c' inner₀ hs with ⟨rfl, rfl, hs'⟩ | ⟨-, hs'⟩
    · exact ⟨h, _, _, ht, hs', hin⟩
    · exact ⟨h, _, _, ht, hs', hin⟩
  · exact w.launches
  · intro c' inner₀ k hi₀ hk
    rw [hcells] at hi₀
    split at hi₀
    · cases hi₀
      cases hk
    · next hne =>
      obtain ⟨conn, hconn, ho, hr, hm⟩ := w.cached c' inner₀ k hi₀ hk
      rcases hconns k with ⟨hc, -⟩ | ⟨-, e⟩
      · obtain ⟨conn', hconn', ho', -⟩ := w.cached c inner k hi hc
        cases hconn.symm.trans hconn'
        exact absurd (ho.symm.trans ho') hne
      · exact ⟨conn, e.trans hconn, ho, hr, hm⟩
  · intro k conn hk hcl hr
    rcases hconns k with ⟨-, conn', -, e⟩ | ⟨hne, e⟩
    · cases e.symm.trans hk
      cases hr
    · obtain ⟨inner₀, hi₀, hc⟩ := w.kept k conn (e.symm.trans hk) hcl hr
      refine ⟨inner₀, (hcells conn.owner).trans ?_, hc⟩
      rw [if_neg]
      · exact hi₀
      · rintro e'
        rw [e', hi] at hi₀
        cases hi₀
        exact hne hc

theorem Inv.releaseLast (w : s.Inv) (h : ℕ) : (s.releaseLast h).Inv := by
  unfold Clients.releaseLast
  cases hc : s.store.cell h with
  | none => exact w
  | some c =>
    obtain ⟨inner, hi, -⟩ := w.store.get hc
    exact iteInduction (motive := Clients.Inv) (fun _ => w.release hi) fun _ => w

theorem calls_releaseLast (h : ℕ) :
    (s.releaseLast h).calls = s.calls ∧ (s.releaseLast h).nextCall = s.nextCall := by
  unfold Clients.releaseLast
  cases s.store.cell h with
  | none => exact ⟨rfl, rfl⟩
  | some c =>
    exact iteInduction (motive := fun r : Clients E => r.calls = s.calls ∧ r.nextCall = s.nextCall)
      (fun _ => ⟨rfl, rfl⟩) fun _ => ⟨rfl, rfl⟩

/-- The only handle of a cell has let go of the connection there. -/
theorem content_releaseLast {h c : ℕ} {inner : ClientInner E} (hs : s.site h = some (c, inner))
    (h1 : (s.releaseLast h).store.strongCount c = 1) :
    (s.releaseLast h).store.content c = some { inner with cdp := none } := by
  obtain ⟨hc, hi⟩ := site_eq_some.mp hs
  have hcount : (s.releaseLast h).store.strongCount c = s.store.strongCount c := by
    unfold Clients.releaseLast
    rw [hc]
    exact iteInduction (motive := fun r : Clients E => r.store.strongCount c = s.store.strongCount c)
      (fun _ => rfl) fun _ => rfl
  rw [hcount] at h1
  have e : s.releaseLast h = s.release c := by
    unfold Clients.releaseLast
    rw [hc]
    exact if_pos h1
  rw [e]
  exact (content_modify hi (fun inner => { inner with cdp := none }) c).trans (if_pos rfl)

/-! ## Handles -/

/-- A change of the handles that the calls do not see, and in which no connection is lost. -/
theorem Inv.setStore (w : s.Inv) {store : Store (ClientInner E)} (hw : store.WellFormed)
    (hseen : ∀ t call c, s.calls t = some call → call.phase.inFlight → s.store.cell call.handle = some c →
      store.cell call.handle = some c ∧ store.content c = s.store.content c)
    (hnew : ∀ c inner, store.content c = some inner →
      s.store.content c = some inner ∨ inner.cdp = none ∧ inner.cdpLock = none)
    (hkept : ∀ c inner k, s.store.content c = some inner → inner.cdp = some k → store.content c = some inner) :
    Inv { s with store := store } := by
  have hsite : ∀ t call c inner, s.calls t = some call → call.phase.inFlight →
      s.site call.handle = some (c, inner) →
        Clients.site { s with store := store } call.handle = some (c, inner) := by
    intro t call c inner ht hp hs
    obtain ⟨hc, hi⟩ := site_eq_some.mp hs
    obtain ⟨hc', hi'⟩ := hseen t call c ht hp hc
    exact site_eq_some.mpr ⟨hc', hi'.trans hi⟩
  constructor
  · exact hw
  · exact w.call_lt
  · exact w.conn_lt
  · intro t call ht
    exact (w.call t call ht).frame (fun hp c inner hs => ⟨c, inner, hsite t call c inner ht hp hs, rfl,
      fun h => ⟨h.lock, h.stale⟩⟩) (fun _ _ => rfl) fun _ _ h => h
  · intro c inner t hi hl
    rcases hnew c inner hi with hi | ⟨-, hn⟩
    · obtain ⟨call, ht, hp, hc⟩ := w.cdpLock c inner t hi hl
      exact ⟨call, ht, hp, (hseen t call c ht (Phase.inFlight_of_holdsCdp hp) hc).1⟩
    · rw [hn] at hl
      cases hl
  · intro k t hk
    obtain ⟨h, c, inner, ht, hs, hin⟩ := w.hostLock k t hk
    exact ⟨h, c, inner, ht, hsite t ⟨h, .launching⟩ c inner ht rfl hs, hin⟩
  · exact w.launches
  · intro c inner k hi hk
    rcases hnew c inner hi with hi | ⟨hn, -⟩
    · exact w.cached c inner k hi hk
    · rw [hn] at hk
      cases hk
  · intro k conn hk hcl hr
    obtain ⟨inner, hi, hc⟩ := w.kept k conn hk hcl hr
    exact ⟨inner, hkept _ inner k hi hc, hc⟩

/-- A call in flight borrows its handle. -/
theorem Inv.ne_of_borrowed (w : s.Inv) {t h : ℕ} {call : Call E} (hb : s.borrowed h = false)
    (ht : s.calls t = some call) (hp : call.phase.inFlight) : call.handle ≠ h := by
  rintro rfl
  unfold borrowed at hb
  have hany := List.any_eq_false.mp hb t (List.mem_range.mpr (w.call_lt t call ht))
  rw [ht, Option.any_some, hp] at hany
  simp at hany

theorem Inv.newHandle (w : s.Inv) (cfg : Settings E) : Inv { s with store := s.store.new ⟨cfg, none, none⟩ } := by
  refine w.setStore (w.store.new _) (fun t call c _ _ hc => ⟨?_, ?_⟩) (fun c inner hi => ?_) fun c inner k hi _ => ?_
  · have hne : call.handle ≠ s.store.nextHandle := fun e => by
      rw [e, w.store.fresh_handle] at hc
      cases hc
    exact (Function.update_of_ne hne _ s.store.cell).trans hc
  · exact w.store.content_new hc _
  · have hi' : Function.update s.store.content s.store.nextCell (some ⟨cfg, none, none⟩) c = some inner := hi
    rw [Function.update_apply] at hi'
    split at hi'
    · cases hi'
      exact .inr ⟨rfl, rfl⟩
    · exact .inl hi'
  · have hne : c ≠ s.store.nextCell := by
      have hlt := (w.store.content c).mpr (by rw [hi]; rfl)
      omega
    exact (Function.update_of_ne hne _ s.store.content).trans hi

theorem Inv.clone (w : s.Inv) (h : ℕ) : Inv { s with store := s.store.clone h } := by
  refine w.setStore (w.store.clone h) (fun t call c _ _ hc => ⟨?_, rfl⟩) (fun c inner hi => .inl hi)
    fun c inner k hi _ => hi
  have hne : call.handle ≠ s.store.nextHandle := fun e => by
    rw [e, w.store.fresh_handle] at hc
    cases hc
  exact (Function.update_of_ne hne _ s.store.cell).trans hc

theorem Inv.drop (w : s.Inv) {h : ℕ} (hb : s.borrowed h = false) : Inv { s with store := s.store.drop h } := by
  refine w.setStore (w.store.drop h) (fun t call c ht hp hc => ⟨?_, rfl⟩) (fun c inner hi => .inl hi)
    fun c inner k hi _ => hi
  exact (Function.update_of_ne (w.ne_of_borrowed hb ht hp) _ s.store.cell).trans hc

theorem Inv.reconfigure (w : s.Inv) {h c : ℕ} {inner : ClientInner E} (hs : s.site h = some (c, inner))
    (hb : s.borrowed h = false) (u : Settings E → Settings E) : (s.reconfigure h u).Inv := by
  have w' := w.releaseLast h
  have hb' : (s.releaseLast h).borrowed h = false := by
    unfold borrowed
    rw [(calls_releaseLast h).1, (calls_releaseLast h).2]
    exact hb
  have hcell : (s.releaseLast h).store.cell h = some c := by
    rw [cell_releaseLast]
    exact (site_eq_some.mp hs).1
  obtain ⟨inner', hi', -⟩ := w'.store.get hcell
  have hother : ∀ t call, (s.releaseLast h).calls t = some call → call.phase.inFlight → call.handle ≠ h :=
    fun t call ht hp => w'.ne_of_borrowed hb' ht hp
  unfold Clients.reconfigure
  dsimp only
  rcases w'.store.makeMut_cases hcell (fun inner => ⟨u inner.settings, none, none⟩)
      (fun inner => ⟨u inner.settings, none, none⟩) with ⟨h1, e⟩ | ⟨a, ha, h1, e⟩
  · rw [e]
    have hcells := content_modify (s := s.releaseLast h) hi' fun inner => ⟨u inner.settings, none, none⟩
    -- its connection is gone already
    have hnone : inner'.cdp = none := by
      cases hi'.symm.trans (content_releaseLast hs h1)
      rfl
    refine w'.setStore (w'.store.modify c _) (fun t call c' ht hp hc' => ⟨hc', ?_⟩) (fun c' inner₀ hi₀ => ?_)
      fun c' inner₀ k hi₀ hk => ?_
    · have hne : c' ≠ c := by
        rintro rfl
        exact hother t call ht hp (w'.store.eq_of_strongCount h1 hcell hc')
      exact (hcells c').trans (if_neg hne)
    · have hi₁ := (hcells c').symm.trans hi₀
      split at hi₁
      · cases hi₁
        exact .inr ⟨rfl, rfl⟩
      · exact .inl hi₁
    · have hne : c' ≠ c := by
        rintro rfl
        cases hi'.symm.trans hi₀
        rw [hnone] at hk
        cases hk
      exact ((hcells c').trans (if_neg hne)).trans hi₀
  · rw [e]
    refine w'.setStore (w'.store.rebuild hcell _) (fun t call c' ht hp hc' => ⟨?_, ?_⟩) (fun c' inner₀ hi₀ => ?_)
      fun c' inner₀ k hi₀ hk => ?_
    · exact (Function.update_of_ne (hother t call ht hp) _ _).trans hc'
    · exact w'.store.content_new hc' _
    · have hi₁ : Function.update (s.releaseLast h).store.content (s.releaseLast h).store.nextCell
          (some ⟨u a.settings, none, none⟩) c' = some inner₀ := hi₀
      rw [Function.update_apply] at hi₁
      split at hi₁
      · cases hi₁
        exact .inr ⟨rfl, rfl⟩
      · exact .inl hi₁
    · have hne : c' ≠ (s.releaseLast h).store.nextCell := by
        have hlt := (w'.store.content c').mpr (by rw [hi₀]; rfl)
        omega
      exact (Function.update_of_ne hne _ (s.releaseLast h).store.content).trans hi₀

/-! ## Runs -/

theorem inv_init : (init : Clients E).Inv where
  store := .empty
  call_lt _ _ h := by cases h
  conn_lt _ _ h := by cases h
  call _ _ h := by cases h
  cdpLock _ _ _ h := by cases h
  hostLock _ _ h := by cases h
  launches _ := rfl
  cached _ _ _ h := by cases h
  kept _ _ h := by cases h

theorem inv_takes {e : Event E} (w : s.Inv) (h : s.Takes e s') : s'.Inv := by
  cases h with
  | connect endpoint hostless inlineHost => exact w.newHandle _
  | clone hs => exact w.clone _
  | @drop h c inner hs hb =>
    refine (w.releaseLast h).drop ?_
    unfold borrowed
    rw [(calls_releaseLast h).1, (calls_releaseLast h).2]
    exact hb
  | reconfigure hs hb he => exact w.reconfigure hs hb _
  | call hs => exact w.startCall hs
  | lock ht hs hl => exact w.acquire ht hs hl
  | locate ht hs hk hl => exact w.locate ht hs hk hl
  | launched ht hs hk result => exact w.launched ht hs hk result
  | connected ht hs failure => exact w.connected ht hs failure
  | cancel ht hp hs => exact w.cancel ht hs
  | close hs hl => exact w.release (site_eq_some.mp hs).2
  | hangUp hk => exact w.hangUp hk

theorem inv_run {es : List (Event E)} (h : run step init es = some s) : s.Inv :=
  run_invariant step inv_init (fun _ _ _ w hs => inv_takes w (takes_of_step hs)) h

theorem values_run {es : List (Event E)} (h : run step init es = some s) :
    s.values = es.foldl Values.step Values.init := by
  refine run_history step (P := fun es s => s.values = es.foldl Values.step Values.init) rfl ?_ h
  intro es s e s' hr hv hs
  rw [List.foldl_append, ← hv]
  exact (takes_values (inv_run hr).store (takes_of_step hs)).1

end Clients

end Afhttp.Sdk

import Mathlib
import Afhttp.Sdk.ClientRuns

/-!
# What a call for the connection of a client gets

    it was opened with what the client was configured with       (connection_settings)
    one that is returned is open; two open ones are one          (one_connection)
-/

namespace Afhttp.Sdk

open SharedCell Run

variable {E : Type*}

namespace Clients

variable {s s' : Clients E}

/-! ## What one step does to a call -/

/-- The hosts and connections that are there stay. -/
structure Stays (s s' : Clients E) : Prop where
  hosts : s.Keeps s'
  conns : ∀ k conn, s.conns k = some conn →
    ∃ conn', s'.conns k = some conn' ∧ ∀ cfg, Matches s'.hosts cfg conn → Matches s'.hosts cfg conn'

theorem Stays.rfl : s.Stays s := ⟨fun _ _ h => h, fun _ conn hk => ⟨conn, hk, fun _ hm => hm⟩⟩

theorem Stays.congr {s'' : Clients E} (h : s.Stays s') (hh : s''.hosts = s'.hosts) (hc : s''.conns = s'.conns) :
    s.Stays s'' := by
  constructor
  · intro k endpoint hk
    rw [hh]
    exact h.hosts k endpoint hk
  · intro k conn hk
    obtain ⟨conn', hk', hm⟩ := h.conns k conn hk
    refine ⟨conn', by rw [hc]; exact hk', fun cfg h' => ?_⟩
    rw [hh] at h' ⊢
    exact hm cfg h'

theorem Stays.release (w : s.Inv) {c : ℕ} {inner : ClientInner E} (hi : s.store.content c = some inner) :
    s.Stays (s.release c) := by
  refine ⟨fun _ _ h => h, fun k conn hk => ?_⟩
  rcases w.conns_release hi k with ⟨-, conn', hk', e⟩ | ⟨-, e⟩
  · cases hk.symm.trans hk'
    exact ⟨_, e, fun cfg hm => ⟨hm.token, hm.profile, hm.endpoint⟩⟩
  · exact ⟨conn, e.trans hk, fun _ hm => hm⟩

theorem Stays.releaseLast (w : s.Inv) (h : ℕ) : s.Stays (s.releaseLast h) := by
  unfold Clients.releaseLast
  cases hc : s.store.cell h with
  | none => exact .rfl
  | some c =>
    obtain ⟨inner, hi, -⟩ := w.store.get hc
    exact iteInduction (motive := s.Stays) (fun _ => .release w hi) fun _ => .rfl

theorem Stays.setHost {k : ℕ} {host : InlineHost E}
    (hk : ∀ endpoint, (s.hosts k).launched = some endpoint → host.launched = some endpoint) :
    s.Stays (s.setHost k host) := by
  refine ⟨fun k' endpoint hk' => ?_, fun k conn hconn => ⟨conn, hconn, fun _ hm => hm⟩⟩
  show ((Function.update s.hosts k host) k').launched = some endpoint
  rw [Function.update_apply]
  split
  · next e =>
    rw [e] at hk'
    exact hk endpoint hk'
  · exact hk'

/-- What a step does to call `t`, which is then in phase `o`, or gone. -/
structure Moves (s s' : Clients E) (t h : ℕ) (inner : ClientInner E) (o : Option (Phase E)) : Prop where
  calls : ∀ t', s'.calls t' = if t' = t then o.map fun phase => ⟨h, phase⟩ else s.calls t'
  nextCall : s'.nextCall = s.nextCall
  stays : s.Stays s'
  /-- A connection that is returned is open, and it is the one the client keeps. -/
  returned : ∀ k, o = some (.returned k) →
    s'.isOpen k = true ∧ ∃ c inner', s'.site h = some (c, inner') ∧ inner'.settings = inner.settings ∧
      inner'.cdp = some k

theorem calls_setPhase {t h : ℕ} {p : Phase E} (ht : s.calls t = some ⟨h, p⟩) (phase : Phase E) (t' : ℕ) :
    (s.setPhase t phase).calls t' = if t' = t then (some phase).map fun phase => ⟨h, phase⟩ else s.calls t' := by
  show Function.update s.calls t ((s.calls t).map fun call => { call with phase := phase }) t' = _
  rw [ht]
  exact Function.update_apply ..

theorem Moves.acquire {t h c : ℕ} {inner : ClientInner E} (ht : s.calls t = some ⟨h, .waiting⟩)
    (hs : s.site h = some (c, inner)) : ∃ o, s.Moves (s.acquire t c inner) t h inner o := by
  unfold Clients.acquire
  split
  · next k hk =>
    refine ⟨some (.returned k), calls_setPhase ht _, rfl, Stays.rfl.congr rfl rfl, fun k' e => ?_⟩
    cases e
    obtain ⟨hc, hopen⟩ := Option.filter_eq_some_iff.mp hk
    exact ⟨hopen, c, inner, hs, rfl, hc⟩
  · split
    · exact ⟨some (.failed noHost), calls_setPhase ht _, rfl, Stays.rfl.congr rfl rfl, fun k e => by cases e⟩
    · have hcalls := calls_setPhase (s := s.modify c fun inner => { inner with cdpLock := some t }) ht
      dsimp only
      split
      · exact ⟨some .locating, hcalls _, rfl, Stays.rfl.congr rfl rfl, fun k e => by cases e⟩
      · exact ⟨some (.connecting _), hcalls _, rfl, Stays.rfl.congr rfl rfl, fun k e => by cases e⟩

theorem Moves.locate {t h k : ℕ} {inner : ClientInner E} (ht : s.calls t = some ⟨h, .locating⟩) :
    ∃ o, s.Moves (s.locate t k) t h inner o := by
  unfold Clients.locate
  split
  · exact ⟨some (.connecting _), calls_setPhase ht _, rfl, Stays.rfl.congr rfl rfl, fun k e => by cases e⟩
  · have hset : s.Stays (s.setHost k { s.hosts k with lock := some t }) := Stays.setHost fun _ h => h
    exact ⟨some .launching, calls_setPhase (s := s.setHost k _) ht _, rfl, hset.congr rfl rfl,
      fun k e => by cases e⟩

theorem Moves.launched (w : s.Inv) {t h c k : ℕ} {inner : ClientInner E} (ht : s.calls t = some ⟨h, .launching⟩)
    (hs : s.site h = some (c, inner)) (hk : inner.settings.inlineHost = some k) (result : Except Error E) :
    ∃ o, s.Moves (s.launched t c k result) t h inner o := by
  have hnone := (w.launching ht hs hk).2.1
  cases result with
  | ok endpoint =>
    have hset : s.Stays (s.setHost k ⟨some endpoint, none, (s.hosts k).launches + 1⟩) :=
      Stays.setHost fun _ h => absurd (hnone.symm.trans h) (by simp)
    exact ⟨some (.connecting endpoint), calls_setPhase (s := s.setHost k _) ht _, rfl, hset.congr rfl rfl,
      fun k e => by cases e⟩
  | error e =>
    have hset : s.Stays (s.setHost k { s.hosts k with lock := none }) := Stays.setHost fun _ h => h
    exact ⟨some (.failed e), calls_setPhase (s := (s.setHost k _).unlock c) ht _, rfl, hset.congr rfl rfl,
      fun k e => by cases e⟩

theorem Moves.connected (w : s.Inv) {t h c : ℕ} {inner : ClientInner E} {endpoint : E}
    (ht : s.calls t = some ⟨h, .connecting endpoint⟩) (hs : s.site h = some (c, inner))
    (failure : Option Error) : ∃ o, s.Moves (s.connected t c inner endpoint failure) t h inner o := by
  cases failure with
  | some e =>
    exact ⟨some (.failed e), calls_setPhase (s := s.unlock c) ht _, rfl, Stays.rfl.congr rfl rfl,
      fun k e => by cases e⟩
  | none =>
    obtain ⟨hcell, hi⟩ := site_eq_some.mp hs
    refine ⟨some (.returned s.nextConn), calls_setPhase (s := s.modify c _) ht _, rfl, ⟨fun _ _ h => h, ?_⟩, ?_⟩
    · intro k conn hk
      refine ⟨conn, ?_, fun _ hm => hm⟩
      exact (Function.update_of_ne (Nat.ne_of_lt (w.conn_lt k conn hk)) _ s.conns).trans hk
    · intro k e
      cases e
      refine ⟨(Option.any_eq_true ..).mpr ⟨_, Function.update_self .., rfl⟩, c,
        { inner with cdp := some s.nextConn, cdpLock := none }, site_eq_some.mpr ⟨hcell, ?_⟩, rfl, rfl⟩
      exact (content_modify hi (fun inner => { inner with cdp := some s.nextConn, cdpLock := none }) c).trans
        (if_pos rfl)

theorem Moves.cancel {t h c : ℕ} {inner : ClientInner E} (phase : Phase E) :
    s.Moves (s.cancel t c inner phase) t h inner none := by
  have hcalls : ∀ t', (Function.update s.calls t none) t' = if t' = t then none else s.calls t' :=
    fun t' => Function.update_apply ..
  unfold Clients.cancel
  cases phase with
  | launching =>
    cases inner.settings.inlineHost with
    | none => exact ⟨hcalls, rfl, Stays.rfl.congr rfl rfl, fun k e => by cases e⟩
    | some k =>
      have hset : s.Stays (s.setHost k { s.hosts k with lock := none }) := Stays.setHost fun _ h => h
      exact ⟨hcalls, rfl, hset.congr rfl rfl, fun k e => by cases e⟩
  | _ => exact ⟨hcalls, rfl, Stays.rfl.congr rfl rfl, fun k e => by cases e⟩

/-- **A step and the calls.**  It moves one call that is in flight, starts one, or leaves them all. -/
theorem takes_calls (w : s.Inv) {e : Event E} (h : s.Takes e s') :
    (∃ t h c inner phase o, s.calls t = some ⟨h, phase⟩ ∧ phase.inFlight = true ∧ s.site h = some (c, inner) ∧
      s.Moves s' t h inner o) ∨
    s.Stays s' ∧ s.nextCall ≤ s'.nextCall ∧
      ∀ t, s'.calls t = s.calls t ∨ t = s.nextCall ∧ ∃ h, s'.calls t = some ⟨h, .waiting⟩ := by
  cases h with
  | connect endpoint hostless inlineHost => exact .inr ⟨Stays.rfl.congr rfl rfl, le_rfl, fun _ => .inl rfl⟩
  | clone hs => exact .inr ⟨Stays.rfl.congr rfl rfl, le_rfl, fun _ => .inl rfl⟩
  | @drop h c inner hs hb =>
    exact .inr ⟨(Stays.releaseLast w h).congr rfl rfl, (calls_releaseLast h).2.ge,
      fun t => .inl (congrFun (calls_releaseLast h).1 t)⟩
  | @reconfigure h c inner _ u hs hb he =>
    exact .inr ⟨(Stays.releaseLast w h).congr rfl rfl, (calls_releaseLast h).2.ge,
      fun t => .inl (congrFun (calls_releaseLast h).1 t)⟩
  | @call h c inner hs =>
    refine .inr ⟨Stays.rfl.congr rfl rfl, Nat.le_succ _, fun t => ?_⟩
    by_cases ht : t = s.nextCall
    · subst ht
      exact .inr ⟨rfl, h, Function.update_self ..⟩
    · exact .inl (Function.update_of_ne ht ..)
  | lock ht hs hl =>
    obtain ⟨o, hm⟩ := Moves.acquire ht hs
    exact .inl ⟨_, _, _, _, _, o, ht, rfl, hs, hm⟩
  | locate ht hs hk hl =>
    obtain ⟨o, hm⟩ := Moves.locate ht
    exact .inl ⟨_, _, _, _, _, o, ht, rfl, hs, hm⟩
  | launched ht hs hk result =>
    obtain ⟨o, hm⟩ := Moves.launched w ht hs hk result
    exact .inl ⟨_, _, _, _, _, o, ht, rfl, hs, hm⟩
  | connected ht hs failure =>
    obtain ⟨o, hm⟩ := Moves.connected w ht hs failure
    exact .inl ⟨_, _, _, _, _, o, ht, rfl, hs, hm⟩
  | cancel ht hp hs => exact .inl ⟨_, _, _, _, _, none, ht, hp, hs, Moves.cancel _⟩
  | close hs hl => exact .inr ⟨.release w (site_eq_some.mp hs).2, le_rfl, fun _ => .inl rfl⟩
  | @hangUp k conn hk =>
    refine .inr ⟨⟨fun _ _ h => h, fun k' conn' hk' => ?_⟩, le_rfl, fun _ => .inl rfl⟩
    by_cases he : k' = k
    · subst he
      cases hk.symm.trans hk'
      exact ⟨_, Function.update_self .., fun cfg hm => ⟨hm.token, hm.profile, hm.endpoint⟩⟩
    · exact ⟨conn', (Function.update_of_ne he _ s.conns).trans hk', fun _ hm => hm⟩

theorem Inv.site_of_inFlight (w : s.Inv) {t : ℕ} {call : Call E} (ht : s.calls t = some call)
    (hp : call.phase.inFlight) : ∃ c inner, s.site call.handle = some (c, inner) := by
  have hok := w.call t call ht
  cases hph : call.phase with
  | waiting =>
    rw [hph] at hok
    exact hok
  | locating =>
    rw [hph] at hok
    obtain ⟨c, inner, k, hs, -⟩ := hok
    exact ⟨c, inner, hs⟩
  | launching =>
    rw [hph] at hok
    obtain ⟨c, inner, k, hs, -⟩ := hok
    exact ⟨c, inner, hs⟩
  | connecting endpoint =>
    rw [hph] at hok
    obtain ⟨c, inner, hs, -⟩ := hok
    exact ⟨c, inner, hs⟩
  | returned k =>
    rw [hph] at hp
    cases hp
  | failed e =>
    rw [hph] at hp
    cases hp

/-- **A borrowed client is not reconfigured.** -/
theorem settings_borrowed (w : s.Inv) {e : Event E} (h : s.Takes e s') {t : ℕ} {call : Call E}
    (ht : s.calls t = some call) (hp : call.phase.inFlight) :
    s'.values.settings call.handle = s.values.settings call.handle := by
  rw [(takes_values w.store h).1]
  have hnext : call.handle ≠ s.values.next := by
    obtain ⟨c, inner, hs⟩ := w.site_of_inFlight ht hp
    exact Nat.ne_of_lt (w.store.handle_lt _ c (site_eq_some.mp hs).1)
  cases h with
  | connect endpoint hostless inlineHost => exact Function.update_of_ne hnext ..
  | clone hs => exact Function.update_of_ne hnext ..
  | drop hs hb => exact Function.update_of_ne (w.ne_of_borrowed hb ht hp) ..
  | reconfigure hs hb he =>
    rw [he]
    exact Function.update_of_ne (w.ne_of_borrowed hb ht hp) ..
  | _ => rfl

/-! ## Whose connection a call gets -/

/-- What is known of a call that was made when its client had the settings `cfg`. -/
structure Made (s : Clients E) (t h : ℕ) (cfg : Settings E) : Prop where
  inv : s.Inv
  lt : t < s.nextCall
  handle : ∀ call, s.calls t = some call → call.handle = h
  settings : ∀ call, s.calls t = some call → call.phase.inFlight → s.values.settings h = some cfg
  conn : ∀ call k, s.calls t = some call → call.phase = .returned k →
    ∃ conn, s.conns k = some conn ∧ Matches s.hosts cfg conn

theorem Made.takes {t h : ℕ} {cfg : Settings E} (m : s.Made t h cfg) {e : Event E} (hs : s.Takes e s') :
    s'.Made t h cfg := by
  have hsettings : ∀ call, s.calls t = some call → call.phase.inFlight → s'.values.settings h = some cfg := by
    intro call ht hp
    rw [← m.handle call ht, settings_borrowed m.inv hs ht hp, m.handle call ht]
    exact m.settings call ht hp
  have hconn : s.Stays s' → ∀ call k, s.calls t = some call → call.phase = .returned k →
      ∃ conn, s'.conns k = some conn ∧ Matches s'.hosts cfg conn := by
    intro hst call k ht hk
    obtain ⟨conn, hconn, hm⟩ := m.conn call k ht hk
    obtain ⟨conn', hconn', hm'⟩ := hst.conns k conn hconn
    exact ⟨conn', hconn', hm' cfg (hm.mono hst.hosts)⟩
  have w' := inv_takes m.inv hs
  rcases takes_calls m.inv hs with ⟨t₀, h₀, c, inner, phase, o, ht₀, hp₀, hsite, hmv⟩ | ⟨hst, hlt, hcalls⟩
  · by_cases he : t = t₀
    · subst he
      obtain rfl : h₀ = h := m.handle _ ht₀
      have hcfg : inner.settings = cfg := by
        have hv := m.settings _ ht₀ hp₀
        obtain ⟨hcell, hi⟩ := site_eq_some.mp hsite
        have hview : s.values.settings h₀ = some inner.settings := by
          show ((s.store.cell h₀).bind s.store.content).map ClientInner.settings = _
          rw [hcell, Option.bind_some, hi, Option.map_some]
        exact Option.some.inj (hview.symm.trans hv)
      have hnew : ∀ call, s'.calls t = some call → ∃ phase', o = some phase' ∧ call = ⟨h₀, phase'⟩ := by
        intro call ht
        rw [hmv.calls, if_pos rfl] at ht
        obtain ⟨phase', ho, e⟩ := Option.map_eq_some_iff.mp ht
        exact ⟨phase', ho, e.symm⟩
      refine ⟨w', hmv.nextCall ▸ m.lt, fun call ht => ?_, fun call ht hp => hsettings _ ht₀ hp₀,
        fun call k ht hk => ?_⟩
      · obtain ⟨phase', -, rfl⟩ := hnew call ht
        rfl
      · obtain ⟨phase', ho, rfl⟩ := hnew call ht
        obtain ⟨-, c', inner', hs', he, hc⟩ := hmv.returned k (by rw [ho]; exact congrArg some hk)
        obtain ⟨conn, hconn, -, -, hm⟩ := w'.cached c' inner' k (site_eq_some.mp hs').2 hc
        exact ⟨conn, hconn, by rw [← hcfg, ← he]; exact hm⟩
    · have hsame : s'.calls t = s.calls t := (hmv.calls t).trans (if_neg he)
      refine ⟨w', hmv.nextCall ▸ m.lt, fun call ht => ?_, fun call ht hp => ?_, fun call k ht hk => ?_⟩
      · exact m.handle call (hsame.symm.trans ht)
      · exact hsettings call (hsame.symm.trans ht) hp
      · exact hconn hmv.stays call k (hsame.symm.trans ht) hk
  · have hsame : s'.calls t = s.calls t := (hcalls t).resolve_right fun h => Nat.ne_of_lt m.lt h.1
    refine ⟨w', lt_of_lt_of_le m.lt hlt, fun call ht => ?_, fun call ht hp => ?_, fun call k ht hk => ?_⟩
    · exact m.handle call (hsame.symm.trans ht)
    · exact hsettings call (hsame.symm.trans ht) hp
    · exact hconn hst call k (hsame.symm.trans ht) hk

/-- A new call. -/
def start (s : Clients E) (h : ℕ) : Clients E :=
  { s with calls := Function.update s.calls s.nextCall (some ⟨h, .waiting⟩), nextCall := s.nextCall + 1 }

theorem settings_of_site {h c : ℕ} {inner : ClientInner E} (hs : s.site h = some (c, inner)) :
    s.values.settings h = some inner.settings := by
  obtain ⟨hcell, hi⟩ := site_eq_some.mp hs
  show ((s.store.cell h).bind s.store.content).map ClientInner.settings = _
  rw [hcell, Option.bind_some, hi, Option.map_some]

theorem Made.start (w : s.Inv) {h c : ℕ} {inner : ClientInner E} (hs : s.site h = some (c, inner)) :
    (s.start h).Made s.nextCall h inner.settings := by
  have hself : ∀ call, (s.start h).calls s.nextCall = some call → call = ⟨h, .waiting⟩ := by
    intro call ht
    exact Option.some.inj (ht.symm.trans (Function.update_self s.nextCall _ s.calls))
  refine ⟨w.startCall hs, Nat.lt_succ_self _, fun call ht => ?_, fun call ht hp => ?_, fun call k ht hk => ?_⟩
  · rw [hself call ht]
  · exact settings_of_site (s := s) hs
  · rw [hself call ht] at hk
    cases hk

/-- **A call gets a connection with its client's settings.**  They are what the client had when the
call was made, whatever other clients, clones of it among them, were configured with since. -/
theorem connection_settings {xs ys : List (Event E)} {h h' k : ℕ} {u : Clients E}
    (hu : run step init xs = some u) (hs : run step init (xs ++ .call h :: ys) = some s)
    (hk : s.calls u.nextCall = some ⟨h', .returned k⟩) :
    ∃ cfg conn, (xs.foldl Values.step Values.init).settings h = some cfg ∧ s.conns k = some conn ∧
      Matches s.hosts cfg conn := by
  obtain ⟨u', hu', hrest⟩ := run_prefix step hs
  cases hu.symm.trans hu'
  obtain ⟨v, hv, hrun⟩ := Option.bind_eq_some_iff.mp hrest
  simp only [step] at hv
  split at hv
  · next hsome =>
    obtain ⟨⟨c, inner⟩, hsite⟩ := Option.isSome_iff_exists.mp hsome
    have hstart : (u.start h).Made u.nextCall h inner.settings := Made.start (inv_run hu) hsite
    rw [← Option.some.inj hv] at hrun
    have hm := run_invariant step (I := fun s : Clients E => s.Made u.nextCall h inner.settings) hstart
      (fun _ _ _ m hs => m.takes (takes_of_step hs)) hrun
    obtain ⟨conn, hconn, hmatch⟩ := hm.conn _ k hk rfl
    exact ⟨inner.settings, conn, by rw [← values_run hu]; exact settings_of_site hsite, hconn, hmatch⟩
  · cases hv

/-- A client is cloned and the clone is given a profile. -/
def cloned : List (Event String) :=
  [.connect "ws://a" false none, .withToken 0 "t", .clone 0, .withProfile 1 "work"]

/-- Its call, while the other client changes. -/
def callOfClone : List (Event String) := [.withToken 0 "u", .lock 0, .connected 0 none]

theorem connection_settings_cloned :
    ∃ u s : Clients String, run step init cloned = some u ∧
      run step init (cloned ++ .call 1 :: callOfClone) = some s ∧
      ∃ cfg conn, (cloned.foldl Values.step Values.init).settings 1 = some cfg ∧ s.conns 0 = some conn ∧
        Matches s.hosts cfg conn := by
  have hcalled : ((run step init (cloned ++ .call 1 :: callOfClone)).bind fun s => s.calls 0) =
      some ⟨1, .returned 0⟩ := rfl
  obtain ⟨s, hs, hk⟩ := Option.bind_eq_some_iff.mp hcalled
  obtain ⟨u, hu, -⟩ := run_prefix step hs
  have hnext : (run step init cloned).map nextCall = some 0 := rfl
  rw [hu, Option.map_some] at hnext
  exact ⟨u, s, hu, hs, connection_settings hu hs (by rw [Option.some.inj hnext]; exact hk)⟩

/-! ## One connection at a time -/

/-- **One connection.**  Of the connections that a client has opened and not let go of, at most one is
open, and what a call returns is that one.  No two calls connect for one client at a time, and no
inline host is launched twice. -/
theorem one_connection {es : List (Event E)} (h : run step init es = some s) :
    (∀ k k' conn conn', s.conns k = some conn → s.conns k' = some conn' → conn.owner = conn'.owner →
      conn.closed = false → conn'.closed = false → conn.released = false → conn'.released = false → k = k') ∧
    (∀ e s' t h k, s.step e = some s' → s'.calls t = some ⟨h, .returned k⟩ → s'.calls t ≠ s.calls t →
      ∃ conn, s'.conns k = some conn ∧ s'.store.cell h = some conn.owner ∧ conn.closed = false ∧
        conn.released = false) ∧
    (∀ t t' call call', s.calls t = some call → s.calls t' = some call' → call.phase.holdsCdp →
      call'.phase.holdsCdp → s.store.cell call.handle = s.store.cell call'.handle → t = t') ∧
    ∀ k, (s.hosts k).launches ≤ 1 := by
  have w := inv_run h
  refine ⟨?_, ?_, ?_, ?_⟩
  · intro k k' conn conn' hk hk' ho hcl hcl' hr hr'
    obtain ⟨inner, hi, hc⟩ := w.kept k conn hk hcl hr
    obtain ⟨inner', hi', hc'⟩ := w.kept k' conn' hk' hcl' hr'
    rw [← ho, hi] at hi'
    cases hi'
    exact Option.some.inj (hc.symm.trans hc')
  · intro e s' t h k hs ht hne
    have w' := inv_takes w (takes_of_step hs)
    rcases takes_calls w (takes_of_step hs) with ⟨t₀, h₀, c, inner, phase, o, -, -, -, hmv⟩ | ⟨-, hlt, hcalls⟩
    · by_cases he : t = t₀
      · subst he
        rw [hmv.calls, if_pos rfl] at ht
        obtain ⟨phase', ho, e'⟩ := Option.map_eq_some_iff.mp ht
        cases e'
        obtain ⟨hopen, c', inner', hs', -, hc⟩ := hmv.returned k ho
        obtain ⟨hcell, hi⟩ := site_eq_some.mp hs'
        obtain ⟨conn, hconn, ho, hr, -⟩ := w'.cached c' inner' k hi hc
        refine ⟨conn, hconn, ho ▸ hcell, ?_, hr⟩
        obtain ⟨conn', hconn', hcl⟩ := (Option.any_eq_true ..).mp hopen
        cases hconn.symm.trans hconn'
        simpa using hcl
      · rw [hmv.calls, if_neg he] at hne
        exact absurd rfl hne
    · rcases hcalls t with e | ⟨-, h', e⟩
      · exact absurd e hne
      · cases ht.symm.trans e
  · intro t t' call call' ht ht' hp hp' hcell
    obtain ⟨c, inner, hs⟩ := w.site_of_inFlight ht (Phase.inFlight_of_holdsCdp hp)
    obtain ⟨hc, hi⟩ := site_eq_some.mp hs
    have hs' : s.site call'.handle = some (c, inner) := site_eq_some.mpr ⟨hcell.symm.trans hc, hi⟩
    have hl := (w.held (h := call.handle) ht hp hs).lock
    have hl' := (w.held (h := call'.handle) ht' hp' hs').lock
    exact Option.some.inj (hl.symm.trans hl')
  · intro k
    rw [w.launches k]
    split <;> omega

/-- Two clones call at a time; the second waits for the first to connect. -/
def twoCalls : List (Event String) :=
  [.connect "ws://a" false none, .clone 0, .call 0, .call 1, .lock 0, .connected 0 none, .lock 1]

theorem one_connection_twoCalls :
    ∃ s : Clients String, run step init twoCalls = some s ∧
      (∀ t t' call call', s.calls t = some call → s.calls t' = some call' → call.phase.holdsCdp →
        call'.phase.holdsCdp → s.store.cell call.handle = s.store.cell call'.handle → t = t') ∧
      ∀ k, (s.hosts k).launches ≤ 1 :=
  ⟨(run step init twoCalls).get rfl, (Option.some_get _).symm, (one_connection (Option.some_get _).symm).2.2⟩

end Clients

end Afhttp.Sdk

import Mathlib
import Afhttp.Sdk.ClientCalls

/-!
# A call for a connection can always end

A call may wait for the lock of its client's connection, and the one that holds it for the lock of
an inline host, held by a call of another client.  There is no circle in this, also after calls
were cancelled or have failed: the steps of the calls themselves lead to the end of any of them.

    who holds the lock of a client's connection can end     (holder_ends)
    so every call can                                       (call_can_end)
-/

namespace Afhttp.Sdk

open SharedCell Run

variable {E : Type*}

/-- A step of a call that goes on. -/
def Event.isWork : Event E → Bool
  | .lock _ | .locate _ | .launched _ _ | .connected _ _ => true
  | _ => false

namespace Clients

variable {s s' : Clients E}

/-! ## Steps that can be taken -/

theorem step_lock {t h c : ℕ} {inner : ClientInner E} (ht : s.calls t = some ⟨h, .waiting⟩)
    (hs : s.site h = some (c, inner)) (hl : inner.cdpLock = none) :
    s.step (.lock t) = some (s.acquire t c inner) := by
  simp only [step, ht, hs, hl, if_true]

theorem step_locate {t h c k : ℕ} {inner : ClientInner E} (ht : s.calls t = some ⟨h, .locating⟩)
    (hs : s.site h = some (c, inner)) (hk : inner.settings.inlineHost = some k) (hl : (s.hosts k).lock = none) :
    s.step (.locate t) = some (s.locate t k) := by
  simp only [step, ht, hs, Option.bind_some, hk, hl, if_true]

theorem step_launched {t h c k : ℕ} {inner : ClientInner E} (ht : s.calls t = some ⟨h, .launching⟩)
    (hs : s.site h = some (c, inner)) (hk : inner.settings.inlineHost = some k) (result : Except Error E) :
    s.step (.launched t result) = some (s.launched t c k result) := by
  simp only [step, ht, hs, hk, Option.map_some]

theorem step_connected {t h c : ℕ} {inner : ClientInner E} {endpoint : E}
    (ht : s.calls t = some ⟨h, .connecting endpoint⟩) (hs : s.site h = some (c, inner))
    (failure : Option Error) :
    s.step (.connected t failure) = some (s.connected t c inner endpoint failure) := by
  simp only [step, ht, hs, Option.map_some]

/-- Steps of calls, from `s` to `s'`, through which those that wait for a connection still wait. -/
structure Works (s s' : Clients E) (es : List (Event E)) : Prop where
  run : run step s es = some s'
  work : ∀ e ∈ es, e.isWork = true
  cell : s'.store.cell = s.store.cell
  values : s'.values = s.values
  waiting : ∀ t h, s.calls t = some ⟨h, .waiting⟩ → s'.calls t = some ⟨h, .waiting⟩

theorem Works.trans {s'' : Clients E} {es es' : List (Event E)} (h : s.Works s' es) (h' : s'.Works s'' es') :
    s.Works s'' (es ++ es') where
  run := by rw [run_append, h.run]; exact h'.run
  work e he := (List.mem_append.mp he).elim (h.work e) (h'.work e)
  cell := h'.cell.trans h.cell
  values := h'.values.trans h.values
  waiting t hd ht := h'.waiting t hd (h.waiting t hd ht)

/-- One step of a call that does not wait for a connection. -/
theorem Works.of_move {e : Event E} {t h : ℕ} {inner : ClientInner E} {o : Option (Phase E)} {phase : Phase E}
    (hstep : s.step e = some s') (he : e.isWork = true) (ht : s.calls t = some ⟨h, phase⟩)
    (hp : phase.holdsCdp = true) (hm : s.Moves s' t h inner o) (hcell : s'.store.cell = s.store.cell)
    (hv : s'.values = s.values) : s.Works s' [e] where
  run := by rw [run_cons, hstep]; rfl
  work e' he' := by rw [List.mem_singleton.mp he']; exact he
  cell := hcell
  values := hv
  waiting t' h' ht' := by
    have hne : t' ≠ t := by
      rintro rfl
      cases ht.symm.trans ht'
      cases hp
    rw [hm.calls, if_neg hne]
    exact ht'

theorem Works.inv {es : List (Event E)} (w : s.Inv) (h : s.Works s' es) : s'.Inv :=
  run_invariant step w (fun _ _ _ w hs => inv_takes w (takes_of_step hs)) h.run

/-! ## Who holds the lock ends -/

/-- Call `t` has its connection, and the lock of its cell `c` is free. -/
structure Ended (s : Clients E) (t h c : ℕ) : Prop where
  call : ∃ k, s.calls t = some ⟨h, .returned k⟩
  free : ∃ inner, s.store.content c = some inner ∧ inner.cdpLock = none

theorem connecting_ends (w : s.Inv) {t h c : ℕ} {inner : ClientInner E} {endpoint : E}
    (ht : s.calls t = some ⟨h, .connecting endpoint⟩) (hs : s.site h = some (c, inner)) :
    ∃ es s', s.Works s' es ∧ s'.Ended t h c := by
  have hstep := step_connected ht hs none
  have hi := (site_eq_some.mp hs).2
  obtain ⟨o, hm⟩ := Moves.connected w ht hs none
  have hv := ((SameClients.connected t c inner endpoint none).takes w.store).1
  refine ⟨_, _, .of_move hstep rfl ht rfl hm rfl hv, ?_, ?_⟩
  · exact ⟨s.nextConn, (calls_setPhase (s := s.modify c _) ht _ t).trans (if_pos rfl)⟩
  · exact ⟨_, (content_modify hi (fun inner => { inner with cdp := some s.nextConn, cdpLock := none }) c).trans
      (if_pos rfl), rfl⟩

/-- A launch that is under way can succeed. -/
theorem launch_works (w : s.Inv) {t h c k : ℕ} {inner : ClientInner E} (ht : s.calls t = some ⟨h, .launching⟩)
    (hs : s.site h = some (c, inner)) (hk : inner.settings.inlineHost = some k) (endpoint : E) :
    s.Works (s.launched t c k (.ok endpoint)) [.launched t (.ok endpoint)] := by
  obtain ⟨o, hm⟩ := Moves.launched w ht hs hk (.ok endpoint)
  exact .of_move (step_launched ht hs hk (.ok endpoint)) rfl ht rfl hm rfl rfl

theorem calls_launched {t h : ℕ} (ht : s.calls t = some ⟨h, .launching⟩) (c k : ℕ) (endpoint : E) (t' : ℕ) :
    (s.launched t c k (.ok endpoint)).calls t' = if t' = t then some ⟨h, .connecting endpoint⟩ else s.calls t' :=
  calls_setPhase (s := s.setHost k _) ht _ t'

theorem launching_ends (w : s.Inv) {t h c : ℕ} {inner : ClientInner E}
    (ht : s.calls t = some ⟨h, .launching⟩) (hs : s.site h = some (c, inner)) :
    ∃ es s', s.Works s' es ∧ s'.Ended t h c := by
  obtain ⟨c', inner', k, hs', -, hk, -⟩ := w.call t _ ht
  cases hs.symm.trans hs'
  have hw := launch_works w ht hs hk inner.settings.endpoint
  have ht' := (calls_launched ht c k inner.settings.endpoint t).trans (if_pos rfl)
  obtain ⟨es, s', hw', hends⟩ := connecting_ends (hw.inv w) ht' hs
  exact ⟨_, s', hw.trans hw', hends⟩

theorem locating_ends_of_free (w : s.Inv) {t h c k : ℕ} {inner : ClientInner E}
    (ht : s.calls t = some ⟨h, .locating⟩) (hs : s.site h = some (c, inner))
    (hk : inner.settings.inlineHost = some k) (hl : (s.hosts k).lock = none) :
    ∃ es s', s.Works s' es ∧ s'.Ended t h c := by
  have hstep := step_locate ht hs hk hl
  have hmoves : ∃ o, s.Moves (s.locate t k) t h inner o := Moves.locate ht
  obtain ⟨o, hm⟩ := hmoves
  unfold Clients.locate at hstep hm
  cases hd : (s.hosts k).launched with
  | some endpoint =>
    simp only [hd] at hstep hm
    have hw := Works.of_move hstep rfl ht rfl hm rfl rfl
    obtain ⟨es, s', hw', hends⟩ := connecting_ends (hw.inv w) ((calls_setPhase ht _ t).trans (if_pos rfl)) hs
    exact ⟨_, s', hw.trans hw', hends⟩
  | none =>
    simp only [hd] at hstep hm
    have hw := Works.of_move hstep rfl ht rfl hm rfl rfl
    obtain ⟨es, s', hw', hends⟩ :=
      launching_ends (hw.inv w) ((calls_setPhase (s := s.setHost k _) ht _ t).trans (if_pos rfl)) hs
    exact ⟨_, s', hw.trans hw', hends⟩

/-- If another call launches the host, that one is launched first. -/
theorem locating_ends (w : s.Inv) {t h c : ℕ} {inner : ClientInner E}
    (ht : s.calls t = some ⟨h, .locating⟩) (hs : s.site h = some (c, inner)) :
    ∃ es s', s.Works s' es ∧ s'.Ended t h c := by
  obtain ⟨c', inner', k, hs', -, hk⟩ := w.call t _ ht
  cases hs.symm.trans hs'
  cases hl : (s.hosts k).lock with
  | none => exact locating_ends_of_free w ht hs hk hl
  | some t₂ =>
    obtain ⟨h₂, c₂, inner₂, ht₂, hs₂, hk₂⟩ := w.hostLock k t₂ hl
    have hw := launch_works w ht₂ hs₂ hk₂ inner₂.settings.endpoint
    have hne : t ≠ t₂ := by
      rintro rfl
      cases ht.symm.trans ht₂
    have ht' := ((calls_launched ht₂ c₂ k inner₂.settings.endpoint t).trans (if_neg hne)).trans ht
    have hfree : ((s.launched t₂ c₂ k (.ok inner₂.settings.endpoint)).hosts k).lock = none :=
      congrArg InlineHost.lock (Function.update_self k _ s.hosts)
    obtain ⟨es, s', hw', hends⟩ := locating_ends_of_free (hw.inv w) ht' hs hk hfree
    exact ⟨_, s', hw.trans hw', hends⟩

theorem holder_ends (w : s.Inv) {t h c : ℕ} {inner : ClientInner E} {phase : Phase E}
    (ht : s.calls t = some ⟨h, phase⟩) (hp : phase.holdsCdp = true) (hs : s.site h = some (c, inner)) :
    ∃ es s', s.Works s' es ∧ s'.Ended t h c := by
  cases phase with
  | locating => exact locating_ends w ht hs
  | launching => exact launching_ends w ht hs
  | connecting endpoint => exact connecting_ends w ht hs
  | waiting => cases hp
  | returned k => cases hp
  | failed e => cases hp

/-! ## Every call ends -/

/-- Steps of calls after which call `t` has ended, with a connection if its client has a host. -/
structure Finishes (s s' : Clients E) (t h : ℕ) (es : List (Event E)) : Prop where
  run : run step s es = some s'
  work : ∀ e ∈ es, e.isWork = true
  ends : ∃ phase, s'.calls t = some ⟨h, phase⟩ ∧ phase.inFlight = false ∧
    ∀ cfg, s.values.settings h = some cfg → cfg.hostless = false → ∃ k, phase = .returned k

theorem Works.finishes {t h c : ℕ} {es : List (Event E)} (hw : s.Works s' es) (he : s'.Ended t h c) :
    s.Finishes s' t h es := by
  obtain ⟨k, hk⟩ := he.call
  exact ⟨hw.run, hw.work, _, hk, rfl, fun _ _ _ => ⟨k, rfl⟩⟩

/-- What a call that gets the lock goes on to: a connection that is open, or the search for one. -/
theorem acquire_cases {t h : ℕ} (c : ℕ) (inner : ClientInner E) (ht : s.calls t = some ⟨h, .waiting⟩) :
    ∃ phase, (s.acquire t c inner).calls t = some ⟨h, phase⟩ ∧
      ((∃ k, phase = .returned k) ∨ phase = .failed noHost ∧ inner.settings.hostless = true ∨
        phase.holdsCdp = true) := by
  unfold Clients.acquire
  split
  · next k _ => exact ⟨.returned k, (calls_setPhase ht _ t).trans (if_pos rfl), .inl ⟨k, rfl⟩⟩
  · split
    · next hno => exact ⟨.failed noHost, (calls_setPhase ht _ t).trans (if_pos rfl), .inr (.inl ⟨rfl, hno⟩)⟩
    · have hcalls := calls_setPhase (s := s.modify c fun inner => { inner with cdpLock := some t }) ht
      dsimp only
      split
      · exact ⟨.locating, (hcalls _ t).trans (if_pos rfl), .inr (.inr rfl)⟩
      · exact ⟨.connecting _, (hcalls _ t).trans (if_pos rfl), .inr (.inr rfl)⟩

theorem waiting_ends_of_free (w : s.Inv) {t h c : ℕ} {inner : ClientInner E}
    (ht : s.calls t = some ⟨h, .waiting⟩) (hs : s.site h = some (c, inner)) (hl : inner.cdpLock = none) :
    ∃ es s', s.Finishes s' t h es := by
  have hstep := step_lock ht hs hl
  have hv : (s.acquire t c inner).values = s.values := (SameClients.acquire t c inner).1
  have hone : run step s [.lock t] = some (s.acquire t c inner) := by
    rw [run_cons, hstep]
    rfl
  have hwork : ∀ e ∈ [(Event.lock t : Event E)], e.isWork = true := by
    intro e he
    rw [List.mem_singleton.mp he]
    rfl
  obtain ⟨phase, hcall, ⟨k, rfl⟩ | ⟨rfl, hhostless⟩ | hp⟩ := acquire_cases c inner ht
  · exact ⟨_, _, hone, hwork, _, hcall, rfl, fun _ _ _ => ⟨k, rfl⟩⟩
  · refine ⟨_, _, hone, hwork, _, hcall, rfl, fun cfg hcfg hno => ?_⟩
    rw [settings_of_site hs] at hcfg
    cases hcfg
    rw [hhostless] at hno
    cases hno
  · have w' : (s.acquire t c inner).Inv := w.acquire ht hs hl
    obtain ⟨c', inner', hs'⟩ := w'.site_of_inFlight hcall (Phase.inFlight_of_holdsCdp hp)
    obtain ⟨es, s', hw, hends⟩ := holder_ends w' hcall hp hs'
    obtain ⟨hrun, hwork', hends'⟩ := hw.finishes hends
    refine ⟨[.lock t] ++ es, s', ?_, ?_, ?_⟩
    · rw [run_append, hone]
      exact hrun
    · exact fun e he => (List.mem_append.mp he).elim (hwork e) (hwork' e)
    · rw [← hv]
      exact hends'

/-- **Every call can end**, in every state that is reached: by steps of calls alone, none of them
cancelled, and with a connection if its client has a host to go to. -/
theorem call_can_end {es : List (Event E)} (hrun : run step init es = some s) {t : ℕ} {call : Call E}
    (ht : s.calls t = some call) (hp : call.phase.inFlight = true) :
    ∃ es' s', s.Finishes s' t call.handle es' := by
  have w := inv_run hrun
  obtain ⟨c, inner, hs⟩ := w.site_of_inFlight ht hp
  obtain ⟨h, phase⟩ := call
  by_cases hholds : phase.holdsCdp = true
  · obtain ⟨es', s', hw, hends⟩ := holder_ends w ht hholds hs
    exact ⟨es', s', hw.finishes hends⟩
  · have hwaiting : phase = .waiting := by
      cases phase with
      | waiting => rfl
      | locating => exact absurd rfl hholds
      | launching => exact absurd rfl hholds
      | connecting endpoint => exact absurd rfl hholds
      | returned k => cases hp
      | failed e => cases hp
    subst hwaiting
    obtain ⟨hcell, hi⟩ := site_eq_some.mp hs
    cases hl : inner.cdpLock with
    | none => exact waiting_ends_of_free w ht hs hl
    | some t₂ =>
      -- who holds the lock ends first
      obtain ⟨call₂, ht₂, hp₂, hcell₂⟩ := w.cdpLock c inner t₂ hi hl
      obtain ⟨es₁, s₁, hw, hends⟩ := holder_ends w ht₂ hp₂ (site_eq_some.mpr ⟨hcell₂, hi⟩)
      obtain ⟨inner₁, hi₁, hl₁⟩ := hends.free
      have hs₁ : s₁.site h = some (c, inner₁) := site_eq_some.mpr ⟨by rw [hw.cell]; exact hcell, hi₁⟩
      obtain ⟨es₂, s₂, hf⟩ := waiting_ends_of_free (hw.inv w) (hw.waiting t h ht) hs₁ hl₁
      refine ⟨es₁ ++ es₂, s₂, ?_, ?_, ?_⟩
      · rw [run_append, hw.run]
        exact hf.run
      · exact fun e he => (List.mem_append.mp he).elim (hw.work e) (hf.work e)
      · rw [← hw.values]
        exact hf.ends

/-- Of two clones that call, one waits for the other, and that one for the host, which a third client
launches. -/
def waitForLaunch : List (Event String) :=
  [.connect "ws://a" false (some 0), .clone 0, .connect "ws://b" false (some 0), .call 2, .lock 0, .locate 0,
    .call 0, .call 1, .lock 1]

theorem call_can_end_waitForLaunch :
    ∃ s : Clients String, run step init waitForLaunch = some s ∧ ∃ es' s', s.Finishes s' 2 1 es' := by
  have hwaiting : ((run step init waitForLaunch).bind fun s => s.calls 2) = some ⟨1, .waiting⟩ := rfl
  obtain ⟨s, hs, ht⟩ := Option.bind_eq_some_iff.mp hwaiting
  exact ⟨s, hs, call_can_end hs ht rfl⟩

end Clients

end Afhttp.Sdk

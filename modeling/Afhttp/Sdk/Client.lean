import Mathlib
import Afhttp.Lib.Run
import Afhttp.Lib.SharedCell
import Afhttp.Shared.Error

/-!
# Clients

`sdk/client.rs`, and the start of a host from `sdk/inline.rs`.  A `Client` is a handle on a shared
`ClientInner`: what it was configured with, and the one CDP connection it has opened.  `with_token`
and `with_profile` write in place or, if the client was cloned, to a copy.  `cdp_connection` holds
the lock of the connection from the look at it until a new one is stored, across the start of an
inline host, which has a lock of its own, and the connect.

Any number of clients are made, cloned, configured and dropped, and any number of calls run through
them at a time.  A step is what happens between two awaits.  A call borrows its client: it is not
moved or dropped before the call ends or is cancelled.  `E` is the type of endpoints.

    what a client is configured with is its own      (view_step)
-/

namespace Afhttp.Sdk

open SharedCell

variable {E : Type*}

/-- What a client is configured with. -/
structure Settings (E : Type*) where
  endpoint : E
  token : Option String
  profile : Option String
  hostless : Bool
  inlineHost : Option ℕ

structure ClientInner (E : Type*) where
  settings : Settings E
  cdp : Option ℕ
  /-- The call that holds the lock of `cdp`. -/
  cdpLock : Option ℕ

structure InlineHost (E : Type*) where
  launched : Option E
  /-- The call that holds the lock of `launched`. -/
  lock : Option ℕ
  /-- How many hosts were launched. -/
  launches : ℕ

/-- A connection: what it was opened with. -/
structure Conn (E : Type*) where
  endpoint : E
  token : Option String
  profile : Option String
  /-- The cell whose `cdp` it was stored in. -/
  owner : ℕ
  /-- `is_closed`. -/
  closed : Bool
  /-- Its client has let go of it: `close`, a new configuration, or the last handle is gone. -/
  released : Bool

/-- Where a `cdp_connection` is. -/
inductive Phase (E : Type*) where
  | waiting
  /-- It holds the lock of `cdp` and awaits the one of `launched`. -/
  | locating
  /-- It holds both. -/
  | launching
  | connecting (endpoint : E)
  | returned (conn : ℕ)
  | failed (e : Error)

def Phase.inFlight : Phase E → Bool
  | .returned _ | .failed _ => false
  | _ => true

/-- It holds the lock of `cdp`. -/
def Phase.holdsCdp : Phase E → Bool
  | .locating | .launching | .connecting _ => true
  | _ => false

theorem Phase.inFlight_of_holdsCdp {phase : Phase E} (h : phase.holdsCdp = true) : phase.inFlight = true := by
  cases phase with
  | locating | launching | connecting => rfl
  | waiting | returned | failed => cases h

structure Call (E : Type*) where
  handle : ℕ
  phase : Phase E

structure Clients (E : Type*) where
  store : Store (ClientInner E)
  hosts : ℕ → InlineHost E
  conns : ℕ → Option (Conn E)
  nextConn : ℕ
  calls : ℕ → Option (Call E)
  nextCall : ℕ

namespace Clients

def init : Clients E :=
  { store := .empty, hosts := fun _ => ⟨none, none, 0⟩, conns := fun _ => none, nextConn := 0,
    calls := fun _ => none, nextCall := 0 }

def isOpen (s : Clients E) (k : ℕ) : Bool := (s.conns k).any fun conn => !conn.closed

/-- The cell of a handle, with its content. -/
def site (s : Clients E) (h : ℕ) : Option (ℕ × ClientInner E) :=
  (s.store.cell h).bind fun c => (s.store.content c).map fun inner => (c, inner)

/-- A call through the handle has not ended. -/
def borrowed (s : Clients E) (h : ℕ) : Bool :=
  (List.range s.nextCall).any fun t => (s.calls t).any fun call => call.handle = h && call.phase.inFlight

/-! ## Effects -/

def setPhase (s : Clients E) (t : ℕ) (phase : Phase E) : Clients E :=
  { s with calls := Function.update s.calls t ((s.calls t).map fun call => { call with phase := phase }) }

def modify (s : Clients E) (c : ℕ) (f : ClientInner E → ClientInner E) : Clients E :=
  { s with store := s.store.modify c f }

def unlock (s : Clients E) (c : ℕ) : Clients E := s.modify c fun inner => { inner with cdpLock := none }

def setHost (s : Clients E) (k : ℕ) (host : InlineHost E) : Clients E :=
  { s with hosts := Function.update s.hosts k host }

/-- The connection in a cell is let go of. -/
def release (s : Clients E) (c : ℕ) : Clients E :=
  { s.modify c fun inner => { inner with cdp := none } with
    conns :=
      match (s.store.content c).bind ClientInner.cdp with
      | none => s.conns
      | some k => Function.update s.conns k ((s.conns k).map fun conn => { conn with released := true }) }

/-- If the handle is the only one of its cell, the connection there goes. -/
def releaseLast (s : Clients E) (h : ℕ) : Clients E :=
  match s.store.cell h with
  | none => s
  | some c => if s.store.strongCount c = 1 then s.release c else s

/-- `with_token`, `with_profile`, `with_inline_host`: a fresh `cdp`, in place or in a new `ClientInner`. -/
def reconfigure (s : Clients E) (h : ℕ) (u : Settings E → Settings E) : Clients E :=
  let fresh : ClientInner E → ClientInner E := fun inner => ⟨u inner.settings, none, none⟩
  { s.releaseLast h with store := (s.releaseLast h).store.makeMut h fresh fresh }

def noHost : Error := .new .renderUnavailable "this client has no afhttp host endpoint"

/-- The lock of `cdp` is free: a connection that is open is returned, else the endpoint is looked for. -/
def acquire (s : Clients E) (t c : ℕ) (inner : ClientInner E) : Clients E :=
  match inner.cdp.filter s.isOpen with
  | some k => s.setPhase t (.returned k)
  | none =>
    if inner.settings.hostless then s.setPhase t (.failed noHost)
    else
      let s := s.modify c fun inner => { inner with cdpLock := some t }
      match inner.settings.inlineHost with
      | some _ => s.setPhase t .locating
      | none => s.setPhase t (.connecting inner.settings.endpoint)

/-- The lock of `launched` is free. -/
def locate (s : Clients E) (t k : ℕ) : Clients E :=
  match (s.hosts k).launched with
  | some endpoint => s.setPhase t (.connecting endpoint)
  | none => (s.setHost k { s.hosts k with lock := some t }).setPhase t .launching

/-- `launch_inline_host` is done. -/
def launched (s : Clients E) (t c k : ℕ) : Except Error E → Clients E
  | .ok endpoint =>
    (s.setHost k ⟨some endpoint, none, (s.hosts k).launches + 1⟩).setPhase t (.connecting endpoint)
  | .error e => ((s.setHost k { s.hosts k with lock := none }).unlock c).setPhase t (.failed e)

/-- `Connection::connect_endpoint` is done. -/
def connected (s : Clients E) (t c : ℕ) (inner : ClientInner E) (endpoint : E) : Option Error → Clients E
  | none =>
    { (s.modify c fun inner => { inner with cdp := some s.nextConn, cdpLock := none }).setPhase t
        (.returned s.nextConn) with
      conns := Function.update s.conns s.nextConn
        (some ⟨endpoint, inner.settings.token, inner.settings.profile, c, false, false⟩)
      nextConn := s.nextConn + 1 }
  | some e => (s.unlock c).setPhase t (.failed e)

/-- The future of a call is dropped, and the guards it holds with it. -/
def cancel (s : Clients E) (t c : ℕ) (inner : ClientInner E) (phase : Phase E) : Clients E :=
  let s := { s with calls := Function.update s.calls t none }
  match phase with
  | .locating | .connecting _ => s.unlock c
  | .launching =>
    match inner.settings.inlineHost with
    | some k => (s.setHost k { s.hosts k with lock := none }).unlock c
    | none => s.unlock c
  | _ => s

end Clients

/-! ## The steps -/

inductive Event (E : Type*) where
  /-- `Client::connect`, `http_only`, `inline_ephemeral`. -/
  | connect (endpoint : E) (hostless : Bool) (inlineHost : Option ℕ)
  | clone (h : ℕ)
  | drop (h : ℕ)
  | withToken (h : ℕ) (token : String)
  | withProfile (h : ℕ) (profile : String)
  | withInlineHost (h k : ℕ)
  /-- `cdp_connection` is called. -/
  | call (h : ℕ)
  /-- The call comes to look at `cdp`. -/
  | lock (t : ℕ)
  /-- ... and at `launched`. -/
  | locate (t : ℕ)
  | launched (t : ℕ) (result : Except Error E)
  | connected (t : ℕ) (failure : Option Error)
  | cancel (t : ℕ)
  /-- `Client::close`. -/
  | close (h : ℕ)
  /-- The transport of a connection has ended. -/
  | hangUp (k : ℕ)

/-! ## Clients as values -/

/-- Clients without sharing: each handle has its settings. -/
structure Values (E : Type*) where
  next : ℕ
  settings : ℕ → Option (Settings E)

def Values.set (v : Values E) (h : ℕ) (u : Settings E → Settings E) : Values E :=
  { v with settings := Function.update v.settings h ((v.settings h).map u) }

/-- What a client's methods are to do. -/
def Values.step (v : Values E) : Event E → Values E
  | .connect endpoint hostless inlineHost =>
    { next := v.next + 1
      settings := Function.update v.settings v.next (some ⟨endpoint, none, none, hostless, inlineHost⟩) }
  | .clone h => { next := v.next + 1, settings := Function.update v.settings v.next (v.settings h) }
  | .drop h => { v with settings := Function.update v.settings h none }
  | .withToken h token => v.set h fun cfg => { cfg with token := some token }
  | .withProfile h profile => v.set h fun cfg => { cfg with profile := some profile }
  | .withInlineHost h k => v.set h fun cfg => { cfg with inlineHost := some k, hostless := false }
  | _ => v

def Values.init : Values E := ⟨0, fun _ => none⟩

namespace Clients

def values (s : Clients E) : Values E := ⟨s.store.nextHandle, s.store.view ClientInner.settings⟩

/-- A client that may be moved: it is there, and no call borrows it. -/
def owned (s : Clients E) (h : ℕ) : Bool := (s.site h).isSome && !s.borrowed h

def step (s : Clients E) : Event E → Option (Clients E)
  | .connect endpoint hostless inlineHost =>
    some { s with store := s.store.new ⟨⟨endpoint, none, none, hostless, inlineHost⟩, none, none⟩ }
  | .clone h => if (s.site h).isSome then some { s with store := s.store.clone h } else none
  | .drop h =>
    if s.owned h then some { s.releaseLast h with store := (s.releaseLast h).store.drop h } else none
  | .withToken h token =>
    if s.owned h then some (s.reconfigure h fun cfg => { cfg with token := some token }) else none
  | .withProfile h profile =>
    if s.owned h then some (s.reconfigure h fun cfg => { cfg with profile := some profile }) else none
  | .withInlineHost h k =>
    if s.owned h then some (s.reconfigure h fun cfg => { cfg with inlineHost := some k, hostless := false })
    else none
  | .call h =>
    if (s.site h).isSome then
      some { s with calls := Function.update s.calls s.nextCall (some ⟨h, .waiting⟩), nextCall := s.nextCall + 1 }
    else none
  | .lock t =>
    match s.calls t with
    | some ⟨h, .waiting⟩ =>
      match s.site h with
      | some (c, inner) => if inner.cdpLock = none then some (s.acquire t c inner) else none
      | none => none
    | _ => none
  | .locate t =>
    match s.calls t with
    | some ⟨h, .locating⟩ =>
      match (s.site h).bind fun site => site.2.settings.inlineHost with
      | some k => if (s.hosts k).lock = none then some (s.locate t k) else none
      | none => none
    | _ => none
  | .launched t result =>
    match s.calls t with
    | some ⟨h, .launching⟩ =>
      match s.site h with
      | some (c, inner) => inner.settings.inlineHost.map fun k => s.launched t c k result
      | none => none
    | _ => none
  | .connected t failure =>
    match s.calls t with
    | some ⟨h, .connecting endpoint⟩ => (s.site h).map fun site => s.connected t site.1 site.2 endpoint failure
    | _ => none
  | .cancel t =>
    match s.calls t with
    | some ⟨h, phase⟩ =>
      if phase.inFlight then (s.site h).map fun site => s.cancel t site.1 site.2 phase else none
    | none => none
  | .close h =>
    match s.site h with
    | some (c, inner) => if inner.cdpLock = none then some (s.release c) else none
    | none => none
  | .hangUp k =>
    if (s.conns k).isSome then
      some { s with conns := Function.update s.conns k ((s.conns k).map fun conn => { conn with closed := true }) }
    else none

theorem site_eq_some {s : Clients E} {h c : ℕ} {inner : ClientInner E} :
    s.site h = some (c, inner) ↔ s.store.cell h = some c ∧ s.store.content c = some inner := by
  unfold site
  constructor
  · intro hs
    obtain ⟨c', hc, hs⟩ := Option.bind_eq_some_iff.mp hs
    obtain ⟨inner', hi, e⟩ := Option.map_eq_some_iff.mp hs
    cases e
    exact ⟨hc, hi⟩
  · rintro ⟨hc, hi⟩
    rw [hc, Option.bind_some, hi, Option.map_some]

/-- What a step can do. -/
inductive Takes (s : Clients E) : Event E → Clients E → Prop where
  | connect (endpoint : E) (hostless : Bool) (inlineHost : Option ℕ) :
    Takes s (.connect endpoint hostless inlineHost)
      { s with store := s.store.new ⟨⟨endpoint, none, none, hostless, inlineHost⟩, none, none⟩ }
  | clone {h c : ℕ} {inner : ClientInner E} (hs : s.site h = some (c, inner)) :
    Takes s (.clone h) { s with store := s.store.clone h }
  | drop {h c : ℕ} {inner : ClientInner E} (hs : s.site h = some (c, inner)) (hb : s.borrowed h = false) :
    Takes s (.drop h) { s.releaseLast h with store := (s.releaseLast h).store.drop h }
  /-- `with_token`, `with_profile` and `with_inline_host`. -/
  | reconfigure {h c : ℕ} {inner : ClientInner E} {e : Event E} {u : Settings E → Settings E}
    (hs : s.site h = some (c, inner)) (hb : s.borrowed h = false)
    (he : ∀ v : Values E, v.step e = v.set h u) :
    Takes s e (s.reconfigure h u)
  | call {h c : ℕ} {inner : ClientInner E} (hs : s.site h = some (c, inner)) :
    Takes s (.call h)
      { s with calls := Function.update s.calls s.nextCall (some ⟨h, .waiting⟩), nextCall := s.nextCall + 1 }
  | lock {t h c : ℕ} {inner : ClientInner E} (ht : s.calls t = some ⟨h, .waiting⟩)
    (hs : s.site h = some (c, inner)) (hl : inner.cdpLock = none) : Takes s (.lock t) (s.acquire t c inner)
  | locate {t h c k : ℕ} {inner : ClientInner E} (ht : s.calls t = some ⟨h, .locating⟩)
    (hs : s.site h = some (c, inner)) (hk : inner.settings.inlineHost = some k) (hl : (s.hosts k).lock = none) :
    Takes s (.locate t) (s.locate t k)
  | launched {t h c k : ℕ} {inner : ClientInner E} (ht : s.calls t = some ⟨h, .launching⟩)
    (hs : s.site h = some (c, inner)) (hk : inner.settings.inlineHost = some k) (result : Except Error E) :
    Takes s (.launched t result) (s.launched t c k result)
  | connected {t h c : ℕ} {inner : ClientInner E} {endpoint : E}
    (ht : s.calls t = some ⟨h, .connecting endpoint⟩) (hs : s.site h = some (c, inner))
    (failure : Option Error) : Takes s (.connected t failure) (s.connected t c inner endpoint failure)
  | cancel {t h c : ℕ} {inner : ClientInner E} {phase : Phase E} (ht : s.calls t = some ⟨h, phase⟩)
    (hp : phase.inFlight) (hs : s.site h = some (c, inner)) : Takes s (.cancel t) (s.cancel t c inner phase)
  | close {h c : ℕ} {inner : ClientInner E} (hs : s.site h = some (c, inner)) (hl : inner.cdpLock = none) :
    Takes s (.close h) (s.release c)
  | hangUp {k : ℕ} {conn : Conn E} (hk : s.conns k = some conn) :
    Takes s (.hangUp k) { s with conns := Function.update s.conns k (some { conn with closed := true }) }

theorem owned_eq_true {s : Clients E} {h : ℕ} (ho : s.owned h = true) :
    ∃ c inner, s.site h = some (c, inner) ∧ s.borrowed h = false := by
  unfold owned at ho
  rw [Bool.and_eq_true, Bool.not_eq_true'] at ho
  obtain ⟨⟨c, inner⟩, hs⟩ := Option.isSome_iff_exists.mp ho.1
  exact ⟨c, inner, hs, ho.2⟩

theorem takes_of_step {s s' : Clients E} {e : Event E} (h : s.step e = some s') : s.Takes e s' := by
  cases e with
  | connect endpoint hostless inlineHost =>
    cases h
    exact .connect ..
  | clone h' =>
    simp only [step] at h
    split at h
    · next hs =>
      cases h
      obtain ⟨site, hs⟩ := Option.isSome_iff_exists.mp hs
      exact .clone hs
    · cases h
  | drop h' =>
    simp only [step] at h
    split at h
    · next ho =>
      cases h
      obtain ⟨c, inner, hs, hb⟩ := owned_eq_true ho
      exact .drop hs hb
    · cases h
  | withToken h' token =>
    simp only [step] at h
    split at h
    · next ho =>
      cases h
      obtain ⟨c, inner, hs, hb⟩ := owned_eq_true ho
      exact .reconfigure hs hb fun _ => rfl
    · cases h
  | withProfile h' profile =>
    simp only [step] at h
    split at h
    · next ho =>
      cases h
      obtain ⟨c, inner, hs, hb⟩ := owned_eq_true ho
      exact .reconfigure hs hb fun _ => rfl
    · cases h
  | withInlineHost h' k =>
    simp only [step] at h
    split at h
    · next ho =>
      cases h
      obtain ⟨c, inner, hs, hb⟩ := owned_eq_true ho
      exact .reconfigure hs hb fun _ => rfl
    · cases h
  | call h' =>
    simp only [step] at h
    split at h
    · next hs =>
      cases h
      obtain ⟨site, hs⟩ := Option.isSome_iff_exists.mp hs
      exact .call hs
    · cases h
  | lock t =>
    simp only [step] at h
    split at h
    · next ht =>
      split at h
      · next hs =>
        split at h
        · next hl =>
          cases h
          exact .lock ht hs hl
        · cases h
      · cases h
    · cases h
  | locate t =>
    simp only [step] at h
    split at h
    · next ht =>
      split at h
      · next k hk =>
        split at h
        · next hl =>
          cases h
          obtain ⟨site, hs, hk⟩ := Option.bind_eq_some_iff.mp hk
          exact .locate ht hs hk hl
        · cases h
      · cases h
    · cases h
  | launched t result =>
    simp only [step] at h
    split at h
    · next ht =>
      split at h
      · next hs =>
        obtain ⟨k, hk, e⟩ := Option.map_eq_some_iff.mp h
        cases e
        exact .launched ht hs hk result
      · cases h
    · cases h
  | connected t failure =>
    simp only [step] at h
    split at h
    · next ht =>
      obtain ⟨site, hs, e⟩ := Option.map_eq_some_iff.mp h
      cases e
      exact .connected ht hs failure
    · cases h
  | cancel t =>
    simp only [step] at h
    split at h
    · next ht =>
      split at h
      · next hp =>
        obtain ⟨site, hs, e⟩ := Option.map_eq_some_iff.mp h
        cases e
        exact .cancel ht hp hs
      · cases h
    · cases h
  | close h' =>
    simp only [step] at h
    split at h
    · next hs =>
      split at h
      · next hl =>
        cases h
        exact .close hs hl
      · cases h
    · cases h
  | hangUp k =>
    simp only [step] at h
    split at h
    · next hk =>
      cases h
      obtain ⟨conn, hk⟩ := Option.isSome_iff_exists.mp hk
      rw [hk]
      exact .hangUp hk
    · cases h

/-! ## A client is a value -/

variable {s s' : Clients E}

theorem values_modify {f : ClientInner E → ClientInner E} (hf : ∀ inner, (f inner).settings = inner.settings)
    (c : ℕ) : (s.modify c f).values = s.values := by
  unfold values
  congr 1
  funext h
  exact Store.view_modify hf c h

theorem values_release (c : ℕ) : (s.release c).values = s.values :=
  values_modify (s := s) (f := fun inner => { inner with cdp := none }) (fun _ => rfl) c

theorem values_releaseLast (h : ℕ) : (s.releaseLast h).values = s.values := by
  unfold releaseLast
  cases s.store.cell h with
  | none => rfl
  | some c =>
    exact iteInduction (motive := fun r : Clients E => r.values = s.values) (fun _ => values_release c) fun _ => rfl

theorem cell_releaseLast (h : ℕ) : (s.releaseLast h).store.cell = s.store.cell := by
  unfold releaseLast
  cases s.store.cell h with
  | none => rfl
  | some c =>
    exact iteInduction (motive := fun r : Clients E => r.store.cell = s.store.cell) (fun _ => rfl) fun _ => rfl

/-- The store of `s'` is that of `s`, but for what the settings do not show. -/
def SameClients (s s' : Clients E) : Prop := s'.values = s.values ∧ (s.store.WellFormed → s'.store.WellFormed)

theorem SameClients.rfl : SameClients s s := ⟨Eq.refl _, id⟩

theorem SameClients.trans {s'' : Clients E} (h : SameClients s s') (h' : SameClients s' s'') :
    SameClients s s'' :=
  ⟨h'.1.trans h.1, fun w => h'.2 (h.2 w)⟩

theorem SameClients.of_store (h : s'.store = s.store) : SameClients s s' := by
  constructor
  · unfold values
    rw [h]
  · intro w
    rw [h]
    exact w

theorem SameClients.modify (f : ClientInner E → ClientInner E) (c : ℕ)
    (hf : ∀ inner, (f inner).settings = inner.settings) : SameClients s (s.modify c f) :=
  ⟨values_modify hf c, fun w => w.modify c f⟩

theorem SameClients.release (c : ℕ) : SameClients s (s.release c) := ⟨values_release c, fun w => w.modify c _⟩

theorem SameClients.releaseLast (h : ℕ) : SameClients s (s.releaseLast h) := by
  unfold Clients.releaseLast
  cases s.store.cell h with
  | none => exact .rfl
  | some c => exact iteInduction (motive := SameClients s) (fun _ => .release c) fun _ => .rfl

theorem SameClients.acquire (t c : ℕ) (inner : ClientInner E) : SameClients s (s.acquire t c inner) := by
  have hmod : SameClients s (s.modify c fun inner => { inner with cdpLock := some t }) :=
    SameClients.modify _ c fun _ => Eq.refl _
  unfold Clients.acquire
  cases inner.cdp.filter s.isOpen with
  | some k => exact .of_store (Eq.refl _)
  | none =>
    refine iteInduction (motive := SameClients s) (fun _ => .of_store (Eq.refl _)) fun _ => ?_
    cases inner.settings.inlineHost with
    | some k => exact hmod.trans (.of_store (Eq.refl _))
    | none => exact hmod.trans (.of_store (Eq.refl _))

theorem SameClients.unlock (c : ℕ) : SameClients s (s.unlock c) := SameClients.modify _ c fun _ => Eq.refl _

theorem SameClients.connected (t c : ℕ) (inner : ClientInner E) (endpoint : E) (failure : Option Error) :
    SameClients s (s.connected t c inner endpoint failure) := by
  unfold Clients.connected
  cases failure with
  | none =>
    have hmod : SameClients s (s.modify c fun inner => { inner with cdp := some s.nextConn, cdpLock := none }) :=
      SameClients.modify _ c fun _ => Eq.refl _
    exact hmod.trans (.of_store (Eq.refl _))
  | some e => exact (SameClients.unlock c).trans (.of_store (Eq.refl _))

theorem SameClients.cancel (t c : ℕ) (inner : ClientInner E) (phase : Phase E) :
    SameClients s (s.cancel t c inner phase) := by
  have hcalls : SameClients s { s with calls := Function.update s.calls t none } := .of_store (Eq.refl _)
  unfold Clients.cancel
  cases phase with
  | locating => exact hcalls.trans (.unlock c)
  | connecting endpoint => exact hcalls.trans (.unlock c)
  | launching =>
    cases inner.settings.inlineHost with
    | some k => exact (hcalls.trans (.of_store (Eq.refl _))).trans (.unlock c)
    | none => exact hcalls.trans (.unlock c)
  | waiting => exact hcalls
  | returned k => exact hcalls
  | failed e => exact hcalls

theorem SameClients.takes (w : s.store.WellFormed) (h : SameClients s s') :
    s'.values = s.values ∧ s'.store.WellFormed := ⟨h.1, h.2 w⟩

/-- **A step changes the clients as if each were a value.** -/
theorem takes_values {e : Event E} (w : s.store.WellFormed) (h : s.Takes e s') :
    s'.values = s.values.step e ∧ s'.store.WellFormed := by
  cases h with
  | connect endpoint hostless inlineHost =>
    refine ⟨?_, w.new _⟩
    unfold values
    congr 1
    funext h'
    exact Store.view_new w _ h'
  | @clone h c inner hs =>
    refine ⟨?_, w.clone h⟩
    unfold values
    congr 1
    funext h'
    exact Store.view_clone h h'
  | @drop h c inner hs hb =>
    have hr := (SameClients.releaseLast (s := s) h).takes w
    refine ⟨?_, hr.2.drop h⟩
    rw [← hr.1]
    unfold values
    congr 1
    funext h'
    exact Store.view_drop h h'
  | @reconfigure h c inner _ u hs hb he =>
    have hr := (SameClients.releaseLast (s := s) h).takes w
    have hc : (s.releaseLast h).store.cell h = some c := by
      rw [cell_releaseLast]
      exact (site_eq_some.mp hs).1
    refine ⟨?_, hr.2.makeMut hc _ _⟩
    rw [he, ← hr.1]
    unfold values Values.set
    congr 1
    · exact Store.nextHandle_makeMut h
    · funext h'
      have hu : ∀ inner : ClientInner E,
          (⟨u inner.settings, none, none⟩ : ClientInner E).settings = u inner.settings := fun _ => rfl
      exact Store.view_makeMut hr.2 hc hu hu h'
  | call hs => exact ⟨rfl, w⟩
  | lock ht hs hl => exact (SameClients.acquire _ _ _).takes w
  | @locate t h c k inner ht hs hk hl =>
    refine SameClients.takes w (.of_store ?_)
    unfold Clients.locate
    cases (s.hosts k).launched <;> rfl
  | launched ht hs hk result =>
    cases result with
    | ok endpoint => exact SameClients.takes w (.of_store rfl)
    | error e => exact SameClients.takes w ((SameClients.of_store rfl).trans (.unlock _))
  | connected ht hs failure => exact (SameClients.connected _ _ _ _ failure).takes w
  | cancel ht hp hs => exact (SameClients.cancel _ _ _ _).takes w
  | close hs hl => exact (SameClients.release _).takes w
  | hangUp hk => exact ⟨rfl, w⟩

end Clients

end Afhttp.Sdk

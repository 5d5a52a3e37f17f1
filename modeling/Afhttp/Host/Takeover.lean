import Mathlib.Data.Finset.Image
import Mathlib.Data.Finset.Union

/-!
# Takeover credentials

`host/listener/mod.rs`: the list of panel credentials, the requests `POST
/takeover/ui-session` that exchange a fixed handoff for a lease of the panel, and what
revokes a credential.  A request is authorised by the middleware, waits for the readiness
probe, mints its lease, and revokes the handoff that authorised it; other requests go on in
between.

`UiAccessToken` is a type of the `agent-first-ui` crate: what it accepts is the parameter
`UiAccess`, and the secrets it makes up and the deadlines it keeps are events.
-/

namespace Afhttp.Host

inductive UiExpiry where
  | after (seconds : ℕ)
  | idle (seconds : ℕ)
  deriving DecidableEq, Repr

def takeoverUiSessionIdleTimeoutS : ℕ := 120

structure UiAccessToken where
  secret : String
  expiry : UiExpiry
  deriving DecidableEq, Repr

/-- `UiAccessToken::authorize`, of a live token: its secret and what a request presents. -/
structure UiAccess where
  authorize : String → String → Bool

/-- A credential is accepted in its exact form, and no other. -/
def UiAccess.Exact (ui : UiAccess) : Prop := ∀ secret given, ui.authorize secret given = true ↔ given = secret

/-- How the host was started: is takeover on, and has it a token of its own? -/
structure TakeoverConfig where
  enabled : Bool
  token : Bool

/-- Where a `POST /takeover/ui-session` stands. -/
inductive UiSessionCreate where
  /-- Through the middleware, by a handoff or without one; the readiness probe is under way. -/
  | probing (handoff : Option String)
  /-- The lease is out; the handoff has yet to be revoked. -/
  | minted (handoff : Option String) (lease : String)
  | done
  deriving DecidableEq, Repr

/-- The credentials and the requests of `R`.  The last five fields are histories. -/
structure TakeoverHost (R : Type) where
  handoffs : List UiAccessToken
  /-- The clones of a token share one flag. -/
  revoked : Finset String
  expired : Finset String
  requests : R → Option UiSessionCreate
  issued : Finset String
  /-- The fixed handoffs. -/
  fixed : Finset String
  /-- The credential on whose authority the lease was minted. -/
  authority : String → Option String
  /-- The credential of the request was revoked while it waited. -/
  revokedUnder : R → Bool
  /-- The leases of the exchanges of the same credential that came through while it waited. -/
  rivals : R → Finset String
  /-- A lease was minted on a fixed handoff that had been revoked. -/
  late : Bool

inductive TakeoverEvent (R : Type) where
  /-- `POST /takeover/handoff`. -/
  | issueHandoff (secret : String) (ttlS : ℕ)
  /-- A request comes to the middleware, with the host's own token or with a secret. -/
  | arrive (r : R) (bearer : Bool) (secret : Option String)
  | unready (r : R)
  /-- The probe has answered; the crate makes up a secret, or fails. -/
  | mint (r : R) (secret : Option String)
  /-- The request names no host that a panel URL can be made of. -/
  | noUrl (r : R)
  | exchange (r : R)
  /-- `DELETE /takeover/ui-session`. -/
  | delete (secret : String)
  /-- Any other request to `/takeover/`, or a sweep of the reaper, looks at the list. -/
  | look
  /-- A profile switch, or shutdown. -/
  | switchProfile
  | expire (secret : String)

namespace TakeoverHost

variable {R : Type}

def start (R : Type) : TakeoverHost R where
  handoffs := []
  revoked := ∅
  expired := ∅
  requests := fun _ => none
  issued := ∅
  fixed := ∅
  authority := fun _ => none
  revokedUnder := fun _ => false
  rivals := fun _ => ∅
  late := false

/-- `is_live`. -/
def isLive (s : TakeoverHost R) (token : UiAccessToken) : Bool :=
  !decide (token.secret ∈ s.expired) && !decide (token.secret ∈ s.revoked)

/-- `handoffs.retain(is_live)`. -/
def retainLive (s : TakeoverHost R) : TakeoverHost R := { s with handoffs := s.handoffs.filter s.isLive }

/-- The live credential that a request presents. -/
def authorizing (ui : UiAccess) (s : TakeoverHost R) (secret : String) : Option UiAccessToken :=
  s.retainLive.handoffs.find? fun token => ui.authorize token.secret secret

/-- `issue_takeover_token`, its secret made up. -/
def issueTakeoverToken (s : TakeoverHost R) (token : UiAccessToken) : TakeoverHost R :=
  { s.retainLive with handoffs := s.retainLive.handoffs ++ [token], issued := insert token.secret s.issued }

/-- `UiAccessToken::revoke` of the tokens. -/
def revoke (s : TakeoverHost R) (secrets : Finset String) : TakeoverHost R :=
  { s with
    revoked := s.revoked ∪ secrets
    revokedUnder := fun r =>
      s.revokedUnder r ||
        match s.requests r with
        | some (.probing (some h)) => decide (h ∈ secrets)
        | _ => false }

def revokeTakeoverHandoff (ui : UiAccess) (s : TakeoverHost R) (secret : String) : TakeoverHost R × Bool :=
  match s.authorizing ui secret with
  | none => (s.retainLive, false)
  | some token => ((s.retainLive.revoke {token.secret}).retainLive, true)

def revokeTakeoverHandoffs (s : TakeoverHost R) : TakeoverHost R :=
  { s.revoke (s.handoffs.map UiAccessToken.secret).toFinset with handoffs := [] }

variable [DecidableEq R]

def put (s : TakeoverHost R) (r : R) (request : UiSessionCreate) : TakeoverHost R :=
  { s with requests := Function.update s.requests r (some request) }

/-- `takeover_ui_session_create` up to the probe. -/
def begun (cfg : TakeoverConfig) (handoff : Option String) : UiSessionCreate :=
  if cfg.enabled then .probing handoff else .done

/-- `token_middleware`, and the handler up to the probe. -/
def arrive (ui : UiAccess) (cfg : TakeoverConfig) (s : TakeoverHost R) (r : R) (bearer : Bool)
    (secret : Option String) : TakeoverHost R :=
  if cfg.token && bearer then s.put r (begun cfg none)
  else
    -- without a live credential, a host with a token refuses, one without goes on
    let other : UiSessionCreate := if cfg.token then .done else begun cfg none
    match secret with
    | none => s.put r other
    | some secret =>
      match s.authorizing ui secret with
      | some _ => s.retainLive.put r (begun cfg (some secret))
      | none => s.retainLive.put r other

/-- `issue_takeover_ui_session`. -/
def mint (s : TakeoverHost R) (r : R) (handoff : Option String) (lease : String) : TakeoverHost R :=
  let s' := s.issueTakeoverToken ⟨lease, .idle takeoverUiSessionIdleTimeoutS⟩
  { s'.put r (.minted handoff lease) with
    authority := Function.update s.authority lease handoff
    late := s.late || handoff.any fun h => decide (h ∈ s.fixed) && decide (h ∈ s.revoked) }

/-- The handoff is revoked, whatever that answers, and the response goes out. -/
def exchange (ui : UiAccess) (s : TakeoverHost R) (r : R) (handoff : Option String) (lease : String) :
    TakeoverHost R :=
  match handoff with
  | none => s.put r .done
  | some h =>
    { (s.revokeTakeoverHandoff ui h).1.put r .done with
      rivals := fun r' => if s.requests r' = some (.probing handoff) then insert lease (s.rivals r') else s.rivals r' }

def step (ui : UiAccess) (cfg : TakeoverConfig) (s : TakeoverHost R) : TakeoverEvent R → Option (TakeoverHost R)
  | .issueHandoff secret ttlS =>
    if secret ∈ s.issued then none
    else some { s.issueTakeoverToken ⟨secret, .after ttlS⟩ with fixed := insert secret s.fixed }
  | .arrive r bearer secret =>
    match s.requests r with
    | some _ => none
    | none => some (s.arrive ui cfg r bearer secret)
  | .unready r =>
    match s.requests r with
    | some (.probing _) => some (s.put r .done)
    | _ => none
  | .mint r secret =>
    match s.requests r with
    | some (.probing handoff) =>
      match secret with
      | none => some (s.put r .done)
      | some lease => if lease ∈ s.issued then none else some (s.mint r handoff lease)
    | _ => none
  | .noUrl r =>
    match s.requests r with
    | some (.minted _ lease) => some ((s.revoke {lease}).put r .done)
    | _ => none
  | .exchange r =>
    match s.requests r with
    | some (.minted handoff lease) => some (s.exchange ui r handoff lease)
    | _ => none
  | .delete secret => some (s.revokeTakeoverHandoff ui secret).1
  | .look => some s.retainLive
  | .switchProfile => some s.revokeTakeoverHandoffs
  | .expire secret => if secret ∈ s.issued then some { s with expired := insert secret s.expired } else none

end TakeoverHost

end Afhttp.Host

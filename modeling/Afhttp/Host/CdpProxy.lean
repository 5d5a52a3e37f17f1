import Afhttp.Lib.Run
import Afhttp.Profile.Paths
import Mathlib.Logic.Function.Basic

/-!
# Profile switches and the `/cdp` proxy

`ensure_profile` of `host/listener/mod.rs` and `handler` of `host/listener/cdp_proxy.rs`, by
any number of handlers on one host.  A handler reads the shared state one field at a time:
the active profile, the switch lock, the count of connected clients.

    ensure_profile   ensure, lockSwitch, recheck, readCount, launched, swap, reset
    handler          ensure_profile, takeGuard, readProfile, then the connection until close
-/

namespace Afhttp.Host

open Profile Text

inductive ProfileChoice where
  | ephemeral
  | persistent (name : String)
  deriving DecidableEq, Repr

/-- A running browser: its CDP address, and the profile it was launched on. -/
structure BrowserHandle where
  wsUrl : String
  launchedOn : ProfileChoice
  deriving DecidableEq, Repr

structure ProfileEntry where
  kind : String
  name : String
  handle : BrowserHandle
  deriving DecidableEq, Repr

/-- The entry is for the persistent profile of that name.  An ephemeral one is called
`default`, so the name alone does not say it. -/
def ProfileEntry.isCurrent (p : ProfileEntry) (name : String) : Bool :=
  p.name == name && p.kind == "persistent"

/-- The entry `AppState::launch` makes. -/
def ProfileEntry.launch (choice : ProfileChoice) (wsUrl : String) : ProfileEntry :=
  match choice with
  | .ephemeral => ⟨"ephemeral", "default", ⟨wsUrl, choice⟩⟩
  | .persistent n => ⟨"persistent", n, ⟨wsUrl, choice⟩⟩

/-- A refusal: the HTTP status, and the code, text and retryability of its body. -/
structure Refusal where
  status : ℕ
  code : String
  message : String
  retryable : Bool
  deriving DecidableEq, Repr

def profileStatus : ErrorCode → ℕ
  | .invalidArgument | .profileInvalidName => 400
  | .profileLocked => 409
  | _ => 503

/-- The answer to a request whose profile could not be made the active one. -/
def switchFailed (fmt : DebugFormat) (name : String) (e : Error) : Refusal :=
  ⟨profileStatus e.errorCode, e.errorCode.asStr, s!"profile switch to {fmt.str name} failed: {e.detail}", false⟩

def noBrowser : Refusal := ⟨503, "cdp_unavailable", "no browser backend is connected yet", true⟩

def clientsConnected (connected : ℕ) : Error :=
  (Error.new .profileLocked
    s!"{connected} CDP client(s) are using the current profile; switch profiles once they disconnect").withRetryable true

/-- Where a handler stands; `q` is the profile its request names, if any. -/
inductive HandlerPhase where
  | start
  /-- `ensure_profile` has to switch, and waits for the switch lock. -/
  | waiting (name : String)
  | rechecking (name : String)
  | counting (name : String)
  | launching (name : String)
  | swapping (name : String) (handle : BrowserHandle)
  /-- The entry is swapped in; what `ensure_profile` resets comes next. -/
  | resetting (name : String)
  /-- `ensure_profile` is done, or the request names no profile. -/
  | ensured (q : Option String)
  /-- Counted as a client, the upstream still to read. -/
  | counted (q : Option String)
  | proxied (q : Option String) (entry : ProfileEntry)
  | refused (r : Refusal)
  | ended
  deriving DecidableEq

namespace HandlerPhase

/-- In `ensure_profile`, behind the switch lock. -/
def switching : HandlerPhase → Bool
  | rechecking _ | counting _ | launching _ | swapping _ _ | resetting _ => true
  | _ => false

/-- At an await of `ensure_profile`, where a handler whose client has left is dropped. -/
def awaits : HandlerPhase → Bool
  | waiting _ | launching _ | resetting _ => true
  | _ => false

/-- Between the return of `ensure_profile` and the reading of the upstream. -/
def between : HandlerPhase → Option String
  | ensured q | counted q => q
  | _ => none

end HandlerPhase

structure HostState (H : Type) where
  profile : Option ProfileEntry
  /-- The holder of the switch lock. -/
  switchLock : Option H
  /-- `launch_ctx` is there: the host can launch a browser again. -/
  canSwitch : Bool
  cdpClients : ℕ
  phase : H → HandlerPhase

inductive HandlerEvent (H : Type) where
  /-- The request arrives; if it names a profile, `ensure_profile` up to the switch lock. -/
  | ensure (h : H) (q : Option String)
  | lockSwitch (h : H)
  | recheck (h : H)
  | readCount (h : H)
  /-- `launch_browser` ends, with the address of the browser or an error. -/
  | launched (h : H) (r : Except Error String)
  | swap (h : H)
  | reset (h : H)
  | takeGuard (h : H)
  | readProfile (h : H)
  /-- The connection ends. -/
  | close (h : H)
  | cancel (h : H)

namespace HostState

variable {H : Type}

/-- The state `AppState::launch` returns. -/
def launch (H : Type) (choice : ProfileChoice) (wsUrl : String) : HostState H :=
  ⟨some (.launch choice wsUrl), none, true, 0, fun _ => .start⟩

/-- The active profile is the persistent one of that name. -/
def active (s : HostState H) (name : String) : Bool := s.profile.any (·.isCurrent name)

variable [DecidableEq H]

def setPhase (s : HostState H) (h : H) (φ : HandlerPhase) : HostState H :=
  { s with phase := Function.update s.phase h φ }

@[simp] theorem setPhase_self (s : HostState H) (h : H) (φ : HandlerPhase) :
    (s.setPhase h φ).phase h = φ := Function.update_self ..

theorem setPhase_of_ne (s : HostState H) {h k : H} (φ : HandlerPhase) (hk : k ≠ h) :
    (s.setPhase h φ).phase k = s.phase k := Function.update_of_ne hk ..

/-- The handler leaves `ensure_profile`; its lock goes with it. -/
def leaveSwitch (s : HostState H) (h : H) (φ : HandlerPhase) : HostState H :=
  { s.setPhase h φ with switchLock := none }

/-- One step of a handler. -/
def step (fmt : DebugFormat) (s : HostState H) : HandlerEvent H → Option (HostState H)
  | .ensure h q =>
    match s.phase h with
    | .start =>
      match q with
      | none => some (s.setPhase h (.ensured none))
      | some name =>
        if s.active name then some (s.setPhase h (.ensured (some name)))
        else
          match validateName fmt name with
          | .error e => some (s.setPhase h (.refused (switchFailed fmt name e)))
          | .ok () =>
            if s.canSwitch then some (s.setPhase h (.waiting name))
            else some (s.setPhase h (.refused (switchFailed fmt name
              (.new .invalidArgument "this host does not support runtime profile switching"))))
    | _ => none
  | .lockSwitch h =>
    match s.phase h, s.switchLock with
    | .waiting name, none => some { s.setPhase h (.rechecking name) with switchLock := some h }
    | _, _ => none
  | .recheck h =>
    match s.phase h with
    | .rechecking name =>
      if s.active name then some (s.leaveSwitch h (.ensured (some name)))
      else some (s.setPhase h (.counting name))
    | _ => none
  | .readCount h =>
    match s.phase h with
    | .counting name =>
      if 0 < s.cdpClients then
        some (s.leaveSwitch h (.refused (switchFailed fmt name (clientsConnected s.cdpClients))))
      else some (s.setPhase h (.launching name))
    | _ => none
  | .launched h r =>
    match s.phase h with
    | .launching name =>
      match r with
      | .error e => some (s.leaveSwitch h (.refused (switchFailed fmt name e)))
      | .ok wsUrl => some (s.setPhase h (.swapping name ⟨wsUrl, .persistent name⟩))
    | _ => none
  | .swap h =>
    match s.phase h with
    | .swapping name handle =>
      some { s.setPhase h (.resetting name) with profile := some ⟨"persistent", name, handle⟩ }
    | _ => none
  | .reset h =>
    match s.phase h with
    | .resetting name => some (s.leaveSwitch h (.ensured (some name)))
    | _ => none
  | .takeGuard h =>
    match s.phase h with
    | .ensured q => some { s.setPhase h (.counted q) with cdpClients := s.cdpClients + 1 }
    | _ => none
  | .readProfile h =>
    match s.phase h with
    | .counted q =>
      match s.profile with
      | some entry => some (s.setPhase h (.proxied q entry))
      | none => some { s.setPhase h (.refused noBrowser) with cdpClients := s.cdpClients - 1 }
    | _ => none
  | .close h =>
    match s.phase h with
    | .proxied _ _ => some { s.setPhase h .ended with cdpClients := s.cdpClients - 1 }
    | _ => none
  | .cancel h =>
    if (s.phase h).awaits then
      if (s.phase h).switching then some (s.leaveSwitch h .ended) else some (s.setPhase h .ended)
    else none

end HostState

end Afhttp.Host

import Afhttp.Host.CdpProxy
import Mathlib.Data.Fintype.Defs

/-!
# The profile a `/cdp` connection gets

A handler reads the active profile in `ensure_profile`, counts itself, and reads the active
profile again for its upstream.  Between the two reads nothing keeps another handler, which
read the count before, from swapping in another profile (`switch_lands_between`).  Where no
swap lands there, each connection is on the profile it named (`proxied_as_named`).
-/

namespace Afhttp.Host

open Profile Text

namespace HandlerPhase

/-- The profile the handler has found or made active, and has yet to read. -/
def picked : HandlerPhase → Option String
  | resetting name => some name
  | ensured q | counted q => q
  | _ => none

end HandlerPhase

namespace HostState

variable {H : Type}

/-- Every connection that named a profile is on a browser launched on it. -/
def OnNamed (s : HostState H) : Prop :=
  ∀ h name entry, s.phase h = .proxied (some name) entry → entry.handle.launchedOn = .persistent name

/-- An entry for a persistent profile is of a browser launched on it. -/
def Truthful (p : ProfileEntry) : Prop :=
  p.kind = "persistent" → p.handle.launchedOn = .persistent p.name

theorem truthful_launch (choice : ProfileChoice) (wsUrl : String) : Truthful (.launch choice wsUrl) := by
  intro h
  cases choice with
  | ephemeral =>
    have hk : "ephemeral" = "persistent" := h
    exact absurd hk (by decide)
  | persistent name => rfl

/-- What a handler in phase `φ` needs of the state: the switch lock is its own while it
switches, and the profile it has picked is the active one. -/
structure Fits (s : HostState H) (h : H) (φ : HandlerPhase) : Prop where
  locked : φ.switching = true → s.switchLock = some h
  launched : ∀ name handle, φ = .swapping name handle → handle.launchedOn = .persistent name
  picked : ∀ name, φ.picked = some name → s.active name = true
  named : ∀ name entry, φ = .proxied (some name) entry → entry.handle.launchedOn = .persistent name

structure Inv (s : HostState H) : Prop where
  fits : ∀ h, s.Fits h (s.phase h)
  truthful : ∀ p, s.profile = some p → Truthful p

theorem Inv.launch (choice : ProfileChoice) (wsUrl : String) : (launch H choice wsUrl).Inv where
  fits h := by
    constructor
    · intro hs
      cases hs
    · intro name handle he
      cases he
    · intro name hp
      cases hp
    · intro name entry he
      cases he
  truthful p hp := by
    cases hp
    exact truthful_launch choice wsUrl

/-- A phase in which the handler neither switches nor has picked a profile. -/
theorem Fits.quiet (s : HostState H) (h : H) {φ : HandlerPhase} (hs : φ.switching = false)
    (hp : φ.picked = none) (hx : ∀ q entry, φ ≠ .proxied q entry) : s.Fits h φ where
  locked h' := by
    rw [hs] at h'
    cases h'
  launched name handle h' := by
    rw [h'] at hs
    cases hs
  picked name h' := by
    rw [hp] at h'
    cases h'
  named name entry h' := absurd h' (hx _ _)

/-- A phase behind the switch lock, with nothing launched yet. -/
theorem Fits.behind {s : HostState H} {h : H} {φ : HandlerPhase} (hl : s.switchLock = some h)
    (hs : φ.switching = true) (hp : φ.picked = none) (hx : ∀ name handle, φ ≠ .swapping name handle) :
    s.Fits h φ where
  locked _ := hl
  launched name handle h' := absurd h' (hx _ _)
  picked name h' := by
    rw [hp] at h'
    cases h'
  named name entry h' := by
    rw [h'] at hs
    cases hs

/-- A phase after `ensure_profile`, the active profile being the one named. -/
theorem Fits.found {s : HostState H} (h : H) {φ : HandlerPhase} {q : Option String}
    (hφ : φ = .ensured q ∨ φ = .counted q) (ha : ∀ name, q = some name → s.active name = true) :
    s.Fits h φ := by
  rcases hφ with rfl | rfl
  all_goals
    constructor
    · intro hs
      cases hs
    · intro name handle he
      cases he
    · intro name hp
      exact ha name hp
    · intro name entry he
      cases he

theorem Fits.congr {s s' : HostState H} {h : H} {φ : HandlerPhase} (hf : s.Fits h φ)
    (hl : s'.switchLock = s.switchLock) (hp : s'.profile = s.profile) : s'.Fits h φ where
  locked hs := hl.trans (hf.locked hs)
  launched := hf.launched
  picked name hn := by
    unfold active
    rw [hp]
    exact hf.picked name hn
  named := hf.named

variable [DecidableEq H]

/-- One handler moves; the others still fit. -/
theorem Inv.of_move {s s' : HostState H} {h : H} {φ : HandlerPhase}
    (hφ : s'.phase = Function.update s.phase h φ) (hf : s'.Fits h φ)
    (others : ∀ k, k ≠ h → s'.Fits k (s.phase k)) (ht : ∀ p, s'.profile = some p → Truthful p) :
    s'.Inv where
  fits k := by
    rw [hφ, Function.update_apply]
    split
    · next hk =>
      rw [hk]
      exact hf
    · next hk => exact others k hk
  truthful := ht

/-- A handler goes on, and the profile and the switch lock stay as they are. -/
theorem Inv.keep {s s' : HostState H} (hi : s.Inv) {h : H} {φ : HandlerPhase}
    (hφ : s'.phase = Function.update s.phase h φ) (hl : s'.switchLock = s.switchLock)
    (hp : s'.profile = s.profile) (hf : s.Fits h φ) : s'.Inv :=
  .of_move hφ (hf.congr hl hp) (fun k _ => (hi.fits k).congr hl hp) fun p h' => hi.truthful p (hp ▸ h')

/-- The switch lock changes hands where no other handler has it. -/
theorem Inv.relock {s s' : HostState H} (hi : s.Inv) {h : H} {φ : HandlerPhase}
    (hφ : s'.phase = Function.update s.phase h φ) (hp : s'.profile = s.profile)
    (hl : ∀ k, k ≠ h → s.switchLock ≠ some k) (hf : s'.Fits h φ) : s'.Inv := by
  refine .of_move hφ hf (fun k hk => ?_) fun p h' => hi.truthful p (hp ▸ h')
  have hfk := hi.fits k
  refine ⟨fun hs => absurd (hfk.locked hs) (hl k hk), hfk.launched, fun name hn => ?_, hfk.named⟩
  unfold active
  rw [hp]
  exact hfk.picked name hn

/-- A handler behind the switch lock leaves `ensure_profile`. -/
theorem Inv.leave {s : HostState H} (hi : s.Inv) {h : H} {φ : HandlerPhase}
    (hs : (s.phase h).switching = true) (hf : (s.leaveSwitch h φ).Fits h φ) : (s.leaveSwitch h φ).Inv := by
  refine hi.relock rfl rfl (fun k hk hl => ?_) hf
  rw [(hi.fits h).locked hs] at hl
  exact hk (Option.some.inj hl).symm

/-- A swap lands while no handler that picked another profile has yet to read it. -/
def SwapUnseen (s : HostState H) : HandlerEvent H → Prop
  | .swap h =>
    match s.phase h with
    | .swapping name _ => ∀ k, ∀ other ∈ (s.phase k).between, other = name
    | _ => True
  | _ => True

instance [Fintype H] (s : HostState H) : ∀ e, Decidable (s.SwapUnseen e)
  | .swap h =>
    match hp : s.phase h with
    | .swapping name _ =>
      decidable_of_iff (∀ k, ∀ other ∈ (s.phase k).between, other = name) (by simp [SwapUnseen, hp])
    | .start | .waiting _ | .rechecking _ | .counting _ | .launching _ | .resetting _ | .ensured _
    | .counted _ | .proxied _ _ | .refused _ | .ended => isTrue (by simp [SwapUnseen, hp])
  | .ensure _ _ | .lockSwitch _ | .recheck _ | .readCount _ | .launched _ _ | .reset _ | .takeGuard _
  | .readProfile _ | .close _ | .cancel _ => isTrue trivial

theorem Inv.ensure {fmt : DebugFormat} {s s' : HostState H} {h' : H} {q : Option String} (hi : s.Inv)
    (h : s.step fmt (.ensure h' q) = some s') : s'.Inv := by
  simp only [HostState.step] at h
  split at h
  · split at h
    · cases h
      exact hi.keep rfl rfl rfl (.found h' (Or.inl rfl) fun name hn => by cases hn)
    · next name =>
      split at h
      · next ha =>
        cases h
        exact hi.keep rfl rfl rfl (.found h' (Or.inl rfl) fun n hn => by cases hn; exact ha)
      · split at h
        · cases h
          exact hi.keep rfl rfl rfl (.quiet s h' rfl rfl fun _ _ hx => by cases hx)
        · split at h
          all_goals
            cases h
            exact hi.keep rfl rfl rfl (.quiet s h' rfl rfl fun _ _ hx => by cases hx)
  · cases h

/-- A swap makes another profile the active one, which no handler between may have looked at. -/
theorem Inv.swap {fmt : DebugFormat} {s s' : HostState H} {h' : H} (hi : s.Inv)
    (hok : s.SwapUnseen (.swap h')) (h : s.step fmt (.swap h') = some s') : s'.Inv := by
  simp only [HostState.step] at h
  split at h
  · next name handle hp =>
    cases h
    have hl : s.switchLock = some h' := (hi.fits h').locked (by rw [hp]; rfl)
    have hnow : ∀ p : ProfileEntry, p = ⟨"persistent", name, handle⟩ → p.isCurrent name = true := by
      rintro p rfl
      simp [ProfileEntry.isCurrent]
    refine .of_move rfl ⟨fun _ => hl, ?_, ?_, ?_⟩ (fun k hk => ?_) ?_
    · intro n hd he
      cases he
    · intro n hn
      cases hn
      exact hnow _ rfl
    · intro n entry he
      cases he
    · have hfk := hi.fits k
      refine ⟨hfk.locked, hfk.launched, fun n hn => ?_, hfk.named⟩
      have hn' : n = name := by
        simp only [SwapUnseen, hp] at hok
        refine hok k n ?_
        cases hkp : s.phase k with
        | resetting m =>
          -- it would hold the switch lock as well
          have hlk := hfk.locked (by rw [hkp]; rfl)
          rw [hl] at hlk
          exact absurd (Option.some.inj hlk).symm hk
        | ensured q =>
          rw [hkp] at hn
          exact hn
        | counted q =>
          rw [hkp] at hn
          exact hn
        | _ =>
          rw [hkp] at hn
          cases hn
      rw [hn']
      exact hnow _ rfl
    · rintro p hp' -
      cases hp'
      exact (hi.fits h').launched name handle hp
  · cases h

/-- What a handler reads is of the profile that it asked for. -/
theorem Inv.readProfile {fmt : DebugFormat} {s s' : HostState H} {h' : H} (hi : s.Inv)
    (h : s.step fmt (.readProfile h') = some s') : s'.Inv := by
  simp only [HostState.step] at h
  split at h
  · next q hp =>
    split at h
    · next entry he =>
      cases h
      refine hi.keep rfl rfl rfl ⟨?_, ?_, ?_, ?_⟩
      · intro hs
        cases hs
      · intro n handle hx
        cases hx
      · intro n hn
        cases hn
      · intro n entry' hx
        cases hx
        have ha : s.active n = true := (hi.fits h').picked n (by rw [hp]; rfl)
        unfold active at ha
        rw [he, Option.any_some, ProfileEntry.isCurrent, Bool.and_eq_true, beq_iff_eq, beq_iff_eq] at ha
        rw [← ha.1]
        exact hi.truthful entry he ha.2
    · cases h
      exact hi.keep rfl rfl rfl (.quiet s h' rfl rfl fun _ _ hx => by cases hx)
  · cases h

/-- **Step.** -/
theorem Inv.step {fmt : DebugFormat} {s s' : HostState H} {e : HandlerEvent H} (hi : s.Inv)
    (hok : s.SwapUnseen e) (h : s.step fmt e = some s') : s'.Inv := by
  cases e with
  | ensure h' q => exact hi.ensure h
  | lockSwitch h' =>
    simp only [HostState.step] at h
    split at h
    · next name hp hl =>
      cases h
      refine hi.relock rfl rfl (fun k _ hk => ?_) (.behind rfl rfl rfl fun _ _ hx => by cases hx)
      rw [hl] at hk
      cases hk
    · cases h
  | recheck h' =>
    simp only [HostState.step] at h
    split at h
    · next name hp =>
      have hs : (s.phase h').switching = true := by rw [hp]; rfl
      split at h
      · next ha =>
        cases h
        exact hi.leave hs (.found h' (Or.inl rfl) fun n hn => by cases hn; exact ha)
      · cases h
        exact hi.keep rfl rfl rfl (.behind ((hi.fits h').locked hs) rfl rfl fun _ _ hx => by cases hx)
    · cases h
  | readCount h' =>
    simp only [HostState.step] at h
    split at h
    · next name hp =>
      have hs : (s.phase h').switching = true := by rw [hp]; rfl
      split at h
      · cases h
        exact hi.leave hs (.quiet _ h' rfl rfl fun _ _ hx => by cases hx)
      · cases h
        exact hi.keep rfl rfl rfl (.behind ((hi.fits h').locked hs) rfl rfl fun _ _ hx => by cases hx)
    · cases h
  | launched h' r =>
    simp only [HostState.step] at h
    split at h
    · next name hp =>
      have hs : (s.phase h').switching = true := by rw [hp]; rfl
      split at h
      · cases h
        exact hi.leave hs (.quiet _ h' rfl rfl fun _ _ hx => by cases hx)
      · cases h
        refine hi.keep rfl rfl rfl ⟨fun _ => (hi.fits h').locked hs, ?_, ?_, ?_⟩
        · intro n handle he
          cases he
          rfl
        · intro n hn
          cases hn
        · intro n entry he
          cases he
    · cases h
  | swap h' => exact hi.swap hok h
  | reset h' =>
    simp only [HostState.step] at h
    split at h
    · next name hp =>
      cases h
      have ha : s.active name = true := (hi.fits h').picked name (by rw [hp]; rfl)
      exact hi.leave (by rw [hp]; rfl) (.found h' (Or.inl rfl) fun n hn => by cases hn; exact ha)
    · cases h
  | takeGuard h' =>
    simp only [HostState.step] at h
    split at h
    · next q hp =>
      cases h
      refine hi.keep rfl rfl rfl (.found h' (Or.inr rfl) fun n hn => ?_)
      exact (hi.fits h').picked n (by rw [hp]; exact hn)
    · cases h
  | readProfile h' => exact hi.readProfile h
  | close h' =>
    simp only [HostState.step] at h
    split at h
    · cases h
      exact hi.keep rfl rfl rfl (.quiet s h' rfl rfl fun _ _ hx => by cases hx)
    · cases h
  | cancel h' =>
    simp only [HostState.step] at h
    split at h
    · split at h
      · next hs =>
        cases h
        exact hi.leave hs (.quiet _ h' rfl rfl fun _ _ hx => by cases hx)
      · cases h
        exact hi.keep rfl rfl rfl (.quiet s h' rfl rfl fun _ _ hx => by cases hx)
    · cases h

/-- A handler past `ensure_profile` gets the profile that is active by the time it reads. -/
theorem reads_active (fmt : DebugFormat) {s : HostState H} {k : H} {name : String} {entry : ProfileEntry}
    (hk : (s.phase k).between = some name) (hp : s.profile = some entry) :
    ∃ es t, Run.run (HostState.step fmt) s es = some t ∧ t.phase k = .proxied (some name) entry := by
  have read : ∀ s : HostState H, s.phase k = .counted (some name) → s.profile = some entry →
      s.step fmt (.readProfile k) = some (s.setPhase k (.proxied (some name) entry)) := by
    intro s hk hp
    simp only [HostState.step, hk, hp]
  cases hφ : s.phase k with
  | counted q =>
    rw [hφ] at hk
    cases hk
    refine ⟨[.readProfile k], _, ?_, setPhase_self s k _⟩
    rw [Run.run_cons, read s hφ hp]
    rfl
  | ensured q =>
    rw [hφ] at hk
    cases hk
    let s' : HostState H := { s.setPhase k (.counted (some name)) with cdpClients := s.cdpClients + 1 }
    have take : s.step fmt (.takeGuard k) = some s' := by simp only [HostState.step, hφ]; rfl
    refine ⟨[.takeGuard k, .readProfile k], _, ?_, setPhase_self s' k _⟩
    rw [Run.run_cons, take, Option.bind_some, Run.run_cons, read s' (setPhase_self s k _) hp]
    rfl
  | _ =>
    rw [hφ] at hk
    cases hk

/-- A swap that lands between a handler's two reads of the profile may put its connection on
the wrong one. -/
theorem misled_of_swap {fmt : DebugFormat} {s s' : HostState H} {e : HandlerEvent H} (hi : s.Inv)
    (hno : ¬ s.SwapUnseen e) (h : s.step fmt e = some s') :
    ∃ es t, Run.run (HostState.step fmt) s' es = some t ∧ ¬ t.OnNamed := by
  cases e with
  | swap h' =>
    cases hp : s.phase h' with
    | swapping name handle =>
      simp only [SwapUnseen, hp, not_forall] at hno
      obtain ⟨k, other, hk, hne⟩ := hno
      simp only [HostState.step, hp] at h
      cases h
      have hkh : k ≠ h' := by
        rintro rfl
        rw [hp] at hk
        cases hk
      let s' : HostState H :=
        { s.setPhase h' (.resetting name) with profile := some ⟨"persistent", name, handle⟩ }
      have hk' : (s'.phase k).between = some other := by
        rw [← hk]
        exact congrArg _ (setPhase_of_ne s _ hkh)
      obtain ⟨es, t, ht, htk⟩ := reads_active fmt hk' rfl
      refine ⟨es, t, ht, fun hnamed => ?_⟩
      have hon : handle.launchedOn = .persistent other := hnamed k other _ htk
      rw [(hi.fits h').launched name handle hp] at hon
      exact hne (ProfileChoice.persistent.inj hon).symm
    | _ => simp [SwapUnseen, hp] at hno
  | _ => exact absurd trivial hno

/-- **As named.**  In every run in which no swap lands between a handler's two reads of the
active profile, a connection that named a profile is on a browser launched on it.  A swap
that does land there can be followed by steps that put a connection on another one. -/
theorem proxied_as_named (fmt : DebugFormat) {choice : ProfileChoice} {wsUrl : String}
    {es : List (HandlerEvent H)} {s : HostState H}
    (hok : Run.RunMeets (HostState.step fmt) SwapUnseen (HostState.launch H choice wsUrl) es)
    (hrun : Run.run (HostState.step fmt) (HostState.launch H choice wsUrl) es = some s) :
    s.OnNamed ∧ ∀ e s', s.step fmt e = some s' → ¬ s.SwapUnseen e →
      ∃ es' t, Run.run (HostState.step fmt) s' es' = some t ∧ ¬ t.OnNamed := by
  have hi : s.Inv := Run.runMeets_invariant (HostState.step fmt) (Inv.launch choice wsUrl)
    (fun s e s' hi he h => hi.step he h) hok hrun
  exact ⟨fun h name entry hp => (hi.fits h).named name entry hp, fun e s' h hno => misled_of_swap hi hno h⟩

end HostState

/-! ## The swap between the two reads -/

open HostState

def plainFormat : DebugFormat := ⟨fun c => c.toString, fun s => s⟩

/-- The handler's steps from its request to the swap of a browser launched on `name`. -/
def switchSteps (h : ℕ) (name : String) : List (HandlerEvent ℕ) :=
  [.ensure h (some name), .lockSwitch h, .recheck h, .readCount h, .launched h (.ok "ws://b")]

/-- Handler 1 asks for `b`; while its browser is launched, handler 0 finds `a` active. -/
def switchUnderHandler : List (HandlerEvent ℕ) :=
  switchSteps 1 "b" ++ [.ensure 0 (some "a"), .swap 1, .takeGuard 0, .readProfile 0]

theorem switch_lands_between :
    ∃ s, Run.run (HostState.step plainFormat) (HostState.launch ℕ (.persistent "a") "ws://a")
      switchUnderHandler = some s ∧ ¬ s.OnNamed := by
  have hf : (Run.run (HostState.step plainFormat) (HostState.launch ℕ (.persistent "a") "ws://a")
      switchUnderHandler).map (fun s => s.phase 0) =
      some (.proxied (some "a") ⟨"persistent", "b", ⟨"ws://b", .persistent "b"⟩⟩) := by decide +kernel
  obtain ⟨s, hs, hp⟩ := Option.map_eq_some_iff.mp hf
  refine ⟨s, hs, fun hn => ?_⟩
  have hon := hn 0 "a" _ hp
  exact absurd hon (by decide)

/-- Two handlers of one host, one after the other. -/
def switchThenHandler : List (HandlerEvent Bool) :=
  [.ensure true (some "b"), .lockSwitch true, .recheck true, .readCount true, .launched true (.ok "ws://b"),
   .swap true, .reset true, .takeGuard true, .readProfile true, .ensure false (some "b"), .takeGuard false,
   .readProfile false]

theorem proxied_as_named_switchThenHandler :
    ∃ s, Run.run (HostState.step plainFormat) (HostState.launch Bool .ephemeral "ws://a")
      switchThenHandler = some s ∧ s.OnNamed := by
  have hs : (Run.run (HostState.step plainFormat) (HostState.launch Bool .ephemeral "ws://a")
      switchThenHandler).isSome = true := by decide +kernel
  obtain ⟨s, hs⟩ := Option.isSome_iff_exists.mp hs
  exact ⟨s, hs, (proxied_as_named plainFormat (by decide +kernel) hs).1⟩

end Afhttp.Host

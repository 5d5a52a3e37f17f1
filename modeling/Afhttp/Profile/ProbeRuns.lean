import Mathlib
import Afhttp.Profile.Probe

/-!
# When a lock's answers are true

Any number of processes acquire and drop guards, probe and crash on one profile.  An acquire that
finds the profile locked, or a probe, may have met a probe that has the lock for a moment
(`acquire_fails_on_probe`); and the PID that `status` reads may be the one that a crash left behind.
Otherwise the answers are true: there was a guard during the call, and the PID is that of a process
that had one (`answers_truthful`).
-/

namespace Afhttp.Profile

/-! ## What an answer tells -/

/-- What a call of `me` tells where it stands, if `seen` are the processes that have had a guard
during the call. -/
def CallPhase.Tells {P : Type} (me : P) (seen : Finset P) : CallPhase P → Prop
  | .reading unopenable => unopenable = true ∨ seen.Nonempty
  | .returned (.failed e) => e.errorCode = .profileLocked → ∃ p ∈ seen, p ≠ me
  | .returned (.probed taken unopenable) => taken = true → unopenable = true ∨ seen.Nonempty
  | .returned (.status st unopenable) => (st.locked = true → unopenable = true ∨ seen.Nonempty) ∧
      ∀ p, st.ownerPid = some p → p ∈ seen
  | _ => True

namespace CallPhase

variable {P : Type} {me : P} {seen seen' : Finset P} {φ : CallPhase P}

theorem Tells.mono (h : φ.Tells me seen) (hsub : seen ⊆ seen') : φ.Tells me seen' := by
  cases φ with
  | reading unopenable => exact h.imp_right fun hn => hn.mono hsub
  | returned answer =>
    cases answer with
    | failed e => exact fun he => (h he).imp fun p hp => ⟨hsub hp.1, hp.2⟩
    | dropped => trivial
    | probed locked unopenable => exact fun hl => (h hl).imp_right fun hn => hn.mono hsub
    | status st unopenable =>
      exact ⟨fun hl => (h.1 hl).imp_right fun hn => hn.mono hsub, fun p hp => hsub (h.2 p hp)⟩
  | _ => trivial

/-- What `probe` tells. -/
theorem tells_probed (profileDir : String) {locked unopenable : Bool} (who : Prober)
    (h : locked = true → unopenable = true ∨ seen.Nonempty) :
    (CallPhase.probed profileDir locked unopenable who).Tells me seen := by
  cases who with
  | listing => exact h
  | status =>
    cases locked with
    | true => exact h rfl
    | false => exact ⟨fun hl => Bool.noConfusion hl, fun p hp => by cases hp⟩

theorem probed_holds (profileDir : String) (locked unopenable : Bool) (who : Prober) :
    (CallPhase.probed profileDir locked unopenable who : CallPhase P).holds = false := by
  cases who <;> cases locked <;> rfl

theorem holds_of_guards (h : φ.guards = true) : φ.holds = true := by
  cases φ <;> first | rfl | cases h

theorem guards_of_holds (h : φ.holds = false) : φ.guards = false := by
  cases φ <;> first | rfl | cases h

theorem guards_eq_of_holds {ψ : CallPhase P} (hφ : φ.holds = false) (hψ : ψ.holds = false) :
    φ.guards = ψ.guards := by
  rw [guards_of_holds hφ, guards_of_holds hψ]

theorem running_of_holds (h : φ.holds = true) : φ.running = true := by
  cases φ <;> first | rfl | cases h

end CallPhase

namespace ProbeWorld

variable {C P : Type} [DecidableEq C] [DecidableEq P]

section
variable (process : C → P) (profileDir : String)

/-- Every call tells the truth. -/
def Truthful (w : ProbeWorld C P) : Prop := ∀ c, (w.phase c).Tells (process c) (w.witnessed c)

/-- The condition: where the lock is found taken it is taken by a guard, for an acquire by one of
another process; and no PID file is read that was left behind before the call. -/
def AnswersFair (w : ProbeWorld C P) : ProbeEvent C P → Prop
  | .tryLock c (some _) => (w.holder.any fun q => (w.phase q).guards && decide (process q ≠ process c)) = true
  | .probeLock _ false => (w.holder.any fun q => (w.phase q).guards) = true
  | .readPid c true => w.stale c = false ∨ w.pidfile = none
  | _ => True

instance (w : ProbeWorld C P) : (e : ProbeEvent C P) → Decidable (w.AnswersFair process e)
  | .tryLock _ (some _) => inferInstanceAs (Decidable (_ = true))
  | .probeLock _ false => inferInstanceAs (Decidable (_ = true))
  | .readPid _ true => inferInstanceAs (Decidable (_ ∨ _))
  | .beginAcquire _ | .openLockfile .. | .tryLock _ none | .writePid .. | .dropGuard _ | .removePid ..
  | .unlock _ | .beginProbe .. | .symlinkMetadata .. | .openProbe .. | .probeLock _ true | .probeUnlock _ | .readPid _ false
  | .crash _ => inferInstanceAs (Decidable True)

/-- Who has the lock, who wrote the PID file, and what the running calls have seen. -/
structure Inv (w : ProbeWorld C P) : Prop where
  holder : ∀ c, w.holder = some c ↔ (w.phase c).holds = true
  fresh : ∀ file, w.pidfile = some file → file.left = false → file.pid ∈ w.guardOf process
  witnessed : ∀ c, (w.phase c).running = true → w.guardOf process ⊆ w.witnessed c
  owner : ∀ c, (w.phase c).running = true → w.stale c = false → ∀ file, w.pidfile = some file →
    file.pid ∈ w.witnessed c

/-- The call goes on to `φ`, and the lock, the PID file and the histories do what they do. -/
inductive Change (w w' : ProbeWorld C P) (c : C) (φ : CallPhase P) : Prop where
  /-- The lock stays as it is, and so does the PID file. -/
  | keeps (running : (w.phase c).running = true) (holds : φ.holds = (w.phase c).holds)
      (guards : φ.guards = (w.phase c).guards) (holder : w'.holder = w.holder)
      (pidfile : w'.pidfile = w.pidfile) (stale : w'.stale = w.stale) (witnessed : w'.witnessed = w.witnessed)
      (tells : φ.Tells (process c) (w.witnessed c))
  /-- The guard writes the PID file, or removes it. -/
  | writes (before : (w.phase c).guards = true) (after : φ.guards = true) (holder : w'.holder = w.holder)
      (pidfile : ∀ file, w'.pidfile = some file → file = ⟨process c, false⟩)
      (witnessed : w'.witnessed = w.witnessed) (tells : φ.Tells (process c) (w.witnessed c))
  | begins (idle : w.phase c = .idle) (holds : φ.holds = false) (holder : w'.holder = w.holder)
      (pidfile : w'.pidfile = w.pidfile) (stale : w'.stale = Function.update w.stale c w.isLeft)
      (witnessed : w'.witnessed = Function.update w.witnessed c ∅) (tells : φ.Tells (process c) ∅)
  | takes (running : (w.phase c).running = true) (free : w.holder = none) (holds : φ.holds = true)
      (holder : w'.holder = some c) (pidfile : w'.pidfile = w.pidfile) (stale : w'.stale = w.stale)
      (witnessed : w'.witnessed = w.witnessed) (tells : φ.Tells (process c) (w.witnessed c))
  | frees (before : (w.phase c).holds = true) (after : φ.holds = false) (holder : w'.holder = none)
      (pidfile : w'.pidfile = w.leave.pidfile ∨ (w'.pidfile = w.pidfile ∧ (w.phase c).guards = false))
      (stale : w'.stale = w.stale) (witnessed : w'.witnessed = w.witnessed)
      (tells : φ.Tells (process c) (w.witnessed c))

variable {process : C → P} {profileDir : String} {w w' : ProbeWorld C P} {c : C} {φ : CallPhase P}

omit [DecidableEq C] [DecidableEq P] in
theorem mem_guardOf {p : P} :
    p ∈ w.guardOf process ↔ ∃ q, w.holder = some q ∧ (w.phase q).guards = true ∧ process q = p := by
  rw [guardOf, Option.mem_toFinset, Option.mem_def, Option.map_eq_some_iff]
  simp only [Option.filter_eq_some_iff, and_assoc]

omit [DecidableEq C] [DecidableEq P] in
/-- Where the lock is taken by a guard, the call sees it. -/
theorem Inv.seen (hinv : w.Inv process) (hrunning : (w.phase c).running = true) {q : C} (hq : w.holder = some q)
    (hguards : (w.phase q).guards = true) : process q ∈ w.witnessed c :=
  hinv.witnessed c hrunning (mem_guardOf.mpr ⟨q, hq, hguards, rfl⟩)

omit [DecidableEq P] in
theorem change_keeps (hrunning : (w.phase c).running = true) (hholds : φ.holds = (w.phase c).holds)
    (hguards : φ.guards = (w.phase c).guards) (htells : φ.Tells (process c) (w.witnessed c)) :
    (w.setPhase c φ).phase = Function.update w.phase c φ ∧ Change process w (w.setPhase c φ) c φ :=
  ⟨rfl, .keeps hrunning hholds hguards rfl rfl rfl rfl htells⟩

omit [DecidableEq P] in
/-- A probe returns what is true. -/
theorem change_probed (hrunning : (w.phase c).running = true) (hholds : (w.phase c).holds = false)
    (who : Prober) {locked unopenable : Bool}
    (htells : locked = true → unopenable = true ∨ (w.witnessed c).Nonempty) :
    (w.setPhase c (.probed profileDir locked unopenable who)).phase =
        Function.update w.phase c (.probed profileDir locked unopenable who) ∧
      Change process w (w.setPhase c (.probed profileDir locked unopenable who)) c
        (.probed profileDir locked unopenable who) :=
  change_keeps hrunning ((CallPhase.probed_holds ..).trans hholds.symm)
    (CallPhase.guards_eq_of_holds (CallPhase.probed_holds ..) hholds)
    (CallPhase.tells_probed profileDir who htells)

/-- **What a system call does.** -/
theorem act_change {e : ProbeEvent C P} (hinv : w.Inv process) (htrue : w.Truthful process)
    (hfair : w.AnswersFair process e) (h : w.act process profileDir e = some w') :
    (∃ c φ, w'.phase = Function.update w.phase c φ ∧ Change process w w' c φ) ∨ ∃ p, w' = w.crash process p := by
  cases e with
  | beginAcquire c =>
    simp only [act] at h
    split at h
    · next hidle =>
      cases h
      exact Or.inl ⟨c, _, rfl, .begins hidle rfl rfl rfl rfl rfl trivial⟩
    · cases h
  | openLockfile c fault =>
    simp only [act] at h
    split at h
    · next hphase =>
      cases fault with
      | some e =>
        cases h
        exact Or.inl ⟨c, _, change_keeps (by rw [hphase]; rfl) (by rw [hphase]; rfl) (by rw [hphase]; rfl)
          fun hcode => by cases hcode⟩
      | none =>
        cases h
        refine Or.inl ⟨c, _, rfl, .keeps ?_ ?_ ?_ rfl rfl rfl rfl trivial⟩ <;> rw [hphase] <;> rfl
    · cases h
  | tryLock c fault =>
    simp only [act] at h
    split at h
    · next hphase =>
      have hrunning : (w.phase c).running = true := by rw [hphase]; rfl
      cases fault with
      | some e =>
        cases h
        obtain ⟨q, hq, hguard⟩ := (Option.any_eq_true _ _).mp hfair
        rw [Bool.and_eq_true, decide_eq_true_eq] at hguard
        exact Or.inl ⟨c, _, change_keeps hrunning (by rw [hphase]; rfl) (by rw [hphase]; rfl)
          fun _ => ⟨process q, hinv.seen hrunning hq hguard.1, hguard.2⟩⟩
      | none =>
        simp only [] at h
        split at h
        · next hfree =>
          cases h
          exact Or.inl ⟨c, _, rfl, .takes hrunning hfree rfl rfl rfl rfl rfl trivial⟩
        · cases h
    · cases h
  | writePid c done =>
    simp only [act] at h
    split at h
    · next hphase =>
      cases h
      have hguards : (w.phase c).guards = true := by rw [hphase]; rfl
      cases done with
      | true =>
        refine Or.inl ⟨c, _, rfl, .writes hguards rfl rfl ?_ rfl trivial⟩
        rintro file ⟨⟩
        rfl
      | false =>
        have hkeeps : (w.setPhase c .hosting).phase = Function.update w.phase c .hosting ∧
            Change process w (w.setPhase c .hosting) c .hosting :=
          change_keeps (by rw [hphase]; rfl) (by rw [hphase]; rfl) (by rw [hphase]; rfl) trivial
        exact Or.inl ⟨c, _, hkeeps⟩
    · cases h
  | dropGuard c =>
    simp only [act] at h
    split at h
    · next hphase =>
      cases h
      exact Or.inl ⟨c, _, change_keeps (by rw [hphase]; rfl) (by rw [hphase]; rfl) (by rw [hphase]; rfl) trivial⟩
    · cases h
  | removePid c done =>
    simp only [act] at h
    split at h
    · next hphase =>
      cases h
      have hguards : (w.phase c).guards = true := by rw [hphase]; rfl
      cases done with
      | true =>
        refine Or.inl ⟨c, _, rfl, .writes hguards rfl rfl ?_ rfl trivial⟩
        rintro file ⟨⟩
      | false =>
        have hkeeps : (w.setPhase c .unlocking).phase = Function.update w.phase c .unlocking ∧
            Change process w (w.setPhase c .unlocking) c .unlocking :=
          change_keeps (by rw [hphase]; rfl) (by rw [hphase]; rfl) (by rw [hphase]; rfl) trivial
        exact Or.inl ⟨c, _, hkeeps⟩
    · cases h
  | unlock c =>
    simp only [act] at h
    split at h
    · next hphase =>
      cases h
      exact Or.inl ⟨c, _, rfl, .frees (by rw [hphase]; rfl) rfl rfl (Or.inl rfl) rfl rfl trivial⟩
    · cases h
  | beginProbe c who =>
    simp only [act] at h
    split at h
    · next hidle =>
      cases h
      exact Or.inl ⟨c, _, rfl, .begins hidle rfl rfl rfl rfl rfl trivial⟩
    · cases h
  | symlinkMetadata c ok =>
    simp only [act] at h
    split at h
    · next who hphase =>
      have hrunning : (w.phase c).running = true := by rw [hphase]; rfl
      have hholds : (w.phase c).holds = false := by rw [hphase]; rfl
      split at h
      · cases h
        exact Or.inl ⟨c, _, change_probed hrunning hholds who fun hlocked => Bool.noConfusion hlocked⟩
      · split at h
        · cases h
          exact Or.inl ⟨c, _, change_keeps hrunning hholds.symm (CallPhase.guards_eq_of_holds rfl hholds) trivial⟩
        · cases h
    · cases h
  | openProbe c ok =>
    simp only [act] at h
    split at h
    · next who hphase =>
      have hrunning : (w.phase c).running = true := by rw [hphase]; rfl
      have hholds : (w.phase c).holds = false := by rw [hphase]; rfl
      split at h
      · cases h
        exact Or.inl ⟨c, _, change_keeps hrunning hholds.symm (CallPhase.guards_eq_of_holds rfl hholds) trivial⟩
      · cases h
        exact Or.inl ⟨c, _, change_probed hrunning hholds who fun _ => Or.inl rfl⟩
    · cases h
  | probeLock c ok =>
    simp only [act] at h
    split at h
    · next who hphase =>
      have hrunning : (w.phase c).running = true := by rw [hphase]; rfl
      have hholds : (w.phase c).holds = false := by rw [hphase]; rfl
      cases ok with
      | false =>
        cases h
        obtain ⟨q, hq, hguards⟩ := (Option.any_eq_true _ _).mp hfair
        have hseen : process q ∈ w.witnessed c := hinv.seen hrunning hq hguards
        exact Or.inl ⟨c, _, change_probed hrunning hholds who fun _ => Or.inr ⟨_, hseen⟩⟩
      | true =>
        simp only [Bool.not_true, Bool.false_eq_true, if_false] at h
        split at h
        · next hfree =>
          cases h
          exact Or.inl ⟨c, _, rfl, .takes hrunning hfree rfl rfl rfl rfl rfl trivial⟩
        · cases h
    · cases h
  | probeUnlock c =>
    simp only [act] at h
    split at h
    · next who hphase =>
      cases h
      have hguards : (w.phase c).guards = false := by rw [hphase]; rfl
      exact Or.inl ⟨c, _, rfl, .frees (by rw [hphase]; rfl) (CallPhase.probed_holds ..) rfl
        (Or.inr ⟨rfl, hguards⟩) rfl rfl
        (CallPhase.tells_probed profileDir who fun hlocked => Bool.noConfusion hlocked)⟩
    · cases h
  | readPid c ok =>
    simp only [act] at h
    split at h
    · next unopenable hphase =>
      cases h
      have hrunning : (w.phase c).running = true := by rw [hphase]; rfl
      have hbefore : unopenable = true ∨ (w.witnessed c).Nonempty := by
        have htells := htrue c
        rw [hphase] at htells
        exact htells
      refine Or.inl ⟨c, _, change_keeps hrunning (by rw [hphase]; rfl) (by rw [hphase]; rfl)
        ⟨fun _ => hbefore, ?_⟩⟩
      intro p hp
      cases ok with
      | false => cases hp
      | true =>
        obtain ⟨file, hfile, rfl⟩ := Option.map_eq_some_iff.mp hp
        rcases hfair with hstale | hnone
        · exact hinv.owner c hrunning hstale file hfile
        · rw [hnone] at hfile
          cases hfile
    · cases h
  | crash p =>
    cases h
    exact Or.inr ⟨p, rfl⟩

/-! ## Every run -/

omit [DecidableEq P] in
/-- The phases of the calls give the lock's holder. -/
theorem Change.holder (hchange : Change process w w' c φ) (hinv : w.Inv process)
    (hphase : w'.phase = Function.update w.phase c φ) (d : C) :
    w'.holder = some d ↔ (w'.phase d).holds = true := by
  have hsame : w'.holder = w.holder → φ.holds = (w.phase c).holds →
      (w'.holder = some d ↔ (w'.phase d).holds = true) := by
    intro hholder hholds
    rw [hholder, hphase, hinv.holder d]
    by_cases hd : d = c
    · rw [hd, Function.update_self, hholds]
    · rw [Function.update_of_ne hd]
  cases hchange with
  | keeps _ hholds _ hholder => exact hsame hholder hholds
  | writes hbefore hafter hholder =>
    exact hsame hholder ((CallPhase.holds_of_guards hafter).trans (CallPhase.holds_of_guards hbefore).symm)
  | begins hidle hholds hholder => exact hsame hholder (by rw [hholds, hidle]; rfl)
  | takes _ hfree hholds hholder =>
    rw [hholder, hphase]
    by_cases hd : d = c
    · rw [hd, Function.update_self, hholds]
      exact ⟨fun _ => rfl, fun _ => rfl⟩
    · rw [Function.update_of_ne hd, ← hinv.holder d, hfree, Option.some_inj]
      exact ⟨fun hcd => absurd hcd.symm hd, fun hnone => by cases hnone⟩
  | frees hbefore hafter hholder =>
    rw [hholder, hphase]
    by_cases hd : d = c
    · rw [hd, Function.update_self, hafter]
      exact ⟨fun hnone => (by cases hnone), fun hno => Bool.noConfusion hno⟩
    · rw [Function.update_of_ne hd, ← hinv.holder d, (hinv.holder c).mpr hbefore, Option.some_inj]
      exact ⟨fun hnone => (by cases hnone), fun hcd => absurd hcd.symm hd⟩

omit [DecidableEq P] in
/-- A guard stays a guard where the lock and what its phase gives stay as they are. -/
theorem guardOf_subset (hphase : w'.phase = Function.update w.phase c φ) (hholder : w'.holder = w.holder)
    (hguards : (w.phase c).guards = true → φ.guards = true) : w.guardOf process ⊆ w'.guardOf process := by
  intro p hp
  obtain ⟨q, hq, hguard, hpid⟩ := mem_guardOf.mp hp
  refine mem_guardOf.mpr ⟨q, hholder.trans hq, ?_, hpid⟩
  rw [hphase]
  by_cases hqc : q = c
  · rw [hqc, Function.update_self]
    rw [hqc] at hguard
    exact hguards hguard
  · rw [Function.update_of_ne hqc]
    exact hguard

omit [DecidableEq P] in
/-- A PID file that is not left behind is a guard's. -/
theorem Change.fresh (hchange : Change process w w' c φ) (hinv : w.Inv process)
    (hphase : w'.phase = Function.update w.phase c φ) {file : PidFile P} (hfile : w'.pidfile = some file)
    (hfresh : file.left = false) : file.pid ∈ w'.guardOf process := by
  cases hchange with
  | keeps _ _ hguards hholder hpidfile =>
    rw [hpidfile] at hfile
    exact guardOf_subset hphase hholder (fun h => hguards.trans h) (hinv.fresh file hfile hfresh)
  | writes hbefore hafter hholder hpidfile =>
    obtain rfl := hpidfile file hfile
    have hq : w.holder = some c := (hinv.holder c).mpr (CallPhase.holds_of_guards hbefore)
    exact mem_guardOf.mpr ⟨c, hholder.trans hq, by rw [hphase, Function.update_self, hafter], rfl⟩
  | begins hidle _ hholder hpidfile =>
    rw [hpidfile] at hfile
    refine guardOf_subset hphase hholder (fun h => ?_) (hinv.fresh file hfile hfresh)
    rw [hidle] at h
    cases h
  | takes _ hfree _ _ hpidfile =>
    rw [hpidfile] at hfile
    obtain ⟨q, hq, -⟩ := mem_guardOf.mp (hinv.fresh file hfile hfresh)
    rw [hfree] at hq
    cases hq
  | frees hbefore _ _ hpidfile =>
    rcases hpidfile with hleft | ⟨hkept, hguards⟩
    · rw [hleft] at hfile
      obtain ⟨_, -, rfl⟩ := Option.map_eq_some_iff.mp hfile
      cases hfresh
    · rw [hkept] at hfile
      obtain ⟨q, hq, hguard, -⟩ := mem_guardOf.mp (hinv.fresh file hfile hfresh)
      rw [(hinv.holder c).mpr hbefore, Option.some_inj] at hq
      rw [← hq, hguards] at hguard
      cases hguard

omit [DecidableEq P] in
/-- Of a PID file that was left behind during the call, the call has seen the guard. -/
theorem Change.owner (hchange : Change process w w' c φ) (hinv : w.Inv process)
    (hphase : w'.phase = Function.update w.phase c φ) {d : C} (hrunning : (w'.phase d).running = true)
    (hstale : w'.stale d = false) {file : PidFile P} (hfile : w'.pidfile = some file)
    (hleft : file.left = true) : file.pid ∈ w'.witnessed d := by
  have hother : d ≠ c → (w.phase d).running = true := by
    intro hd
    rw [hphase, Function.update_of_ne hd] at hrunning
    exact hrunning
  have hany : (w.phase c).running = true → (w.phase d).running = true := by
    intro hc
    by_cases hd : d = c
    · exact hd ▸ hc
    · exact hother hd
  cases hchange with
  | keeps hc _ _ _ hpidfile hst hwit =>
    rw [hwit]
    exact hinv.owner d (hany hc) (hst ▸ hstale) file (hpidfile ▸ hfile)
  | writes _ _ _ hpidfile =>
    obtain rfl := hpidfile file hfile
    cases hleft
  | begins _ _ _ hpidfile hst hwit =>
    rw [hpidfile] at hfile
    by_cases hd : d = c
    · rw [hst, hd, Function.update_self, isLeft, hfile] at hstale
      rw [Option.any_some, hleft] at hstale
      cases hstale
    · rw [hst, Function.update_of_ne hd] at hstale
      rw [hwit, Function.update_of_ne hd]
      exact hinv.owner d (hother hd) hstale file hfile
  | takes hc _ _ _ hpidfile hst hwit =>
    rw [hwit]
    exact hinv.owner d (hany hc) (hst ▸ hstale) file (hpidfile ▸ hfile)
  | frees hbefore _ _ hpidfile hst hwit =>
    have hd : (w.phase d).running = true := hany (CallPhase.running_of_holds hbefore)
    rw [hwit]
    rw [hst] at hstale
    rcases hpidfile with hleave | ⟨hkept, -⟩
    · rw [hleave] at hfile
      obtain ⟨old, hold, rfl⟩ := Option.map_eq_some_iff.mp hfile
      exact hinv.owner d hd hstale old hold
    · exact hinv.owner d hd hstale file (hkept ▸ hfile)

omit [DecidableEq P] in
/-- The call that goes on tells the truth, and the others do as before. -/
theorem Change.tells (hchange : Change process w w' c φ) (htrue : w.Truthful process)
    (hphase : w'.phase = Function.update w.phase c φ) : w'.Truthful process := by
  have hsame : w'.witnessed = w.witnessed → φ.Tells (process c) (w.witnessed c) → w'.Truthful process := by
    intro hwit htells d
    rw [hphase, hwit]
    by_cases hd : d = c
    · rw [hd, Function.update_self]
      exact htells
    · rw [Function.update_of_ne hd]
      exact htrue d
  cases hchange with
  | keeps _ _ _ _ _ _ hwit htells => exact hsame hwit htells
  | writes _ _ _ _ hwit htells => exact hsame hwit htells
  | begins _ _ _ _ _ hwit htells =>
    intro d
    rw [hphase, hwit]
    by_cases hd : d = c
    · rw [hd, Function.update_self, Function.update_self]
      exact htells
    · rw [Function.update_of_ne hd, Function.update_of_ne hd]
      exact htrue d
  | takes _ _ _ _ _ _ hwit htells => exact hsame hwit htells
  | frees _ _ _ _ _ hwit htells => exact hsame hwit htells

omit [DecidableEq C] in
/-- Where a crash leaves a call. -/
theorem crash_phase (p : P) (d : C) : (w.crash process p).phase d =
    if process d = p ∧ (w.phase d).running = true then .gone else w.phase d := rfl

omit [DecidableEq C] in
theorem crash_witnessed (p : P) : (w.crash process p).witnessed = w.witnessed := by
  unfold crash
  split <;> rfl

omit [DecidableEq C] in
theorem crash_stale (p : P) : (w.crash process p).stale = w.stale := by
  unfold crash
  split <;> rfl

omit [DecidableEq C] in
/-- A crash frees the lock that the process has, and its PID file is left behind. -/
theorem crash_cases (process : C → P) (w : ProbeWorld C P) (p : P) :
    ((∃ q, w.holder = some q ∧ process q = p) ∧ (w.crash process p).holder = none ∧
        (w.crash process p).pidfile = w.leave.pidfile) ∨
      ((∀ q, w.holder = some q → process q ≠ p) ∧ (w.crash process p).holder = w.holder ∧
        (w.crash process p).pidfile = w.pidfile) := by
  unfold crash
  split
  · next hany =>
    obtain ⟨q, hq, hp⟩ := (Option.any_eq_true _ _).mp hany
    exact Or.inl ⟨⟨q, hq, of_decide_eq_true hp⟩, rfl, rfl⟩
  · next hany =>
    refine Or.inr ⟨fun q hq hp => hany ?_, rfl, rfl⟩
    rw [hq]
    exact decide_eq_true hp

omit [DecidableEq C] in
theorem crash_holder (hinv : w.Inv process) (p : P) (d : C) :
    (w.crash process p).holder = some d ↔ ((w.crash process p).phase d).holds = true := by
  rw [crash_phase]
  rcases crash_cases process w p with ⟨⟨q, hq, hp⟩, hholder, -⟩ | ⟨hno, hholder, -⟩
  · rw [hholder]
    refine ⟨fun hnone => (by cases hnone), fun hholds => ?_⟩
    split at hholds
    · cases hholds
    · next hrunning =>
      have hqd : q = d := Option.some_inj.mp (hq.symm.trans ((hinv.holder d).mpr hholds))
      exact absurd ⟨hqd ▸ hp, CallPhase.running_of_holds hholds⟩ hrunning
  · rw [hholder, hinv.holder d]
    split
    · next hgone =>
      exact ⟨fun hholds => absurd hgone.1 (hno d ((hinv.holder d).mpr hholds)), fun hholds => by cases hholds⟩
    · exact Iff.rfl

omit [DecidableEq C] in
theorem crash_fresh (hinv : w.Inv process) (p : P) {file : PidFile P}
    (hfile : (w.crash process p).pidfile = some file) (hfresh : file.left = false) :
    file.pid ∈ (w.crash process p).guardOf process := by
  rcases crash_cases process w p with ⟨-, -, hpidfile⟩ | ⟨hno, hholder, hpidfile⟩
  · rw [hpidfile] at hfile
    obtain ⟨_, -, rfl⟩ := Option.map_eq_some_iff.mp hfile
    cases hfresh
  · rw [hpidfile] at hfile
    obtain ⟨q, hq, hguard, hpid⟩ := mem_guardOf.mp (hinv.fresh file hfile hfresh)
    refine mem_guardOf.mpr ⟨q, hholder.trans hq, ?_, hpid⟩
    rw [crash_phase, if_neg fun hgone => hno q hq hgone.1]
    exact hguard

omit [DecidableEq C] in
theorem crash_owner (hinv : w.Inv process) (p : P) {d : C}
    (hrunning : ((w.crash process p).phase d).running = true) (hstale : (w.crash process p).stale d = false)
    {file : PidFile P} (hfile : (w.crash process p).pidfile = some file) : file.pid ∈ (w.crash process p).witnessed d := by
  rw [crash_phase] at hrunning
  rw [crash_stale] at hstale
  rw [crash_witnessed]
  split at hrunning
  · cases hrunning
  · rcases crash_cases process w p with ⟨-, -, hpidfile⟩ | ⟨-, -, hpidfile⟩
    · rw [hpidfile] at hfile
      obtain ⟨old, hold, rfl⟩ := Option.map_eq_some_iff.mp hfile
      exact hinv.owner d hrunning hstale old hold
    · exact hinv.owner d hrunning hstale file (hpidfile ▸ hfile)

omit [DecidableEq C] in
theorem crash_truthful (htrue : w.Truthful process) (p : P) : (w.crash process p).Truthful process := by
  intro d
  rw [crash_phase, crash_witnessed]
  split
  · trivial
  · exact htrue d

omit [DecidableEq C] in
/-- The histories that the running calls have seen make the rest of the invariant. -/
theorem inv_witness (hholder : ∀ d, w.holder = some d ↔ (w.phase d).holds = true)
    (hfresh : ∀ file, w.pidfile = some file → file.left = false → file.pid ∈ w.guardOf process)
    (howner : ∀ d, (w.phase d).running = true → w.stale d = false → ∀ file, w.pidfile = some file →
      file.left = true → file.pid ∈ w.witnessed d) : (w.witness process).Inv process := by
  have hseen : ∀ d, (w.phase d).running = true →
      (w.witness process).witnessed d = w.witnessed d ∪ w.guardOf process := fun d hd => if_pos hd
  refine ⟨hholder, hfresh, fun d hd => ?_, fun d hd hstale file hfile => ?_⟩
  · rw [hseen d hd]
    exact Finset.subset_union_right
  · rw [hseen d hd]
    by_cases hleft : file.left = true
    · exact Finset.mem_union_left _ (howner d hd hstale file hfile hleft)
    · exact Finset.mem_union_right _ (hfresh file hfile (by simpa using hleft))

omit [DecidableEq C] in
theorem truthful_witness (htrue : w.Truthful process) : (w.witness process).Truthful process := by
  intro d
  refine (htrue d).mono ?_
  show w.witnessed d ⊆ if (w.phase d).running then w.witnessed d ∪ w.guardOf process else w.witnessed d
  split
  · exact Finset.subset_union_left
  · exact Finset.Subset.refl _

/-- A step that meets the condition keeps the answers true. -/
theorem step_truthful {e : ProbeEvent C P} (hinv : w.Inv process) (htrue : w.Truthful process)
    (hfair : w.AnswersFair process e) (h : w.step process profileDir e = some w') :
    w'.Inv process ∧ w'.Truthful process := by
  obtain ⟨acted, hact, rfl⟩ := Option.map_eq_some_iff.mp h
  rcases act_change hinv htrue hfair hact with ⟨c, φ, hphase, hchange⟩ | ⟨p, rfl⟩
  · refine ⟨inv_witness (hchange.holder hinv hphase) (fun file => hchange.fresh hinv hphase) ?_,
      truthful_witness (hchange.tells htrue hphase)⟩
    exact fun d hrunning hstale file hfile hleft => hchange.owner hinv hphase hrunning hstale hfile hleft
  · refine ⟨inv_witness (crash_holder hinv p) (fun file => crash_fresh hinv p) ?_,
      truthful_witness (crash_truthful htrue p)⟩
    exact fun d hrunning hstale file hfile _ => crash_owner hinv p hrunning hstale hfile

/-- **The answers are true** in every run that meets the condition. -/
theorem answers_truthful {es : List (ProbeEvent C P)}
    (hok : Run.RunMeets (step process profileDir) (AnswersFair process) (start C P) es)
    (hrun : Run.run (step process profileDir) (start C P) es = some w) : w.Truthful process := by
  have hstart : (start C P).Inv process ∧ (start C P).Truthful process := by
    refine ⟨⟨fun c => ⟨fun h => (by cases h), fun h => (by cases h)⟩, ?_, ?_, ?_⟩, fun c => trivial⟩
    · exact fun file h => by cases h
    · exact fun c h => by cases h
    · exact fun c h => by cases h
  have hall := Run.runMeets_invariant (step process profileDir)
    (I := fun w => w.Inv process ∧ w.Truthful process) hstart
    (fun w e w' hi ho hs => step_truthful hi.1 hi.2 ho hs) hok hrun
  exact hall.2

end

end ProbeWorld

/-! ## A holder, and a probe -/

/-- Process 0 has a guard; 1 fails to acquire, and 2 asks for the status. -/
def askHolder : List (ProbeEvent ℕ ℕ) :=
  [.beginAcquire 0, .openLockfile 0 none, .tryLock 0 none, .writePid 0 true, .beginAcquire 1,
    .openLockfile 1 none, .tryLock 1 (some "lock failed because the operation would block"),
    .beginProbe 2 .status, .symlinkMetadata 2 true, .openProbe 2 true, .probeLock 2 false, .readPid 2 true,
    .dropGuard 0, .removePid 0 true, .unlock 0]

/-- A listing finds the lock free, and an acquire comes before the listing has let go. -/
def askProbe : List (ProbeEvent ℕ ℕ) :=
  [.beginAcquire 0, .openLockfile 0 none, .beginProbe 1 .listing, .symlinkMetadata 1 true, .openProbe 1 true,
    .probeLock 1 true, .tryLock 0 (some "lock failed because the operation would block")]

theorem answers_truthful_askHolder : ∃ w,
    Run.run (ProbeWorld.step id "/profiles/work") (ProbeWorld.start ℕ ℕ) askHolder = some w ∧
      w.phase 2 = .returned (.status ⟨true, Profile.lockfile "/profiles/work", some 0⟩ false) ∧
        w.Truthful id := by
  refine ⟨_, rfl, rfl, ?_⟩
  have hok : Run.RunMeets (ProbeWorld.step id "/profiles/work") (ProbeWorld.AnswersFair id)
      (ProbeWorld.start ℕ ℕ) askHolder := by decide
  exact ProbeWorld.answers_truthful hok rfl

/-- **A probe in the way.**  `ProfileLocked`, and nobody ever had a guard. -/
theorem acquire_fails_on_probe : ¬ ∀ (w : ProbeWorld ℕ ℕ) (es : List (ProbeEvent ℕ ℕ)),
    Run.run (ProbeWorld.step id "/profiles/work") (ProbeWorld.start ℕ ℕ) es = some w → w.Truthful id := by
  intro h
  obtain ⟨w, hrun, hseen, e, hphase, hcode⟩ : ∃ w, Run.run (ProbeWorld.step id "/profiles/work")
      (ProbeWorld.start ℕ ℕ) askProbe = some w ∧ w.witnessed 0 = ∅ ∧
        ∃ e, w.phase 0 = .returned (.failed e) ∧ e.errorCode = .profileLocked :=
    ⟨_, rfl, by decide, _, rfl, rfl⟩
  have htells := h w askProbe hrun 0
  rw [hphase, hseen] at htells
  obtain ⟨p, hp, -⟩ := htells hcode
  exact Finset.notMem_empty p hp

end Afhttp.Profile

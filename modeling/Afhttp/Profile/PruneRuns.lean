import Mathlib
import Afhttp.Profile.Prune

/-!
# What prune removes

`prune` reads a profile's age before it takes its lock, and does not read it again: a host that takes
the lock and releases it in between has used a profile that is then removed
(`prune_removes_used`).  So it is with one that takes the lock when prune has dropped its guard, and
a host that crashes leaves the time at which it began.  Otherwise what is removed has been unused for
`older_than` (`prune_removes_old`).
-/

namespace Afhttp.Profile

/-! ## What a call does to the hosts that have the lock -/

namespace LockWorld

variable {P : Type} [DecidableEq P] {profileDir : String} {w w' : LockWorld P} {e : LockEvent P}

/-- How a call can end, for a party that is a host with the lock or is not. -/
inductive HoldChange (w : LockWorld P) (e : LockEvent P) (φ : LockPhase) : Prop where
  | keeps (h : φ.hostHolds = (w.phase e.party).hostHolds)
  | takes (h : w.HostTakes e = true)
  | frees (before : φ.hostHolds = false) (h : e.guards = true ∨ e = .crash e.party)

theorem step_hostHolds (h : w.step profileDir e = some w') :
    ∃ φ, w'.phase = Function.update w.phase e.party φ ∧ w.HoldChange e φ := by
  have stays : ∀ p, w.phase = Function.update w.phase p (w.phase p) :=
    fun p => (Function.update_eq_self p w.phase).symm
  -- a call that does not touch the lock
  have goes : ∀ (v : LockWorld P) (φ : LockPhase), v.phase = w.phase →
      φ.hostHolds = (w.phase e.party).hostHolds → some (v.setPhase e.party φ) = some w' →
      ∃ φ, w'.phase = Function.update w.phase e.party φ ∧ w.HoldChange e φ := by
    rintro v φ hv hφ ⟨⟩
    exact ⟨φ, by rw [← hv]; rfl, .keeps hφ⟩
  cases e with
  | createDir p =>
    cases h
    exact ⟨w.phase p, stays p, .keeps rfl⟩
  | writeEntry p name =>
    cases h
    exact ⟨w.phase p, stays p, .keeps rfl⟩
  | symlinkMetadata p kind =>
    simp only [step] at h
    split at h
    · next r hp =>
      split at h <;> exact goes w _ rfl (by rw [LockEvent.party, hp]; rfl) h
    · cases h
  | openLockfile p caller fault =>
    simp only [step] at h
    split at h
    · next hm =>
      have hf : (w.phase p).hostHolds = false := by
        cases hp : w.phase p <;> first | rfl | (rw [hp] at hm; cases caller <;> cases hm)
      cases fault with
      | some e => exact goes w (.idle _) rfl hf.symm h
      | none =>
        obtain ⟨r, hr, hw'⟩ := Option.map_eq_some_iff.mp h
        exact goes r.1 (.opened caller r.2) (openOrCreate_some hr).1 hf.symm (congrArg some hw')
    · cases h
  | tryLock p fault =>
    simp only [step] at h
    split at h
    · next caller i hp =>
      cases fault with
      | some e => exact goes w _ rfl (by rw [LockEvent.party, hp]; rfl) h
      | none =>
        simp only [] at h
        split at h
        · cases caller with
          | host =>
            cases h
            exact ⟨_, rfl, .takes (by simp only [HostTakes, hp])⟩
          | remover => exact goes (w.setHolder i (some p)) _ rfl (by rw [LockEvent.party, hp]; rfl) h
        · cases h
    · cases h
  | writePid p done =>
    simp only [step] at h
    split at h
    · next caller i hp =>
      have hφ : (LockPhase.acquired caller i).hostHolds = (w.phase p).hostHolds := by
        rw [hp]
        cases caller <;> rfl
      refine goes (if done = true then w.mapEntries (insert pidfileName) else w) _ ?_ hφ h
      split <;> rfl
    · cases h
  | dropGuard p =>
    simp only [step] at h
    split at h
    · next i hp => exact goes w _ rfl (by rw [LockEvent.party, hp]; rfl) h
    · cases h
  | removeEntry p name =>
    simp only [step] at h
    split at h
    · split at h
      · cases h
        exact ⟨w.phase p, stays p, .keeps rfl⟩
      · cases h
    · cases h
  | clearFails p what path fault =>
    simp only [step] at h
    split at h
    · next i hp => exact goes w _ rfl (by rw [LockEvent.party, hp]; rfl) h
    · cases h
  | endOfDir p =>
    simp only [step] at h
    split at h
    · next i hp => exact goes w _ rfl (by rw [LockEvent.party, hp]; rfl) h
    · cases h
  | removePid p =>
    simp only [step] at h
    split at h
    · next i next hp =>
      exact goes (w.mapEntries (·.erase pidfileName)) _ rfl (by rw [LockEvent.party, hp]; rfl) h
    · cases h
  | unlock p =>
    simp only [step] at h
    split at h
    · next i next hp =>
      cases h
      refine ⟨_, rfl, .frees ?_ (Or.inl rfl)⟩
      cases next <;> rfl
    · cases h
  | unlinkLockfile p fault =>
    simp only [step] at h
    split at h
    · next hp =>
      cases fault with
      | some e => exact goes w _ rfl (by rw [LockEvent.party, hp]; rfl) h
      | none => exact goes w.unlink _ rfl (by rw [LockEvent.party, hp]; rfl) h
    · cases h
  | removeDir p fault =>
    simp only [step] at h
    split at h
    · next hp =>
      cases fault with
      | some e => exact goes w _ rfl (by rw [LockEvent.party, hp]; rfl) h
      | none =>
        simp only [] at h
        split at h
        · exact goes w.rmdir _ rfl (by rw [LockEvent.party, hp]; rfl) h
        · cases h
    · cases h
  | crash p =>
    cases h
    refine ⟨.idle (.ok ()), ?_, .frees rfl (Or.inr rfl)⟩
    show Function.update (w.close p).phase p _ = _
    unfold close
    split <;> rfl

/-- A host comes to have the lock by taking it. -/
theorem hostHolds_of_step (h : w.step profileDir e = some w') (hholds : w'.HostHolds) :
    w.HostHolds ∨ w.HostTakes e = true := by
  obtain ⟨φ, hφ, hchange⟩ := step_hostHolds h
  obtain ⟨q, hq⟩ := hholds
  rw [hφ] at hq
  by_cases hqe : q = e.party
  · rw [hqe, Function.update_self] at hq
    cases hchange with
    | keeps hsame => exact Or.inl ⟨e.party, hsame ▸ hq⟩
    | takes htakes => exact Or.inr htakes
    | frees hno =>
      rw [hno] at hq
      cases hq
  · rw [Function.update_of_ne hqe] at hq
    exact Or.inl ⟨q, hq⟩

/-- A host that has the lock keeps it, releases it or crashes. -/
theorem step_of_hostHolds (h : w.step profileDir e = some w') (hholds : w.HostHolds) :
    w'.HostHolds ∨ e.guards = true ∨ (e = .crash e.party ∧ (w.phase e.party).hostHolds = true) := by
  obtain ⟨φ, hφ, hchange⟩ := step_hostHolds h
  obtain ⟨q, hq⟩ := hholds
  by_cases hqe : q = e.party
  · rw [hqe] at hq
    cases hchange with
    | keeps hsame =>
      refine Or.inl ⟨e.party, ?_⟩
      rw [hφ, Function.update_self, hsame, hq]
    | takes htakes =>
      refine Or.inr (Or.inl ?_)
      cases e with
      | tryLock p fault =>
        cases fault with
        | none => rfl
        | some _ => cases htakes
      | _ => cases htakes
    | frees _ hfrees => exact Or.inr (hfrees.imp_right fun hcrash => ⟨hcrash, hq⟩)
  · refine Or.inl ⟨q, ?_⟩
    rw [hφ, Function.update_of_ne hqe]
    exact hq

end LockWorld

/-! ## What prune relies on -/

/-- The age, and the clock to take it by, of a prune that reads it next and means to remove. -/
def PruneStage.due : PruneStage → Option (ℕ × ℕ)
  | timed olderThan false now => some (olderThan, now)
  | _ => none

namespace PruneWorld

variable {P : Type} [DecidableEq P]

/-- The condition: where prune finds the directory too old, no host has the lock, and none has
crashed with it for as long; and no host takes it from then until the removal is over. -/
def LeavesAlone (w : PruneWorld P) : PruneEvent P → Prop
  | .metadata p true => ∀ x ∈ (w.stage p).due, w.tooOld x.1 x.2 = true →
      ¬ w.lock.HostHolds ∧ ∀ s ∈ w.crashed, s + x.1 ≤ x.2
  | .lock e => w.lock.HostTakes e = true → ∀ p, (w.stage p).inRemoval = false
  | _ => True

instance [Fintype P] (w : PruneWorld P) : (e : PruneEvent P) → Decidable (w.LeavesAlone e)
  | .metadata _ true => inferInstanceAs (Decidable (∀ x ∈ _, _ → ¬ _ ∧ ∀ s ∈ _, _))
  | .lock _ => inferInstanceAs (Decidable (_ → ∀ _, _))
  | .elapse _ | .list .. | .readNow _ | .metadata _ false => inferInstanceAs (Decidable True)

/-- What prune removes no host has had the lock of for `older_than`. -/
def RemovesOld (profileDir : String) (w₀ : PruneWorld P) (es : List (PruneEvent P)) : Prop :=
  ∀ xs e ys w olderThan now, es = xs ++ .lock e :: ys → Run.run (step profileDir) w₀ xs = some w →
    w.stage e.party = .removing olderThan now → e.removes = true →
      Run.Always (step profileDir) (fun v => v.lock.HostHolds → v.clock + olderThan ≤ w.clock) w₀ xs

variable {profileDir : String} {w₀ w w' : PruneWorld P} {es : List (PruneEvent P)} {e : PruneEvent P}

/-- What the modification time and the crashes on record say of the states that the run has been
through, and what a prune that removes knows of them. -/
structure Recorded (profileDir : String) (w₀ : PruneWorld P) (es : List (PruneEvent P)) (w : PruneWorld P) :
    Prop where
  clock : Run.Always (step profileDir) (fun v => v.clock ≤ w.clock) w₀ es
  used : w.lock.HostHolds ∨ Run.Always (step profileDir)
    (fun v => v.lock.HostHolds → v.clock ≤ w.modified ∨ ∃ s ∈ w.crashed, v.clock ≤ s) w₀ es
  timed : ∀ p olderThan dryRun now, w.stage p = .timed olderThan dryRun now → now ≤ w.clock
  removing : ∀ p olderThan now, w.stage p = .removing olderThan now → now ≤ w.clock ∧ ¬ w.lock.HostHolds ∧
    Run.Always (step profileDir) (fun v => v.lock.HostHolds → v.clock + olderThan ≤ now) w₀ es

omit [DecidableEq P] in
/-- A call on the lock leaves the stage as it is, or ends it. -/
theorem after_eq (stage : PruneStage) (ev : LockEvent P) (φ : LockPhase) :
    stage.after ev φ = stage ∨ (stage.after ev φ).free = true := by
  unfold PruneStage.after
  split
  · exact Or.inr rfl
  · exact Or.inr rfl
  · exact Or.inl rfl

/-- **What a step does** to the lock and to the times. -/
theorem step_times (h : w.step profileDir e = some w') : w.clock ≤ w'.clock ∧
    ((w'.lock = w.lock ∧ w'.modified = w.modified ∧ w'.crashed = w.crashed) ∨
      ∃ ev, e = .lock ev ∧ w.lock.step profileDir ev = some w'.lock ∧ w'.clock = w.clock ∧
        w'.modified = w.touch ev w'.lock ∧ w'.crashed = w.recordCrash ev) := by
  cases e with
  | elapse n =>
    cases h
    exact ⟨Nat.le_add_right _ _, Or.inl ⟨rfl, rfl, rfl⟩⟩
  | list p olderThan dryRun locked =>
    simp only [step] at h
    split at h
    · split at h
      · cases h
        exact ⟨Nat.le_refl _, Or.inl ⟨rfl, rfl, rfl⟩⟩
      · cases h
    · cases h
  | readNow p =>
    simp only [step] at h
    split at h
    · cases h
      exact ⟨Nat.le_refl _, Or.inl ⟨rfl, rfl, rfl⟩⟩
    · cases h
  | metadata p ok =>
    simp only [step] at h
    repeat' split at h
    all_goals first | cases h; exact ⟨Nat.le_refl _, Or.inl ⟨rfl, rfl, rfl⟩⟩ | cases h
  | lock ev =>
    simp only [step] at h
    split at h
    · obtain ⟨lock, hlock, rfl⟩ := Option.map_eq_some_iff.mp h
      exact ⟨Nat.le_refl _, Or.inr ⟨ev, rfl, hlock, rfl, rfl, rfl⟩⟩
    · cases h

/-- The stage that a step brings a party to. -/
inductive StageChange (w : PruneWorld P) (e : PruneEvent P) (p : P) : PruneStage → Prop where
  | keeps : StageChange w e p (w.stage p)
  | ends (stage : PruneStage) (h : stage.free = true) : StageChange w e p stage
  | lists (olderThan : ℕ) (dryRun : Bool) : StageChange w e p (.listed olderThan dryRun)
  | reads (olderThan : ℕ) (dryRun : Bool) : StageChange w e p (.timed olderThan dryRun w.clock)
  | removes (olderThan now : ℕ) (event : e = .metadata p true) (stage : w.stage p = .timed olderThan false now)
      (old : w.tooOld olderThan now = true) : StageChange w e p (.removing olderThan now)

theorem step_stage (h : w.step profileDir e = some w') (p : P) : StageChange w e p (w'.stage p) := by
  have hset : ∀ q stage, StageChange w e q stage → some (w.setStage q stage) = some w' →
      StageChange w e p (w'.stage p) := by
    rintro q stage hstage ⟨⟩
    show StageChange w e p (Function.update w.stage q stage p)
    by_cases hpq : p = q
    · rw [hpq, Function.update_self]
      exact hstage
    · rw [Function.update_of_ne hpq]
      exact .keeps
  cases e with
  | elapse n =>
    cases h
    exact .keeps
  | list q olderThan dryRun locked =>
    simp only [step] at h
    split at h
    · split at h
      · refine hset q _ ?_ h
        split
        · exact .ends _ rfl
        · exact .lists _ _
      · cases h
    · cases h
  | readNow q =>
    simp only [step] at h
    split at h
    · exact hset q _ (.reads _ _) h
    · cases h
  | metadata q ok =>
    simp only [step] at h
    split at h
    · next olderThan dryRun now hq =>
      cases ok with
      | false => exact hset q _ (.ends _ rfl) h
      | true =>
        simp only [Bool.not_true, Bool.false_eq_true, if_false] at h
        split at h
        · cases h
        · cases hold : w.tooOld olderThan now with
          | false =>
            rw [hold] at h
            exact hset q _ (.ends _ rfl) h
          | true =>
            rw [hold] at h
            cases dryRun with
            | false => exact hset q _ (.removes _ _ rfl hq hold) h
            | true => exact hset q _ (.ends _ rfl) h
    · cases h
  | lock ev =>
    simp only [step] at h
    split at h
    · obtain ⟨lock, -, rfl⟩ := Option.map_eq_some_iff.mp h
      show StageChange w _ p (Function.update w.stage ev.party _ p)
      by_cases hp : p = ev.party
      · rw [hp, Function.update_self]
        rcases after_eq (w.stage ev.party) ev (lock.phase ev.party) with hsame | hfree
        · rw [hsame]
          exact .keeps
        · exact .ends _ hfree
      · rw [Function.update_of_ne hp]
        exact .keeps
    · cases h

/-- Of the hosts that have had the lock, the modification time tells, and so do the crashes. -/
theorem Recorded.step_used {lock : LockWorld P} {ev : LockEvent P} (hrec : Recorded profileDir w₀ es w)
    (hlock : w.lock.step profileDir ev = some lock) :
    lock.HostHolds ∨ Run.Always (step profileDir) (fun v => v.lock.HostHolds →
      v.clock ≤ w.touch ev lock ∨ ∃ s ∈ w.recordCrash ev, v.clock ≤ s) w₀ es := by
  have hreleased : ev.guards = true → Run.Always (step profileDir) (fun v => v.lock.HostHolds →
      v.clock ≤ w.touch ev lock ∨ ∃ s ∈ w.recordCrash ev, v.clock ≤ s) w₀ es := by
    intro hguards
    refine hrec.clock.mono _ fun v hv _ => Or.inl ?_
    rw [touch, if_pos (Or.inl hguards)]
    exact hv
  rcases hrec.used with hholds | hused
  · rcases LockWorld.step_of_hostHolds hlock hholds with hkept | hguards | ⟨hcrash, hq⟩
    · exact Or.inl hkept
    · exact Or.inr (hreleased hguards)
    · refine Or.inr (hrec.clock.mono _ fun v hv _ => Or.inr ⟨w.clock, ?_, hv⟩)
      rw [hcrash, recordCrash, if_pos hq]
      rfl
  · refine Or.inr fun xs ys v hes hv hholds => ?_
    have hclock : v.clock ≤ w.clock := hrec.clock xs ys v hes hv
    rcases hused xs ys v hes hv hholds with hmodified | ⟨s, hs, hle⟩
    · refine Or.inl ?_
      unfold touch
      split
      · exact hclock
      · exact hmodified
    · refine Or.inr ?_
      unfold recordCrash
      split
      · split
        · exact ⟨w.clock, rfl, hclock⟩
        · exact ⟨s, hs, hle⟩
      · exact ⟨s, hs, hle⟩

/-- A step that meets the condition keeps the records. -/
theorem Recorded.step (hrec : Recorded profileDir w₀ es w) (hok : w.LeavesAlone e)
    (h : w.step profileDir e = some w') (hrun : Run.run (PruneWorld.step profileDir) w₀ (es ++ [e]) = some w') :
    Recorded profileDir w₀ (es ++ [e]) w' := by
  obtain ⟨hle, htimes⟩ := step_times h
  have hlast : ∀ {Q : PruneWorld P → Prop}, Q w' →
      ∀ v, Run.run (PruneWorld.step profileDir) w₀ (es ++ [e]) = some v → Q v := by
    intro Q hQ v hv
    rw [hrun] at hv
    cases hv
    exact hQ
  -- no host takes the lock while a prune removes
  have hnone : ∀ p, (w.stage p).inRemoval = true → ¬ w.lock.HostHolds → ¬ w'.lock.HostHolds := by
    intro p hp hno hholds
    rcases htimes with ⟨hsame, -⟩ | ⟨ev, rfl, hlock, -⟩
    · exact hno (hsame ▸ hholds)
    · rcases LockWorld.hostHolds_of_step hlock hholds with hbefore | htakes
      · exact hno hbefore
      · rw [hok htakes p] at hp
        cases hp
  refine ⟨(hrec.clock.mono _ fun v hv => Nat.le_trans hv hle).snoc _ (hlast (Nat.le_refl _)), ?_, ?_, ?_⟩
  · by_cases hholds : w'.lock.HostHolds
    · exact Or.inl hholds
    · have hold : Run.Always (PruneWorld.step profileDir) (fun v => v.lock.HostHolds →
          v.clock ≤ w'.modified ∨ ∃ s ∈ w'.crashed, v.clock ≤ s) w₀ es := by
        rcases htimes with ⟨hlock, hmodified, hcrashed⟩ | ⟨ev, -, hlock, -, hmodified, hcrashed⟩
        · rw [hmodified, hcrashed]
          exact hrec.used.resolve_left (hlock ▸ hholds)
        · rw [hmodified, hcrashed]
          exact (hrec.step_used hlock).resolve_left hholds
      exact Or.inr (hold.snoc _ (hlast fun hw' => absurd hw' hholds))
  · intro p olderThan dryRun now hstage
    have hchange := step_stage h p
    generalize w'.stage p = stage at hchange hstage
    cases hchange with
    | keeps => exact Nat.le_trans (hrec.timed p _ _ now hstage) hle
    | ends _ hfree =>
      rw [hstage] at hfree
      cases hfree
    | lists => cases hstage
    | reads =>
      cases hstage
      exact hle
    | removes => cases hstage
  · intro p olderThan now hstage
    have hchange := step_stage h p
    generalize w'.stage p = stage at hchange hstage
    cases hchange with
    | keeps =>
      obtain ⟨hnow, hno, hold⟩ := hrec.removing p olderThan now hstage
      have hno' : ¬ w'.lock.HostHolds := hnone p (by rw [hstage]; rfl) hno
      exact ⟨Nat.le_trans hnow hle, hno', hold.snoc _ (hlast fun hw' => absurd hw' hno')⟩
    | ends _ hfree =>
      rw [hstage] at hfree
      cases hfree
    | lists => cases hstage
    | reads => cases hstage
    | removes olderThan now he hp htooOld =>
      cases hstage
      subst he
      have hnow : now ≤ w.clock := hrec.timed p _ _ now hp
      obtain ⟨hno, hcrashed⟩ := hok (olderThan, now) (by rw [hp]; rfl) htooOld
      have hlock : w'.lock = w.lock := by
        rcases htimes with ⟨hlock, -⟩ | ⟨ev, hev, -⟩
        · exact hlock
        · cases hev
      have hno' : ¬ w'.lock.HostHolds := hlock ▸ hno
      refine ⟨Nat.le_trans hnow hle, hno', Run.Always.snoc _ ?_ (hlast fun hw' => absurd hw' hno')⟩
      rw [tooOld, Bool.and_eq_true, decide_eq_true_eq, decide_eq_true_eq] at htooOld
      intro xs ys v hes hv hholds
      rcases (hrec.used.resolve_left hno) xs ys v hes hv hholds with hmodified | ⟨s, hs, hle⟩
      · omega
      · have := hcrashed s hs
        omega

/-- **What prune removes is old** in every run that meets the condition. -/
theorem prune_removes_old {dir : Option ProfileDir} {fresh : Inode} {clock modified : ℕ}
    (hok : Run.RunMeets (step profileDir) LeavesAlone (start P dir fresh clock modified) es) :
    RemovesOld profileDir (start P dir fresh clock modified) es := by
  intro xs e ys w olderThan now hes hw hstage _
  rw [hes] at hok
  have hstart : Recorded profileDir (start P dir fresh clock modified) []
      (start P dir fresh clock modified) := by
    have hno : ¬ (start P dir fresh clock modified).lock.HostHolds := by
      rintro ⟨p, hp⟩
      cases hp
    refine ⟨Run.always_nil _ (Nat.le_refl _), Or.inr (Run.always_nil _ fun hholds => absurd hholds hno), ?_, ?_⟩
    · exact fun p _ _ _ h => by cases h
    · exact fun p _ _ h => by cases h
  have hrec : Recorded profileDir (start P dir fresh clock modified) xs w := by
    refine Run.runMeets_history _ hstart ?_ hok.of_append hw
    intro es v e v' hv hrec hleaves hstep
    refine hrec.step hleaves hstep ?_
    rw [Run.run_append, hv, Option.bind_some, Run.run_cons, hstep]
    rfl
  obtain ⟨hnow, -, hold⟩ := hrec.removing e.party olderThan now hstage
  exact hold.mono _ fun v hv hholds => Nat.le_trans (hv hholds) hnow

end PruneWorld

/-! ## A host that has gone, and one that has come and gone -/

/-- The calls of a host, from its acquire to the end of its drop. -/
def hostCalls (p : Bool) : List (PruneEvent Bool) :=
  [.lock (.openLockfile p .host none), .lock (.tryLock p none), .lock (.writePid p true), .lock (.dropGuard p),
    .lock (.removePid p), .lock (.unlock p)]

/-- `prune` up to its reading of the age. -/
def pruneReads (p : Bool) (olderThan : ℕ) : List (PruneEvent Bool) :=
  [.list p olderThan false false, .readNow p, .metadata p true]

/-- `remove_profile_dir`, of a profile with one file. -/
def removeCalls (p : Bool) (name : String) : List (PruneEvent Bool) :=
  [.lock (.symlinkMetadata p (.ok true)), .lock (.openLockfile p .remover none), .lock (.tryLock p none),
    .lock (.writePid p true), .lock (.removeEntry p name), .lock (.removeEntry p pidfileName),
    .lock (.endOfDir p), .lock (.removePid p), .lock (.unlock p), .lock (.unlinkLockfile p none), .lock (.removeDir p none)]

/-- A profile with cookies, that nobody has used for long. -/
def oldProfile : PruneWorld Bool := .start Bool (some ⟨some 0, {"Cookies"}⟩) 1 100 0

theorem prune_removes_old_unused : ∃ w,
    Run.run (PruneWorld.step "/profiles/work") oldProfile
        (hostCalls false ++ .elapse 10 :: pruneReads true 10 ++ removeCalls true "Cookies") = some w ∧
      w.stage true = .done .removed ∧ w.lock.dir = none ∧
        PruneWorld.RemovesOld "/profiles/work" oldProfile
          (hostCalls false ++ .elapse 10 :: pruneReads true 10 ++ removeCalls true "Cookies") := by
  refine ⟨_, rfl, rfl, rfl, ?_⟩
  have hok : Run.RunMeets (PruneWorld.step "/profiles/work") PruneWorld.LeavesAlone oldProfile
      (hostCalls false ++ .elapse 10 :: pruneReads true 10 ++ removeCalls true "Cookies") := by decide
  exact PruneWorld.prune_removes_old hok

/-- **A session that was just in use.**  A host has the lock when prune has read the age, and has
let go when prune takes it. -/
theorem prune_removes_used : ¬ ∀ (w : PruneWorld Bool) (es : List (PruneEvent Bool)),
    Run.run (PruneWorld.step "/profiles/work") oldProfile es = some w →
      PruneWorld.RemovesOld "/profiles/work" oldProfile es := by
  intro h
  have hold := h _ (pruneReads true 10 ++ hostCalls false ++ removeCalls true "Cookies") rfl
  have huse := hold (pruneReads true 10 ++ hostCalls false ++ (removeCalls true "Cookies").take 4)
    (.removeEntry true "Cookies") ((removeCalls true "Cookies").drop 5) _ 10 100 rfl rfl rfl rfl
    (pruneReads true 10 ++ (hostCalls false).take 3)
    ((hostCalls false).drop 3 ++ (removeCalls true "Cookies").take 4) _ rfl rfl ⟨false, rfl⟩
  exact absurd huse (by decide)

end Afhttp.Profile

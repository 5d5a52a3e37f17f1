import Afhttp.Profile.Lock
import Mathlib.Data.Fintype.Defs

/-!
# One live guard for a profile

Any number of parties acquire, drop and remove on one profile directory.  The system keeps
one lock an inode (`LockWorld.held`); there is one lock for the path as long as every open
handle is on the inode the path leads to (`LockWorld.Linked`).  `remove_profile_dir` breaks
this where it unlinks a lockfile that another party has open: two guards may then be live,
and one of them may be clearing the directory (`unlink_splits_lock`).  It is the only such
step (`lock_exclusive`).
-/

namespace Afhttp.Profile

/-- Something that was there in the directory, or the directory itself, is gone. -/
def Removes (d d' : Option ProfileDir) : Prop :=
  (d ≠ none ∧ d' = none) ∨ (d.bind ProfileDir.lock ≠ none ∧ d'.bind ProfileDir.lock = none) ∨
    ∃ x x' name, d = some x ∧ d' = some x' ∧ name ∈ x.entries ∧ name ∉ x'.entries

theorem not_removes_self (d : Option ProfileDir) : ¬ Removes d d := by
  rintro (⟨h, h'⟩ | ⟨h, h'⟩ | ⟨x, x', name, h, h', hn, hn'⟩)
  · exact h h'
  · exact h h'
  · rw [h] at h'
    cases h'
    exact hn' hn

theorem not_removes_none (d' : Option ProfileDir) : ¬ Removes none d' := by
  rintro (⟨h, -⟩ | ⟨h, -⟩ | ⟨x, x', name, h, -⟩)
  · exact h rfl
  · exact h rfl
  · cases h

theorem not_removes_map {f : ProfileDir → ProfileDir} (hl : ∀ x, (f x).lock = none → x.lock = none)
    (he : ∀ x, x.entries ⊆ (f x).entries) (d : Option ProfileDir) : ¬ Removes d (d.map f) := by
  cases d with
  | none => exact not_removes_none _
  | some x =>
    rintro (⟨-, h⟩ | ⟨h, h'⟩ | ⟨y, y', name, h, h', hn, hn'⟩)
    · cases h
    · exact h (hl x h')
    · cases h
      cases h'
      exact hn' (he x hn)

namespace LockWorld

variable {P : Type}

/-! ## What a step can do -/

theorem openOrCreate_some {w : LockWorld P} {r : LockWorld P × Inode} (h : w.openOrCreate = some r) :
    r.1.phase = w.phase ∧ r.1.holder = w.holder ∧ r.1.linked = some r.2 ∧
      (w.linked = some r.2 ∨ w.linked = none) ∧ ¬ Removes w.dir r.1.dir := by
  obtain ⟨d, hd, rfl⟩ := Option.map_eq_some_iff.mp h
  cases hl : d.lock with
  | some i =>
    have hw : w.linked = some i := by
      unfold linked
      rw [hd]
      exact hl
    exact ⟨rfl, rfl, hw, Or.inl hw, not_removes_self _⟩
  | none =>
    refine ⟨rfl, rfl, rfl, Or.inr ?_, ?_⟩
    · unfold linked
      rw [hd]
      exact hl
    · have := not_removes_map (f := fun x => { x with lock := some w.fresh }) (fun x hx => by cases hx)
        (fun x => Finset.Subset.refl _) w.dir
      rwa [hd] at this ⊢

theorem mapEntries_linked (w : LockWorld P) (f : Finset String → Finset String) :
    (w.mapEntries f).linked = w.linked := by
  unfold linked mapEntries
  cases w.dir <;> rfl

theorem not_removes_insert (w : LockWorld P) (name : String) :
    ¬ Removes w.dir (w.mapEntries (insert name)).dir :=
  not_removes_map (f := fun d => { d with entries := insert name d.entries }) (fun _ hx => hx)
    (fun _ => Finset.subset_insert _ _) w.dir

variable [DecidableEq P]

/-- What an event does to the handles and locks; its party is in phase `φ` afterwards. -/
inductive Change (w : LockWorld P) (e : LockEvent P) (w' : LockWorld P) (φ : LockPhase) : Prop where
  /-- No file is opened or closed.  Only a guard's owner removes entries, and the directory
  itself goes only without a lockfile. -/
  | keeps (handle : φ.handle = (w.phase e.party).handle) (flock : φ.flock = (w.phase e.party).flock)
      (holder : w'.holder = w.holder) (linked : w'.linked = w.linked)
      (removes : Removes w.dir w'.dir → (w.phase e.party).guard = true ∨ w.linked = none)
  | opens (i : Inode) (before : (w.phase e.party).flock = none) (handle : φ.handle = some i)
      (flock : φ.flock = none) (holder : w'.holder = w.holder) (linked : w'.linked = some i)
      (was : w.linked = some i ∨ w.linked = none) (removes : ¬ Removes w.dir w'.dir)
  | locks (i : Inode) (before : (w.phase e.party).handle = some i)
      (unlocked : (w.phase e.party).flock = none) (free : w.holder i = none)
      (handle : φ.handle = some i) (flock : φ.flock = some i)
      (holder : w'.holder = Function.update w.holder i (some e.party)) (dir : w'.dir = w.dir)
  | closes (handle : φ.handle = none) (holder : w'.holder = (w.close e.party).holder)
      (dir : w'.dir = w.dir)
  | unlinks (event : e.unlinks = true) (before : (w.phase e.party).handle = none)
      (handle : φ.handle = none) (holder : w'.holder = w.holder)

/-- The call returns, and the party closes its file without having locked it. -/
theorem change_returns {w w' : LockWorld P} {e : LockEvent P} {φ : LockPhase} {r : Except Error Unit}
    (hp : w.phase e.party = φ) (h : w.returns e.party r = some w') (hf : φ.flock = none) :
    w'.phase = Function.update w.phase e.party (.idle r) ∧ Change w e w' (.idle r) := by
  cases h
  refine ⟨rfl, .closes rfl ?_ rfl⟩
  unfold close
  rw [hp, hf]
  rfl

/-- The party goes on with the same file, and the directory is left alone. -/
theorem change_setPhase {w w' : LockWorld P} {e : LockEvent P} {φ₀ φ : LockPhase}
    (hp : w.phase e.party = φ₀) (h : some (w.setPhase e.party φ) = some w')
    (hh : φ.handle = φ₀.handle) (hf : φ.flock = φ₀.flock) :
    w'.phase = Function.update w.phase e.party φ ∧ Change w e w' φ := by
  cases h
  rw [← hp] at hh hf
  exact ⟨rfl, .keeps hh hf rfl rfl fun hr => absurd hr (not_removes_self _)⟩

/-- **What a step can do.** -/
theorem step_cases {profileDir : String} {w w' : LockWorld P} {e : LockEvent P}
    (h : w.step profileDir e = some w') :
    ∃ φ, w'.phase = Function.update w.phase e.party φ ∧ Change w e w' φ := by
  have stays : ∀ p, w.phase = Function.update w.phase p (w.phase p) :=
    fun p => (Function.update_eq_self p w.phase).symm
  cases e with
  | createDir p =>
    cases h
    refine ⟨w.phase p, stays p, .keeps rfl rfl rfl ?_ fun hr => ?_⟩
    · unfold linked
      cases w.dir <;> rfl
    · exfalso
      cases hd : w.dir with
      | none => exact not_removes_none _ (hd ▸ hr)
      | some d =>
        rw [hd] at hr
        exact not_removes_self _ hr
  | writeEntry p name =>
    cases h
    exact ⟨w.phase p, stays p, .keeps rfl rfl rfl (w.mapEntries_linked _)
      fun hr => absurd hr (w.not_removes_insert name)⟩
  | symlinkMetadata p kind =>
    simp only [step] at h
    split at h
    · next r hp =>
      split at h
      · exact ⟨_, change_returns (e := .symlinkMetadata p _) hp h rfl⟩
      · exact ⟨_, change_returns (e := .symlinkMetadata p _) hp h rfl⟩
      · exact ⟨_, change_setPhase (e := .symlinkMetadata p _) hp h rfl rfl⟩
    · cases h
  | openLockfile p caller fault =>
    simp only [step] at h
    split at h
    · next hm =>
      have hf : (w.phase p).flock = none := by
        cases hp : w.phase p <;> first | rfl | (rw [hp] at hm; cases caller <;> cases hm)
      cases fault with
      | some e => exact ⟨_, change_returns (e := .openLockfile p caller (some e)) rfl h hf⟩
      | none =>
        obtain ⟨r, hr, rfl⟩ := Option.map_eq_some_iff.mp h
        obtain ⟨h1, h2, h3, h4, h5⟩ := openOrCreate_some hr
        refine ⟨.opened caller r.2, ?_, .opens r.2 hf rfl rfl h2 h3 h4 h5⟩
        show Function.update r.1.phase p _ = Function.update w.phase p _
        rw [h1]
    · cases h
  | tryLock p fault =>
    simp only [step] at h
    split at h
    · next caller i hp =>
      cases fault with
      | some e => exact ⟨_, change_returns (e := .tryLock p (some e)) hp h rfl⟩
      | none =>
        simp only [] at h
        split at h
        · next hfree =>
          cases h
          have hh : (w.phase p).handle = some i := by rw [hp]; rfl
          have hf : (w.phase p).flock = none := by rw [hp]; rfl
          exact ⟨.locked caller i, rfl, .locks i hh hf hfree rfl rfl rfl rfl⟩
        · cases h
    · cases h
  | writePid p done =>
    simp only [step] at h
    split at h
    · next caller i hp =>
      cases h
      have hdir : (if done = true then w.mapEntries (insert pidfileName) else w).linked = w.linked ∧
          ¬ Removes w.dir (if done = true then w.mapEntries (insert pidfileName) else w).dir := by
        split
        · exact ⟨w.mapEntries_linked _, w.not_removes_insert _⟩
        · exact ⟨rfl, not_removes_self _⟩
      refine ⟨.acquired caller i, ?_, .keeps ?_ ?_ ?_ hdir.1 fun hr => absurd hr hdir.2⟩
      · cases done <;> rfl
      · cases caller <;> (rw [LockEvent.party, hp]; rfl)
      · cases caller <;> (rw [LockEvent.party, hp]; rfl)
      · cases done <;> rfl
    · cases h
  | dropGuard p =>
    simp only [step] at h
    split at h
    · next i hp =>
      exact ⟨_, change_setPhase (e := .dropGuard p) hp h rfl rfl⟩
    · cases h
  | removeEntry p name =>
    simp only [step] at h
    split at h
    · next i hp =>
      split at h
      · cases h
        refine ⟨w.phase p, stays p, .keeps rfl rfl rfl (w.mapEntries_linked _) fun _ => Or.inl ?_⟩
        rw [LockEvent.party, hp]
        rfl
      · cases h
    · cases h
  | clearFails p what path fault =>
    simp only [step] at h
    split at h
    · next i hp =>
      exact ⟨_, change_setPhase (e := .clearFails p what path fault) hp h rfl rfl⟩
    · cases h
  | endOfDir p =>
    simp only [step] at h
    split at h
    · next i hp =>
      exact ⟨_, change_setPhase (e := .endOfDir p) hp h rfl rfl⟩
    · cases h
  | removePid p =>
    simp only [step] at h
    split at h
    · next i next hp =>
      cases h
      refine ⟨.unlocking i next, rfl, .keeps ?_ ?_ rfl (w.mapEntries_linked (·.erase pidfileName))
        fun _ => Or.inl ?_⟩ <;>
        (rw [LockEvent.party, hp]; rfl)
    · cases h
  | unlock p =>
    simp only [step] at h
    split at h
    · next i next hp =>
      cases h
      refine ⟨.afterDrop next, rfl, .closes ?_ ?_ rfl⟩
      · cases next <;> rfl
      · unfold close
        rw [LockEvent.party, hp]
        rfl
    · cases h
  | unlinkLockfile p fault =>
    simp only [step] at h
    split at h
    · next hp =>
      cases fault with
      | some e => exact ⟨_, change_returns (e := .unlinkLockfile p (some e)) hp h rfl⟩
      | none =>
        cases h
        exact ⟨.removingDir, rfl, .unlinks rfl (by rw [LockEvent.party, hp]; rfl) rfl rfl⟩
    · cases h
  | removeDir p fault =>
    simp only [step] at h
    split at h
    · next hp =>
      cases fault with
      | some e => exact ⟨_, change_returns (e := .removeDir p (some e)) hp h rfl⟩
      | none =>
        simp only [] at h
        split at h
        · next hd =>
          cases h
          have hl : w.linked = none := by
            unfold linked
            rw [hd]
            rfl
          refine ⟨.idle (.ok ()), rfl, .keeps ?_ ?_ rfl hl.symm fun _ => Or.inr hl⟩ <;>
            (rw [LockEvent.party, hp]; rfl)
        · cases h
    · cases h
  | crash p =>
    cases h
    have hc : ∀ w : LockWorld P, (w.close p).phase = w.phase ∧ (w.close p).dir = w.dir := by
      intro w
      unfold close
      split <;> exact ⟨rfl, rfl⟩
    refine ⟨.idle (.ok ()), ?_, .closes rfl rfl (hc w).2⟩
    show Function.update (w.close p).phase p _ = _
    rw [(hc w).1]
    rfl

/-! ## One lock an inode, one inode a path -/

/-- The lock table is what the parties have locked. -/
def Held (w : LockWorld P) : Prop := ∀ q i, (w.phase q).flock = some i ↔ w.holder i = some q

/-- Every open handle is on the inode the lockfile's path leads to. -/
def Linked (w : LockWorld P) : Prop := ∀ q i, (w.phase q).handle = some i → w.linked = some i

/-- At most one guard is live. -/
def Exclusive (w : LockWorld P) : Prop :=
  ∀ p q, (w.phase p).guard = true → (w.phase q).guard = true → p = q

theorem flock_none_of_handle {φ : LockPhase} (h : φ.handle = none) : φ.flock = none := by
  cases hf : φ.flock with
  | none => rfl
  | some i =>
    rw [LockPhase.handle_of_flock hf] at h
    cases h

theorem Held.step {profileDir : String} {w w' : LockWorld P} {e : LockEvent P} (hw : w.Held)
    (h : w.step profileDir e = some w') : w'.Held := by
  obtain ⟨φ, hφ, hc⟩ := step_cases h
  -- a step that leaves the table alone and the party's lock as it was
  have same : φ.flock = (w.phase e.party).flock → w'.holder = w.holder → w'.Held := by
    intro hf hh q i
    rw [hφ, hh, ← hw q i, Function.update_apply]
    split
    · next hq => rw [hq, hf]
    · exact Iff.rfl
  cases hc with
  | keeps _ flock holder => exact same flock holder
  | opens i before _ flock holder => exact same (flock.trans before.symm) holder
  | unlinks _ before handle holder =>
    exact same ((flock_none_of_handle handle).trans (flock_none_of_handle before).symm) holder
  | locks i _ unlocked free _ flock holder =>
    intro q j
    rw [hφ, holder]
    by_cases hq : q = e.party
    · subst hq
      rw [Function.update_self, flock]
      by_cases hj : j = i
      · subst hj
        rw [Function.update_self]
        exact ⟨fun _ => rfl, fun _ => rfl⟩
      · rw [Function.update_of_ne hj]
        constructor
        · intro hs
          exact absurd (Option.some.inj hs).symm hj
        · intro hs
          rw [(hw _ _).mpr hs] at unlocked
          cases unlocked
    · rw [Function.update_of_ne hq, hw q j]
      by_cases hj : j = i
      · subst hj
        rw [Function.update_self, free]
        constructor
        · intro hs
          cases hs
        · intro hs
          exact absurd (Option.some.inj hs).symm hq
      · rw [Function.update_of_ne hj]
  | closes handle holder =>
    have hnone := flock_none_of_handle handle
    cases hf : (w.phase e.party).flock with
    | none =>
      refine same (hnone.trans hf.symm) ?_
      rw [holder, close, hf]
    | some i =>
      have hi : w.holder i = some e.party := (hw _ _).mp hf
      have holder : w'.holder = Function.update w.holder i none := by
        rw [holder, close, hf]
        rfl
      intro q j
      rw [hφ, holder]
      by_cases hj : j = i
      · subst hj
        rw [Function.update_self, Function.update_apply]
        split
        · rw [hnone]
          exact ⟨fun hs => (by cases hs), fun hs => (by cases hs)⟩
        · next hq =>
          rw [hw q j, hi]
          constructor
          · intro hs
            exact absurd (Option.some.inj hs).symm hq
          · intro hs
            cases hs
      · rw [Function.update_of_ne hj, ← hw q j, Function.update_apply]
        split
        · next hq =>
          rw [hq, hf, hnone]
          constructor
          · intro hs
            cases hs
          · intro hs
            exact absurd (Option.some.inj hs).symm hj
        · exact Iff.rfl

/-- Where a lockfile is unlinked, no party has one open. -/
def UnlinkUnseen (w : LockWorld P) (e : LockEvent P) : Prop :=
  e.unlinks = true → ∀ q, (w.phase q).handle = none

instance [Fintype P] (w : LockWorld P) (e : LockEvent P) : Decidable (w.UnlinkUnseen e) :=
  inferInstanceAs (Decidable (e.unlinks = true → ∀ q, (w.phase q).handle = none))

theorem Linked.step {profileDir : String} {w w' : LockWorld P} {e : LockEvent P} (hw : w.Linked)
    (hok : w.UnlinkUnseen e) (h : w.step profileDir e = some w') : w'.Linked := by
  obtain ⟨φ, hφ, hc⟩ := step_cases h
  have others : ∀ q i, q ≠ e.party → (w'.phase q).handle = some i → (w.phase q).handle = some i := by
    intro q i hq hs
    rwa [hφ, Function.update_of_ne hq] at hs
  have own : (w'.phase e.party).handle = φ.handle := by rw [hφ, Function.update_self]
  intro q i hs
  by_cases hq : q = e.party
  · subst hq
    rw [own] at hs
    cases hc with
    | keeps handle _ _ linked =>
      rw [linked]
      exact hw _ i (handle ▸ hs)
    | opens j _ handle _ _ linked =>
      rw [linked, ← hs, handle]
    | locks j before _ _ handle _ _ dir =>
      have hl : w'.linked = w.linked := by unfold linked; rw [dir]
      rw [hl, ← hs, handle]
      exact hw _ j before
    | closes handle =>
      rw [handle] at hs
      cases hs
    | unlinks _ _ handle =>
      rw [handle] at hs
      cases hs
  · have hi := hw q i (others q i hq hs)
    cases hc with
    | keeps _ _ _ linked => rw [linked, hi]
    | opens j _ _ _ _ linked was =>
      rcases was with was | was
      · rw [linked, ← was, hi]
      · rw [hi] at was
        cases was
    | locks j _ _ _ _ _ _ dir =>
      have hl : w'.linked = w.linked := by unfold linked; rw [dir]
      rw [hl, hi]
    | closes _ _ dir =>
      have hl : w'.linked = w.linked := by unfold linked; rw [dir]
      rw [hl, hi]
    | unlinks event =>
      have hnone := hok event q
      rw [others q i hq hs] at hnone
      cases hnone

omit [DecidableEq P] in
theorem exclusive {w : LockWorld P} (hh : w.Held) (hl : w.Linked) : w.Exclusive := by
  intro p q hp hq
  obtain ⟨i, hi⟩ := LockPhase.flock_of_guard hp
  obtain ⟨j, hj⟩ := LockPhase.flock_of_guard hq
  have hij : some i = some j :=
    (hl p i (LockPhase.handle_of_flock hi)).symm.trans (hl q j (LockPhase.handle_of_flock hj))
  cases hij
  have hpq : some p = some q := ((hh p i).mp hi).symm.trans ((hh q i).mp hj)
  exact Option.some.inj hpq

/-! ## Runs -/

variable (profileDir : String)

/-- What the step removes, it removes while no other party has a live guard. -/
def RemovesAlone (w : LockWorld P) (e : LockEvent P) : Prop :=
  ∀ w', w.step profileDir e = some w' → Removes w.dir w'.dir →
    ∀ q, q ≠ e.party → (w.phase q).guard = false

/-- At any time of the run at most one guard is live, and no step removes anything while
another party's guard is. -/
structure Safe (w₀ : LockWorld P) (es : List (LockEvent P)) : Prop where
  exclusive : ∀ xs ys w, es = xs ++ ys → Run.run (step profileDir) w₀ xs = some w → w.Exclusive
  alone : Run.RunMeets (step profileDir) (RemovesAlone profileDir) w₀ es

theorem guard_false_of_handle {φ : LockPhase} (h : φ.handle = none) : φ.guard = false := by
  cases hg : φ.guard with
  | false => rfl
  | true =>
    obtain ⟨i, hi⟩ := LockPhase.flock_of_guard hg
    rw [LockPhase.handle_of_flock hi] at h
    cases h

theorem removesAlone {w : LockWorld P} {e : LockEvent P} (hh : w.Held) (hl : w.Linked)
    (hok : w.UnlinkUnseen e) : w.RemovesAlone profileDir e := by
  intro w' h hr q hq
  obtain ⟨φ, hφ, hc⟩ := step_cases h
  cases hc with
  | keeps _ _ _ _ removes =>
    rcases removes hr with hg | hnone
    · by_contra hqg
      exact hq (exclusive hh hl q e.party (by simpa using hqg) hg)
    · refine guard_false_of_handle ?_
      cases hi : (w.phase q).handle with
      | none => rfl
      | some i =>
        rw [hl q i hi] at hnone
        cases hnone
  | opens _ _ _ _ _ _ _ removes => exact absurd hr removes
  | locks _ _ _ _ _ _ _ dir => exact absurd (dir ▸ hr) (not_removes_self _)
  | closes _ _ dir => exact absurd (dir ▸ hr) (not_removes_self _)
  | unlinks event => exact guard_false_of_handle (hok event q)

/-- **One live guard** at a time, and no removal under another's, in every run in which
no party has the lockfile open where it is unlinked. -/
theorem lock_exclusive {dir : Option ProfileDir} {fresh : Inode} {es : List (LockEvent P)}
    (hok : Run.RunMeets (step profileDir) UnlinkUnseen (start P dir fresh) es) :
    Safe profileDir (start P dir fresh) es := by
  have inv : ∀ xs w, Run.RunMeets (step profileDir) UnlinkUnseen (start P dir fresh) xs →
      Run.run (step profileDir) (start P dir fresh) xs = some w → w.Held ∧ w.Linked := by
    intro xs w hxs hw
    refine Run.runMeets_invariant (step profileDir) (I := fun w => w.Held ∧ w.Linked) ?_ ?_ hxs hw
    · exact ⟨fun q i => ⟨fun h => (by cases h), fun h => (by cases h)⟩, fun q i h => (by cases h)⟩
    · intro w e w' hi he h
      exact ⟨hi.1.step h, hi.2.step he h⟩
  constructor
  · rintro xs ys w rfl hw
    obtain ⟨hh, hl⟩ := inv xs w (hok.of_append) hw
    exact exclusive hh hl
  · rintro xs e ys w rfl hw
    obtain ⟨hh, hl⟩ := inv xs w (hok.of_append) hw
    exact removesAlone profileDir hh hl (hok xs e ys w rfl hw)

end LockWorld

/-! ## The unlink that splits the lock -/

open LockWorld

def sampleDir : Option ProfileDir := some ⟨some 0, {"Cookies"}⟩

/-- `Guard::acquire` of the party, from the open to the PID file. -/
def acquireSteps (p : ℕ) (caller : Caller) : List (LockEvent ℕ) :=
  [.openLockfile p caller none, .tryLock p none, .writePid p true]

/-- Party 0 deletes the profile; between its unlock and its unlink the host 1 acquires. -/
def deleteUnderHost : List (LockEvent ℕ) :=
  .symlinkMetadata 0 (.ok true) :: acquireSteps 0 .remover ++
    [.removeEntry 0 "Cookies", .endOfDir 0, .removePid 0, .unlock 0] ++
    acquireSteps 1 .host ++ [.writeEntry 1 "Cookies", .unlinkLockfile 0 none]

/-- Then a second host has a guard too; or a second deletion removes the first host's data. -/
theorem unlink_splits_lock :
    (¬ Safe "p" (start ℕ sampleDir 1) (deleteUnderHost ++ acquireSteps 2 .host)) ∧
    ¬ Run.RunMeets (step "p") (RemovesAlone "p") (start ℕ sampleDir 1)
      (deleteUnderHost ++ .symlinkMetadata 2 (.ok true) :: acquireSteps 2 .remover ++
        [.removeEntry 2 "Cookies"]) := by
  constructor
  · intro h
    have hf : (Run.run (step "p") (start ℕ sampleDir 1) (deleteUnderHost ++ acquireSteps 2 .host)).map
        (fun w => (w.phase 1, w.phase 2)) = some (.hosting 0, .hosting 1) := by decide
    obtain ⟨w, hw, hp⟩ := Option.map_eq_some_iff.mp hf
    simp only [Prod.mk.injEq] at hp
    have h12 := h.exclusive _ [] w (List.append_nil _).symm hw 1 2 (by rw [hp.1]; rfl) (by rw [hp.2]; rfl)
    cases h12
  · intro h
    have hf : (Run.run (step "p") (start ℕ sampleDir 1)
        (deleteUnderHost ++ .symlinkMetadata 2 (.ok true) :: acquireSteps 2 .remover)).bind
        (fun w => (w.step "p" (.removeEntry 2 "Cookies")).map fun w' => (w.phase 1, w.dir, w'.dir)) =
        some (.hosting 0, some ⟨some 1, {"Cookies", pidfileName}⟩, some ⟨some 1, {pidfileName}⟩) := by
      decide
    obtain ⟨w, hw, hf⟩ := Option.bind_eq_some_iff.mp hf
    obtain ⟨w', hw', hf⟩ := Option.map_eq_some_iff.mp hf
    simp only [Prod.mk.injEq] at hf
    obtain ⟨hp, hd, hd'⟩ := hf
    have hr : Removes w.dir w'.dir :=
      Or.inr (Or.inr ⟨_, _, "Cookies", hd, hd', by decide, by decide⟩)
    have halone := h _ _ [] w (by simp) hw w' hw' hr 1 (by decide)
    rw [hp] at halone
    cases halone

/-- A deletion, and a host that acquires after it; the other party is that host. -/
def deleteThenHost : List (LockEvent Bool) :=
  [.symlinkMetadata false (.ok true), .openLockfile false .remover none, .tryLock false none,
   .writePid false true, .removeEntry false "Cookies", .removeEntry false pidfileName, .endOfDir false,
   .removePid false, .unlock false, .unlinkLockfile false none, .removeDir false none,
   .createDir true, .openLockfile true .host none, .tryLock true none, .writePid true true]

theorem lock_exclusive_deleteThenHost : Safe "p" (start Bool sampleDir 1) deleteThenHost :=
  lock_exclusive "p" (by decide)

end Afhttp.Profile

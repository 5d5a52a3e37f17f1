import Mathlib.Data.Set.Function
import Mathlib.Logic.Function.Basic
import Afhttp.Lib.Run

/-!
# Files replaced through a temporary name

A disk gives names to files, and a file is a number with contents: an open file stays the same
one when its name is taken away or given to another.  Tasks replace the file at a target each:
they create the file at `tmp target`, write it piece by piece and rename it over the target.
Any task may stop at any point.

`Store` is what this is for: a target holds a value, and a value is put there in one step.

    a run of the disk is a run of the store, if no target is a temporary name
    and no two tasks replace one target at a time                            (refines)
    so a name holds what it held first, or all of what a task put there      (read_whole)
    tasks with targets of their own never replace one target at a time       (runMeets_of_own)
-/

namespace AtomicFile

variable {κ β ι : Type*} [DecidableEq κ] [DecidableEq ι]

/-! ## The disk -/

structure Disk (κ β : Type*) where
  names : κ → Option ℕ
  contents : ℕ → List β
  /-- No file has this number or a greater one. -/
  next : ℕ

namespace Disk

def read (d : Disk κ β) (p : κ) : Option (List β) := (d.names p).map d.contents

/-- Opened to be written, and emptied; a name that is not there gets a new file. -/
def create (d : Disk κ β) (p : κ) : Disk κ β × ℕ :=
  match d.names p with
  | some ino => ({ d with contents := Function.update d.contents ino [] }, ino)
  | none => (⟨Function.update d.names p (some d.next), Function.update d.contents d.next [], d.next + 1⟩, d.next)

/-- A piece written at an offset; what lies before it is filled up. -/
def splice [Inhabited β] (c : List β) (off : ℕ) (piece : List β) : List β :=
  c.take off ++ List.replicate (off - c.length) default ++ piece ++ c.drop (off + piece.length)

def write [Inhabited β] (d : Disk κ β) (ino off : ℕ) (piece : List β) : Disk κ β :=
  { d with contents := Function.update d.contents ino (splice (d.contents ino) off piece) }

def rename (d : Disk κ β) (src dst : κ) : Disk κ β :=
  if src = dst then d else { d with names := Function.update (Function.update d.names dst (d.names src)) src none }

/-- No file has two names, and each has a number that was given. -/
structure Sound (d : Disk κ β) : Prop where
  one : ∀ p q a, d.names p = some a → d.names q = some a → p = q
  given : ∀ p a, d.names p = some a → a < d.next

end Disk

/-! ## The tasks -/

structure Job (κ β : Type*) where
  target : κ
  bytes : List β

/-- A task at work: the open file, and how much of the job's bytes it has taken. -/
structure Writing (κ β : Type*) where
  job : Job κ β
  ino : ℕ
  off : ℕ

structure Sys (ι κ β : Type*) where
  disk : Disk κ β
  task : ι → Option (Writing κ β)

inductive Event (ι κ β : Type*) where
  | create (i : ι) (job : Job κ β)
  /-- One call takes `n` more of the bytes. -/
  | write (i : ι) (n : ℕ)
  | rename (i : ι)
  /-- An error, or the end of the process. -/
  | stop (i : ι)

variable (tmp : κ → κ)

def step [Inhabited β] (s : Sys ι κ β) : Event ι κ β → Option (Sys ι κ β)
  | .create i job =>
    match s.task i with
    | some _ => none
    | none =>
      let (d, ino) := s.disk.create (tmp job.target)
      some ⟨d, Function.update s.task i (some ⟨job, ino, 0⟩)⟩
  | .write i n =>
    match s.task i with
    | none => none
    | some w =>
      if w.off + n ≤ w.job.bytes.length then
        some ⟨s.disk.write w.ino w.off ((w.job.bytes.drop w.off).take n),
          Function.update s.task i (some { w with off := w.off + n })⟩
      else none
  | .rename i =>
    match s.task i with
    | none => none
    | some w =>
      if w.off = w.job.bytes.length ∧ (s.disk.names (tmp w.job.target)).isSome then
        some ⟨s.disk.rename (tmp w.job.target) w.job.target, Function.update s.task i none⟩
      else none
  | .stop i =>
    match s.task i with
    | none => none
    | some _ => some { s with task := Function.update s.task i none }

/-! ## The store -/

structure Store (ι κ β : Type*) where
  value : κ → Option (List β)
  job : ι → Option (Job κ β)

/-- Only `rename` touches a value, and it puts a whole one. -/
def Store.step (s : Store ι κ β) : Event ι κ β → Option (Store ι κ β)
  | .create i job => if s.job i = none then some { s with job := Function.update s.job i (some job) } else none
  | .write i _ => if s.job i = none then none else some s
  | .rename i =>
    match s.job i with
    | none => none
    | some job => some ⟨Function.update s.value job.target (some job.bytes), Function.update s.job i none⟩
  | .stop i => if s.job i = none then none else some { s with job := Function.update s.job i none }

/-! ## The disk's operations -/

namespace Disk

variable {d : Disk κ β}

omit [DecidableEq κ] in
theorem read_congr {d' : Disk κ β} {p : κ} (hn : d'.names p = d.names p)
    (hc : ∀ a, d.names p = some a → d'.contents a = d.contents a) : d'.read p = d.read p := by
  unfold read
  rw [hn]
  cases hp : d.names p with
  | none => rfl
  | some a => rw [Option.map_some, Option.map_some, hc a hp]

theorem create_names (d : Disk κ β) (p : κ) : (d.create p).1.names p = some (d.create p).2 := by
  unfold create
  cases hp : d.names p with
  | some ino => exact hp
  | none => exact Function.update_self ..

theorem create_names_ne (d : Disk κ β) {p q : κ} (h : q ≠ p) : (d.create p).1.names q = d.names q := by
  unfold create
  cases hp : d.names p with
  | some ino => rfl
  | none => exact Function.update_of_ne h ..

theorem create_contents (d : Disk κ β) (p : κ) : (d.create p).1.contents (d.create p).2 = [] := by
  unfold create
  cases hp : d.names p <;> exact Function.update_self ..

theorem create_contents_ne (d : Disk κ β) (p : κ) {a : ℕ} (h : a ≠ (d.create p).2) :
    (d.create p).1.contents a = d.contents a := by
  unfold create at h ⊢
  cases hp : d.names p with
  | some ino =>
    rw [hp] at h
    exact Function.update_of_ne h ..
  | none =>
    rw [hp] at h
    exact Function.update_of_ne h ..

/-- The file of `p` is no other name's. -/
theorem Sound.create_apart (hd : d.Sound) {p q : κ} (h : q ≠ p) : d.names q ≠ some (d.create p).2 := by
  intro hq
  unfold create at hq
  cases hp : d.names p with
  | some ino =>
    rw [hp] at hq
    exact h (hd.one q p ino hq hp)
  | none =>
    rw [hp] at hq
    exact (hd.given q d.next hq).false

theorem create_next (d : Disk κ β) (p : κ) : d.next ≤ (d.create p).1.next := by
  unfold create
  cases d.names p with
  | some ino => exact le_rfl
  | none => exact Nat.le_succ _

theorem Sound.create_given (hd : d.Sound) (p : κ) : (d.create p).2 < (d.create p).1.next := by
  unfold Disk.create
  cases hp : d.names p with
  | some ino => exact hd.given p ino hp
  | none => exact Nat.lt_succ_self _

theorem Sound.create (hd : d.Sound) (p : κ) : (d.create p).1.Sound := by
  constructor
  · intro q r a hq hr
    by_cases hqp : q = p
    · by_cases hrp : r = p
      · rw [hqp, hrp]
      · subst hqp
        rw [create_names, Option.some_inj] at hq
        rw [create_names_ne d hrp, ← hq] at hr
        exact absurd hr (hd.create_apart hrp)
    · rw [create_names_ne d hqp] at hq
      by_cases hrp : r = p
      · subst hrp
        rw [create_names, Option.some_inj] at hr
        rw [← hr] at hq
        exact absurd hq (hd.create_apart hqp)
      · rw [create_names_ne d hrp] at hr
        exact hd.one q r a hq hr
  · intro q a hq
    by_cases hqp : q = p
    · subst hqp
      rw [create_names, Option.some_inj] at hq
      rw [← hq]
      exact hd.create_given q
    · rw [create_names_ne d hqp] at hq
      exact (hd.given q a hq).trans_le (create_next d p)

theorem rename_names_dst (d : Disk κ β) {src dst : κ} (h : src ≠ dst) :
    (d.rename src dst).names dst = d.names src := by
  unfold rename
  rw [if_neg h]
  show Function.update (Function.update d.names dst (d.names src)) src none dst = _
  rw [Function.update_of_ne h.symm, Function.update_self]

theorem rename_names_src (d : Disk κ β) {src dst : κ} (h : src ≠ dst) :
    (d.rename src dst).names src = none := by
  unfold rename
  rw [if_neg h]
  exact Function.update_self ..

theorem rename_names_ne (d : Disk κ β) {src dst p : κ} (hs : p ≠ src) (hd : p ≠ dst) :
    (d.rename src dst).names p = d.names p := by
  unfold rename
  split
  · rfl
  · show Function.update (Function.update d.names dst (d.names src)) src none p = _
    rw [Function.update_of_ne hs, Function.update_of_ne hd]

theorem rename_contents (d : Disk κ β) (src dst : κ) : (d.rename src dst).contents = d.contents := by
  unfold rename
  split <;> rfl

theorem rename_next (d : Disk κ β) (src dst : κ) : (d.rename src dst).next = d.next := by
  unfold rename
  split <;> rfl

theorem Sound.rename (hd : d.Sound) {src dst : κ} (h : src ≠ dst) : (d.rename src dst).Sound := by
  -- a name of the new disk was another one, or itself, and one that is there still is one
  have hback : ∀ p a, (d.rename src dst).names p = some a →
      p ≠ src ∧ d.names (if p = dst then src else p) = some a := by
    intro p a hp
    have hps : p ≠ src := by
      rintro rfl
      rw [rename_names_src d h] at hp
      exact absurd hp (by simp)
    refine ⟨hps, ?_⟩
    by_cases hpd : p = dst
    · subst hpd
      rw [if_pos rfl, ← rename_names_dst d h]
      exact hp
    · rw [if_neg hpd, ← rename_names_ne d hps hpd]
      exact hp
  constructor
  · intro p q a hp hq
    obtain ⟨hps, hp⟩ := hback p a hp
    obtain ⟨hqs, hq⟩ := hback q a hq
    have hone := hd.one _ _ a hp hq
    split at hone
    · next hpd =>
      split at hone
      · next hqd => rw [hpd, hqd]
      · exact absurd hone.symm hqs
    · split at hone
      · exact absurd hone hps
      · exact hone
  · intro p a hp
    rw [rename_next]
    exact hd.given _ a (hback p a hp).2

/-- The next piece at the end of the part that is there. -/
theorem splice_take [Inhabited β] {bytes : List β} {off : ℕ} (n : ℕ) (h : off ≤ bytes.length) :
    splice (bytes.take off) off ((bytes.drop off).take n) = bytes.take (off + n) := by
  have hlen : (bytes.take off).length = off := List.length_take_of_le h
  have hdrop : (bytes.take off).drop (off + ((bytes.drop off).take n).length) = [] :=
    List.drop_of_length_le (by omega)
  unfold splice
  rw [hdrop, hlen, Nat.sub_self, List.replicate_zero, List.append_nil, List.append_nil, List.take_take,
    Nat.min_self, List.take_add]

end Disk

/-! ## The invariant -/

variable (T : Set κ)

/-- A task starts on one of the targets, and on none that another task is at work on. -/
def Apart (s : Sys ι κ β) : Event ι κ β → Prop
  | .create _ job => job.target ∈ T ∧ ∀ j w, s.task j = some w → w.job.target ≠ job.target
  | _ => True

/-- The open files of the tasks: each is at the temporary name, and has the bytes taken so far. -/
structure Ready (s : Sys ι κ β) : Prop where
  sound : s.disk.Sound
  mem : ∀ i w, s.task i = some w → w.job.target ∈ T
  named : ∀ i w, s.task i = some w → s.disk.names (tmp w.job.target) = some w.ino
  bound : ∀ i w, s.task i = some w → w.off ≤ w.job.bytes.length
  taken : ∀ i w, s.task i = some w → s.disk.contents w.ino = w.job.bytes.take w.off
  apart : ∀ i j w v, s.task i = some w → s.task j = some v → w.job.target = v.job.target → i = j

/-- The disk read at the names that are not temporary, and the jobs under way. -/
structure Sim (s : Sys ι κ β) (a : Store ι κ β) : Prop where
  value : ∀ p, (∀ t ∈ T, tmp t ≠ p) → s.disk.read p = a.value p
  job : ∀ i, a.job i = (s.task i).map Writing.job

/-- No target is a temporary name, and each target has one of its own. -/
structure Names : Prop where
  fresh : ∀ t ∈ T, ∀ t' ∈ T, tmp t ≠ t'
  inj : Set.InjOn tmp T

section Steps

variable {tmp T} {s s' : Sys ι κ β} {a : Store ι κ β}

omit [DecidableEq ι] [DecidableEq κ] in
/-- Two tasks have two open files. -/
theorem Ready.ino_ne (hr : Ready tmp T s) (hT : Names tmp T) {i j : ι} {w v : Writing κ β}
    (hi : s.task i = some w) (hj : s.task j = some v) (h : i ≠ j) : w.ino ≠ v.ino := by
  intro hino
  have hw : s.disk.names (tmp w.job.target) = some v.ino := hino ▸ hr.named i w hi
  have htmp := hr.sound.one _ _ _ hw (hr.named j v hj)
  exact h (hr.apart i j w v hi hj (hT.inj (hr.mem i w hi) (hr.mem j v hj) htmp))

omit [DecidableEq κ] in
/-- When a task is gone the others are as before. -/
theorem Ready.clear (hr : Ready tmp T s) (i : ι) {d : Disk κ β} (hd : d.Sound)
    (hn : ∀ j v, j ≠ i → s.task j = some v → d.names (tmp v.job.target) = some v.ino)
    (hc : ∀ j v, j ≠ i → s.task j = some v → d.contents v.ino = s.disk.contents v.ino) :
    Ready tmp T ⟨d, Function.update s.task i none⟩ := by
  have hback : ∀ j v, Function.update s.task i none j = some v → j ≠ i ∧ s.task j = some v := by
    intro j v hj
    by_cases hji : j = i
    · subst hji
      rw [Function.update_self] at hj
      exact absurd hj (by simp)
    · rw [Function.update_of_ne hji] at hj
      exact ⟨hji, hj⟩
  constructor
  · exact hd
  · intro j v hj
    exact hr.mem j v (hback j v hj).2
  · intro j v hj
    obtain ⟨hji, hj⟩ := hback j v hj
    exact hn j v hji hj
  · intro j v hj
    exact hr.bound j v (hback j v hj).2
  · intro j v hj
    obtain ⟨hji, hj⟩ := hback j v hj
    rw [← hr.taken j v hj]
    exact hc j v hji hj
  · intro j k v u hj hk
    exact hr.apart j k v u (hback j v hj).2 (hback k u hk).2

omit [DecidableEq κ] in
/-- A task that is new, or further on, beside the others. -/
theorem Ready.set (hr : Ready tmp T s) (i : ι) {d : Disk κ β} {w : Writing κ β} (hd : d.Sound)
    (hw : w.job.target ∈ T ∧ d.names (tmp w.job.target) = some w.ino ∧ w.off ≤ w.job.bytes.length ∧
      d.contents w.ino = w.job.bytes.take w.off)
    (hother : ∀ j v, j ≠ i → s.task j = some v → v.job.target ≠ w.job.target ∧
      d.names (tmp v.job.target) = some v.ino ∧ d.contents v.ino = s.disk.contents v.ino) :
    Ready tmp T ⟨d, Function.update s.task i (some w)⟩ := by
  have hback : ∀ j v, Function.update s.task i (some w) j = some v →
      j = i ∧ v = w ∨ j ≠ i ∧ s.task j = some v := by
    intro j v hj
    by_cases hji : j = i
    · subst hji
      rw [Function.update_self, Option.some_inj] at hj
      exact .inl ⟨rfl, hj.symm⟩
    · rw [Function.update_of_ne hji] at hj
      exact .inr ⟨hji, hj⟩
  constructor
  · exact hd
  · intro j v hj
    rcases hback j v hj with ⟨-, rfl⟩ | ⟨-, hj⟩
    · exact hw.1
    · exact hr.mem j v hj
  · intro j v hj
    rcases hback j v hj with ⟨-, rfl⟩ | ⟨hji, hj⟩
    · exact hw.2.1
    · exact (hother j v hji hj).2.1
  · intro j v hj
    rcases hback j v hj with ⟨-, rfl⟩ | ⟨-, hj⟩
    · exact hw.2.2.1
    · exact hr.bound j v hj
  · intro j v hj
    rcases hback j v hj with ⟨-, rfl⟩ | ⟨hji, hj⟩
    · exact hw.2.2.2
    · rw [← hr.taken j v hj]
      exact (hother j v hji hj).2.2
  · intro j k v u hj hk htarget
    rcases hback j v hj with ⟨rfl, rfl⟩ | ⟨hji, hjs⟩
    · rcases hback k u hk with ⟨rfl, -⟩ | ⟨hki, hks⟩
      · rfl
      · exact absurd htarget.symm (hother k u hki hks).1
    · rcases hback k u hk with ⟨rfl, rfl⟩ | ⟨-, hks⟩
      · exact absurd htarget (hother j v hji hjs).1
      · exact hr.apart j k v u hjs hks htarget

/-! ## One step -/

theorem ready_create (hT : Names tmp T) (hr : Ready tmp T s) {i : ι} {job : Job κ β}
    (hok : Apart T s (.create i job)) :
    Ready tmp T ⟨(s.disk.create (tmp job.target)).1,
      Function.update s.task i (some ⟨job, (s.disk.create (tmp job.target)).2, 0⟩)⟩ := by
  apply hr.set i (hr.sound.create _)
  · exact ⟨hok.1, s.disk.create_names _, Nat.zero_le _, s.disk.create_contents _⟩
  · intro j v _ hj
    have hne : v.job.target ≠ job.target := hok.2 j v hj
    have htmp : tmp v.job.target ≠ tmp job.target := fun h => hne (hT.inj (hr.mem j v hj) hok.1 h)
    refine ⟨hne, ?_, s.disk.create_contents_ne _ ?_⟩
    · rw [s.disk.create_names_ne htmp]
      exact hr.named j v hj
    · rintro hino
      exact hr.sound.create_apart htmp (by rw [hr.named j v hj, hino])

theorem sim_create (hr : Ready tmp T s) (hs : Sim tmp T s a) {i : ι} {job : Job κ β}
    (hok : Apart T s (.create i job)) :
    Sim tmp T ⟨(s.disk.create (tmp job.target)).1,
      Function.update s.task i (some ⟨job, (s.disk.create (tmp job.target)).2, 0⟩)⟩
      { a with job := Function.update a.job i (some job) } := by
  constructor
  · intro p hp
    have hne : p ≠ tmp job.target := (hp _ hok.1).symm
    rw [← hs.value p hp]
    apply Disk.read_congr (s.disk.create_names_ne hne)
    intro b hb
    apply s.disk.create_contents_ne
    rintro rfl
    exact hr.sound.create_apart hne hb
  · intro j
    dsimp only
    by_cases hji : j = i
    · subst hji
      rw [Function.update_self, Function.update_self]
      rfl
    · rw [Function.update_of_ne hji, Function.update_of_ne hji]
      exact hs.job j

omit [DecidableEq κ] in
theorem ready_write [Inhabited β] (hT : Names tmp T) (hr : Ready tmp T s) {i : ι} {w : Writing κ β}
    (hi : s.task i = some w) {n : ℕ} (hn : w.off + n ≤ w.job.bytes.length) :
    Ready tmp T ⟨s.disk.write w.ino w.off ((w.job.bytes.drop w.off).take n),
      Function.update s.task i (some { w with off := w.off + n })⟩ := by
  apply hr.set i
  · exact ⟨hr.sound.one, hr.sound.given⟩
  · refine ⟨hr.mem i w hi, hr.named i w hi, hn, ?_⟩
    show Function.update s.disk.contents w.ino _ w.ino = _
    rw [Function.update_self, hr.taken i w hi]
    exact Disk.splice_take n (hr.bound i w hi)
  · intro j v hji hj
    refine ⟨fun h => hji (hr.apart j i v w hj hi h), hr.named j v hj, ?_⟩
    exact Function.update_of_ne (hr.ino_ne hT hj hi hji) ..

omit [DecidableEq κ] in
theorem sim_write [Inhabited β] (hr : Ready tmp T s) (hs : Sim tmp T s a) {i : ι} {w : Writing κ β}
    (hi : s.task i = some w) (n : ℕ) :
    Sim tmp T ⟨s.disk.write w.ino w.off ((w.job.bytes.drop w.off).take n),
      Function.update s.task i (some { w with off := w.off + n })⟩ a := by
  constructor
  · intro p hp
    rw [← hs.value p hp]
    show (s.disk.write w.ino w.off _).read p = s.disk.read p
    apply Disk.read_congr
    · rfl
    intro b hb
    apply Function.update_of_ne
    rintro rfl
    exact hp _ (hr.mem i w hi) (hr.sound.one _ _ _ (hr.named i w hi) hb)
  · intro j
    dsimp only
    by_cases hji : j = i
    · subst hji
      rw [Function.update_self, hs.job, hi]
      rfl
    · rw [Function.update_of_ne hji]
      exact hs.job j

theorem ready_rename (hT : Names tmp T) (hr : Ready tmp T s) {i : ι} {w : Writing κ β} (hi : s.task i = some w) :
    Ready tmp T ⟨s.disk.rename (tmp w.job.target) w.job.target, Function.update s.task i none⟩ := by
  have hw := hr.mem i w hi
  apply hr.clear i (hr.sound.rename (hT.fresh _ hw _ hw))
  · intro j v hji hj
    have hne : v.job.target ≠ w.job.target := fun h => hji (hr.apart j i v w hj hi h)
    rw [s.disk.rename_names_ne (fun h => hne (hT.inj (hr.mem j v hj) hw h)) (hT.fresh _ (hr.mem j v hj) _ hw)]
    exact hr.named j v hj
  · intro j v _ _
    show (s.disk.rename _ _).contents v.ino = _
    rw [Disk.rename_contents]

omit [DecidableEq ι] in
/-- What is put at the target is all of the job's bytes. -/
theorem read_rename (hT : Names tmp T) (hr : Ready tmp T s) {i : ι} {w : Writing κ β} (hi : s.task i = some w)
    (hend : w.off = w.job.bytes.length) :
    (s.disk.rename (tmp w.job.target) w.job.target).read w.job.target = some w.job.bytes := by
  have hw := hr.mem i w hi
  unfold Disk.read
  rw [Disk.rename_names_dst _ (hT.fresh _ hw _ hw), Disk.rename_contents, hr.named i w hi, Option.map_some,
    hr.taken i w hi, hend, List.take_length]

theorem sim_rename (hT : Names tmp T) (hr : Ready tmp T s) (hs : Sim tmp T s a) {i : ι} {w : Writing κ β}
    (hi : s.task i = some w) (hend : w.off = w.job.bytes.length) :
    Sim tmp T ⟨s.disk.rename (tmp w.job.target) w.job.target, Function.update s.task i none⟩
      ⟨Function.update a.value w.job.target (some w.job.bytes), Function.update a.job i none⟩ := by
  constructor
  · intro p hp
    dsimp only
    by_cases hpt : p = w.job.target
    · subst hpt
      rw [Function.update_self]
      exact read_rename hT hr hi hend
    · rw [Function.update_of_ne hpt, ← hs.value p hp]
      apply Disk.read_congr (s.disk.rename_names_ne (hp _ (hr.mem i w hi)).symm hpt)
      intro b _
      rw [Disk.rename_contents]
  · intro j
    dsimp only
    by_cases hji : j = i
    · subst hji
      rw [Function.update_self, Function.update_self]
      rfl
    · rw [Function.update_of_ne hji, Function.update_of_ne hji]
      exact hs.job j

omit [DecidableEq κ] in
theorem sim_stop (hs : Sim tmp T s a) (i : ι) :
    Sim tmp T { s with task := Function.update s.task i none } { a with job := Function.update a.job i none } := by
  constructor
  · exact hs.value
  · intro j
    dsimp only
    by_cases hji : j = i
    · subst hji
      rw [Function.update_self, Function.update_self]
      rfl
    · rw [Function.update_of_ne hji, Function.update_of_ne hji]
      exact hs.job j

/-- **One step of the disk is one step of the store.** -/
theorem step_refines [Inhabited β] (hT : Names tmp T) {e : Event ι κ β} (hr : Ready tmp T s)
    (hs : Sim tmp T s a) (hok : Apart T s e) (h : step tmp s e = some s') :
    ∃ a', a.step e = some a' ∧ Ready tmp T s' ∧ Sim tmp T s' a' := by
  cases e with
  | create i job =>
    unfold step at h
    cases hi : s.task i with
    | some w => simp [hi] at h
    | none =>
      simp only [hi, Option.some.injEq] at h
      subst h
      have ha : a.job i = none := by rw [hs.job, hi]; rfl
      refine ⟨{ a with job := Function.update a.job i (some job) }, ?_, ready_create hT hr hok,
        sim_create hr hs hok⟩
      unfold Store.step
      exact if_pos ha
  | write i n =>
    unfold step at h
    cases hi : s.task i with
    | none => simp [hi] at h
    | some w =>
      simp only [hi] at h
      obtain ⟨hn, h⟩ := Option.ite_none_right_eq_some.mp h
      cases h
      have ha : a.job i ≠ none := by rw [hs.job, hi]; exact Option.some_ne_none _
      refine ⟨a, ?_, ready_write hT hr hi hn, sim_write hr hs hi n⟩
      unfold Store.step
      exact if_neg ha
  | rename i =>
    unfold step at h
    cases hi : s.task i with
    | none => simp [hi] at h
    | some w =>
      simp only [hi] at h
      obtain ⟨⟨hend, -⟩, h⟩ := Option.ite_none_right_eq_some.mp h
      cases h
      have ha : a.job i = some w.job := by rw [hs.job, hi]; rfl
      refine ⟨_, ?_, ready_rename hT hr hi, sim_rename hT hr hs hi hend⟩
      show (match a.job i with | none => none | some job => some (Store.mk _ _)) = _
      rw [ha]
  | stop i =>
    unfold step at h
    cases hi : s.task i with
    | none => simp [hi] at h
    | some w =>
      simp only [hi, Option.some.injEq] at h
      subst h
      have ha : a.job i ≠ none := by rw [hs.job, hi]; exact Option.some_ne_none _
      refine ⟨{ a with job := Function.update a.job i none }, ?_, ?_, sim_stop hs i⟩
      · unfold Store.step
        exact if_neg ha
      · exact hr.clear i hr.sound (fun j v _ hj => hr.named j v hj) fun _ _ _ _ => rfl

end Steps

/-! ## Runs -/

/-- The disk before any task is at work. -/
def Sys.idle (d : Disk κ β) : Sys ι κ β := ⟨d, fun _ => none⟩

def Store.idle (d : Disk κ β) : Store ι κ β := ⟨d.read, fun _ => none⟩

omit [DecidableEq κ] [DecidableEq ι] in
theorem ready_idle {d : Disk κ β} (hd : d.Sound) : Ready (ι := ι) tmp T (.idle d) := by
  constructor
  · exact hd
  all_goals intros; contradiction

variable [Inhabited β] {tmp T}

/-- **The disk refines the store.**  Whatever the tasks do, and wherever they stop, the names that
are not temporary hold what a store holds after the same events. -/
theorem refines (hT : Names tmp T) {d : Disk κ β} (hd : d.Sound) {es : List (Event ι κ β)} {s : Sys ι κ β}
    (hok : Run.RunMeets (step tmp) (Apart T) (.idle d) es) (h : Run.run (step tmp) (.idle d) es = some s) :
    ∃ a, Run.run Store.step (.idle d) es = some a ∧ Ready tmp T s ∧ Sim tmp T s a := by
  refine Run.runMeets_history (step tmp)
    (P := fun es s => ∃ a, Run.run Store.step (.idle d) es = some a ∧ Ready tmp T s ∧ Sim tmp T s a)
    ?_ ?_ hok h
  · exact ⟨.idle d, rfl, ready_idle tmp T hd, ⟨fun _ _ => rfl, fun _ => rfl⟩⟩
  · rintro es s e s' - ⟨a, ha, hr, hs⟩ he hstep
    obtain ⟨a', ha', hr', hs'⟩ := step_refines hT hr hs he hstep
    refine ⟨a', ?_, hr', hs'⟩
    rw [Run.run_append, ha, Option.bind_some, Run.run_cons, ha', Option.bind_some, Run.run_nil]

omit [Inhabited β] in
theorem Store.step_job {a a' : Store ι κ β} {e : Event ι κ β} (h : a.step e = some a') {i : ι} {job : Job κ β}
    (hi : a'.job i = some job) : a.job i = some job ∨ e = .create i job := by
  have hnone : ∀ k, Function.update a.job k none i = some job → a.job i = some job := by
    intro k hk
    by_cases hik : i = k
    · subst hik
      rw [Function.update_self] at hk
      exact absurd hk (by simp)
    · rwa [Function.update_of_ne hik] at hk
  cases e with
  | create k job' =>
    obtain ⟨-, he⟩ := Option.ite_none_right_eq_some.mp h
    cases he
    dsimp only at hi
    by_cases hik : i = k
    · subst hik
      rw [Function.update_self, Option.some_inj] at hi
      exact .inr (by rw [hi])
    · rw [Function.update_of_ne hik] at hi
      exact .inl hi
  | write k n =>
    obtain ⟨-, he⟩ := Option.ite_none_left_eq_some.mp h
    cases he
    exact .inl hi
  | rename k =>
    unfold Store.step at h
    cases hk : a.job k with
    | none => simp [hk] at h
    | some job' =>
      simp only [hk, Option.some.injEq] at h
      subst h
      exact .inl (hnone k hi)
  | stop k =>
    obtain ⟨-, he⟩ := Option.ite_none_left_eq_some.mp h
    cases he
    exact .inl (hnone k hi)

omit [Inhabited β] in
theorem Store.step_value {a a' : Store ι κ β} {e : Event ι κ β} (h : a.step e = some a') (p : κ) :
    a'.value p = a.value p ∨
      ∃ i job, a.job i = some job ∧ e = .rename i ∧ job.target = p ∧ a'.value p = some job.bytes := by
  cases e with
  | create k job' =>
    obtain ⟨-, he⟩ := Option.ite_none_right_eq_some.mp h
    cases he
    exact .inl rfl
  | write k n =>
    obtain ⟨-, he⟩ := Option.ite_none_left_eq_some.mp h
    cases he
    exact .inl rfl
  | rename k =>
    unfold Store.step at h
    cases hk : a.job k with
    | none => simp [hk] at h
    | some job =>
      simp only [hk, Option.some.injEq] at h
      subst h
      by_cases hp : p = job.target
      · subst hp
        exact .inr ⟨k, job, hk, rfl, rfl, Function.update_self ..⟩
      · exact .inl (Function.update_of_ne hp ..)
  | stop k =>
    obtain ⟨-, he⟩ := Option.ite_none_left_eq_some.mp h
    cases he
    exact .inl rfl

omit [Inhabited β] in
/-- A value of the store is the first one, or all of what a task was to put there. -/
theorem Store.run_value {a₀ a : Store ι κ β} (h₀ : ∀ i, a₀.job i = none) {es : List (Event ι κ β)}
    (h : Run.run Store.step a₀ es = some a) (p : κ) :
    a.value p = a₀.value p ∨
      ∃ i job, Event.create i job ∈ es ∧ job.target = p ∧ a.value p = some job.bytes := by
  have hall : (∀ i job, a.job i = some job → Event.create i job ∈ es) ∧
      (a.value p = a₀.value p ∨
        ∃ i job, Event.create i job ∈ es ∧ job.target = p ∧ a.value p = some job.bytes) := by
    refine Run.run_history Store.step
      (P := fun es a => (∀ i job, a.job i = some job → Event.create i job ∈ es) ∧
        (a.value p = a₀.value p ∨
          ∃ i job, Event.create i job ∈ es ∧ job.target = p ∧ a.value p = some job.bytes)) ?_ ?_ h
    · refine ⟨fun i job hi => ?_, .inl rfl⟩
      rw [h₀ i] at hi
      exact absurd hi (by simp)
    · rintro es a e a' - ⟨hjob, hval⟩ he
      constructor
      · intro i job hi
        rcases Store.step_job he hi with hi | rfl
        · exact List.mem_append_left _ (hjob i job hi)
        · exact List.mem_append_right _ (List.mem_singleton.mpr rfl)
      · rcases Store.step_value he p with hp | ⟨i, job, hi, -, htarget, hv⟩
        · rw [hp]
          rcases hval with hval | ⟨i, job, hmem, htarget, hv⟩
          · exact .inl hval
          · exact .inr ⟨i, job, List.mem_append_left _ hmem, htarget, hv⟩
        · exact .inr ⟨i, job, List.mem_append_left _ (hjob i job hi), htarget, hv⟩
  exact hall.2

/-- **Whole or as before.**  A name that is not temporary holds what it held before the tasks, or all the
bytes of a job for it that was started. -/
theorem read_whole (hT : Names tmp T) {d : Disk κ β} (hd : d.Sound) {es : List (Event ι κ β)} {s : Sys ι κ β}
    (hok : Run.RunMeets (step tmp) (Apart T) (.idle d) es) (h : Run.run (step tmp) (.idle d) es = some s)
    {p : κ} (hp : ∀ t ∈ T, tmp t ≠ p) :
    s.disk.read p = d.read p ∨
      ∃ i job, Event.create i job ∈ es ∧ job.target = p ∧ s.disk.read p = some job.bytes := by
  obtain ⟨a, ha, -, hs⟩ := refines hT hd hok h
  rw [hs.value p hp]
  exact Store.run_value (fun _ => rfl) ha p

/-- Two tasks on one target share the temporary file: the second empties it under the first. -/
example : (Run.run (step fun _ : Bool => true) (.idle ⟨fun _ => none, fun _ => [], 0⟩ : Sys ℕ Bool ℕ)
    [.create 0 ⟨false, [1, 2]⟩, .write 0 1, .create 1 ⟨false, [3, 4]⟩, .write 0 1, .rename 0]).map
      (fun s => s.disk.read false) = some (some [0, 2]) := by
  decide

/-! ## Tasks with targets of their own -/

/-- A task at work has the job it was started with. -/
theorem job_started {d : Disk κ β} {es : List (Event ι κ β)} {s : Sys ι κ β}
    (h : Run.run (step tmp) (.idle d) es = some s) {i : ι} {w : Writing κ β} (hi : s.task i = some w) :
    Event.create i w.job ∈ es := by
  revert i w
  refine Run.run_history (step tmp)
    (P := fun es s => ∀ {i w}, s.task i = some w → Event.create i w.job ∈ es) ?_ ?_ h
  · intro i w hi
    exact absurd hi (by simp [Sys.idle])
  · intro es s e s' _ ih hstep i w hi
    -- the tasks other than the one that moves are as before
    have hnone : ∀ k, Function.update s.task k none i = some w → Event.create i w.job ∈ es ++ [e] := by
      intro k hk
      by_cases hik : i = k
      · subst hik
        rw [Function.update_self] at hk
        exact absurd hk (by simp)
      · rw [Function.update_of_ne hik] at hk
        exact List.mem_append_left _ (ih hk)
    cases e with
    | create k job =>
      unfold step at hstep
      cases hk : s.task k with
      | some v => simp [hk] at hstep
      | none =>
        simp only [hk, Option.some.injEq] at hstep
        subst hstep
        dsimp only at hi
        by_cases hik : i = k
        · subst hik
          rw [Function.update_self, Option.some_inj] at hi
          subst hi
          exact List.mem_append_right _ (List.mem_singleton.mpr rfl)
        · rw [Function.update_of_ne hik] at hi
          exact List.mem_append_left _ (ih hi)
    | write k n =>
      unfold step at hstep
      cases hk : s.task k with
      | none => simp [hk] at hstep
      | some v =>
        simp only [hk] at hstep
        obtain ⟨-, hstep⟩ := Option.ite_none_right_eq_some.mp hstep
        cases hstep
        dsimp only at hi
        by_cases hik : i = k
        · subst hik
          rw [Function.update_self, Option.some_inj] at hi
          subst hi
          exact List.mem_append_left _ (ih (w := v) hk)
        · rw [Function.update_of_ne hik] at hi
          exact List.mem_append_left _ (ih hi)
    | rename k =>
      unfold step at hstep
      cases hk : s.task k with
      | none => simp [hk] at hstep
      | some v =>
        simp only [hk] at hstep
        obtain ⟨-, hstep⟩ := Option.ite_none_right_eq_some.mp hstep
        cases hstep
        exact hnone k hi
    | stop k =>
      unfold step at hstep
      cases hk : s.task k with
      | none => simp [hk] at hstep
      | some v =>
        simp only [hk, Option.some.injEq] at hstep
        subst hstep
        exact hnone k hi

/-- **Tasks that share no target** never replace one at a time. -/
theorem runMeets_of_own {O : ι → Set κ} (hO : ∀ i j t, t ∈ O i → t ∈ O j → i = j) (hT : ∀ i, O i ⊆ T)
    {d : Disk κ β} {es : List (Event ι κ β)} {s : Sys ι κ β} (h : Run.run (step tmp) (.idle d) es = some s)
    (hes : ∀ i job, Event.create i job ∈ es → job.target ∈ O i) :
    Run.RunMeets (step tmp) (Apart T) (.idle d) es := by
  rintro xs e ys u rfl hu
  cases e with
  | create i job =>
    have hi : job.target ∈ O i := hes i job (by simp)
    refine ⟨hT i hi, fun j w hj htarget => ?_⟩
    have hw : w.job.target ∈ O j := hes j w.job (List.mem_append_left _ (job_started hu hj))
    have hji : j = i := hO j i _ hw (htarget ▸ hi)
    -- a task that is at work does not start
    rw [Run.run_append, hu, Option.bind_some, Run.run_cons] at h
    obtain ⟨v, hv, -⟩ := Option.bind_eq_some_iff.mp h
    subst hji
    simp [step, hj] at hv
  | write i n => trivial
  | rename i => trivial
  | stop i => trivial

end AtomicFile

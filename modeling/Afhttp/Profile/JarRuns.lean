import Afhttp.Lib.Run
import Afhttp.Profile.CookieJar
import Mathlib.Logic.Function.Basic

/-!
# Many sessions on one jar

Any number of sessions share one jar path.  Each loads the jar, merges, and persists;
`load` and the locked part of `persist` are atomic, and the clock never goes back.
A session keeps the histories `loaded` of the entries it loaded and `accepted` of those
its merges stored, and the world the history `log` of the persists; no function of the
source reads them.

`Shared` is what the jar is for: at most one cookie of each identity, changed by
transactions.  A run of the source's operations is a serial run of transactions, one
for each persist, each with that session's changes only:

    entriesOf id w.file.list = w.log.foldl (replay id) (entriesOf id file.list)     (file_replay)
    w.shared = w.log.foldl Shared.commit (sharedOf file)                            (jar_serializable)
-/

namespace Afhttp.Profile

open Overlay

/-- What one persist did: when, and the entries its session had merged, oldest first. -/
structure Commit where
  now : Int
  changes : List JarEntry
  deriving DecidableEq, Repr

structure Session where
  jar : CookieJar
  loaded : List JarEntry
  accepted : List JarEntry
  deriving DecidableEq

structure World (S : Type) where
  path : JarPath
  file : JarFile
  now : Int
  sessions : S → Option Session
  log : List Commit

/-- No session, no persist yet. -/
def World.start (S : Type) (path : JarPath) (file : JarFile) (now : Int) : World S :=
  ⟨path, file, now, fun _ => none, []⟩

inductive JarEvent (S : Type) where
  | tick (d : ℕ)
  | load (s : S)
  | merge (s : S) (c : Cookie) (u : Url)
  | mergeResponse (s : S) (c : Cookie) (u : Url)
  | persist (s : S) (io : CookieJar.PersistCall → Option String)

section
variable (suffixStr : String → Option String) {S : Type} [DecidableEq S]

namespace World

def setSession (w : World S) (s : S) (x : Option Session) : World S :=
  { w with sessions := Function.update w.sessions s x }

@[simp] theorem setSession_self (w : World S) (s : S) (x : Option Session) :
    (w.setSession s x).sessions s = x := Function.update_self ..

theorem setSession_of_ne (w : World S) {s s' : S} (x : Option Session) (h : s' ≠ s) :
    (w.setSession s x).sessions s' = w.sessions s' := Function.update_of_ne h ..

/-- The session's jar after a merge, and its history. -/
def afterMerge (w : World S) (s : S) (session : Session) (entry : JarEntry) (r : CookieJar × Bool) :
    World S :=
  w.setSession s (some
    ⟨r.1, session.loaded, if r.2 then session.accepted ++ [entry] else session.accepted⟩)

def step (w : World S) : JarEvent S → Option (World S)
  | .tick d => some { w with now := w.now + d }
  | .load s =>
    match w.sessions s with
    | some _ => none
    | none =>
      match CookieJar.load w.path w.file with
      | .ok jar => some (w.setSession s (some ⟨jar, jar.entries, []⟩))
      | .error _ => some w
  | .merge s c u =>
    (w.sessions s).map fun session =>
      w.afterMerge s session (.fromSetCookie w.now c u) (session.jar.merge suffixStr w.now c u)
  | .mergeResponse s c u =>
    (w.sessions s).map fun session =>
      w.afterMerge s session (.fromSetCookie w.now c u) (session.jar.mergeResponse suffixStr w.now c u)
  | .persist s io =>
    (w.sessions s).map fun session =>
      match session.jar.persist w.now io w.file with
      -- `persist` consumes the jar, also when it fails
      | .error _ => w.setSession s none
      | .ok file =>
        { w.setSession s none with file := file, log := w.log ++ [⟨w.now, session.accepted⟩] }

end World

/-! ## What a step does -/

/-- The jar after a merge that is not refused, of the entry it stores. -/
structure Session.Merged (x x' : Session) (entry : JarEntry) : Prop where
  tracked : x'.jar.tracked = x.jar.tracked.write JarEntry.identity entry
  loaded : x'.loaded = x.loaded
  accepted : x'.accepted = x.accepted ++ [entry]

/-- **What one step does to the file.**  Only a persist that succeeds changes it, and it
logs itself. -/
theorem World.step_file {w w' : World S} {e : JarEvent S} (h : w.step suffixStr e = some w') :
    (w'.file = w.file ∧ w'.log = w.log) ∨
    (∃ s io x, e = .persist s io ∧ w.sessions s = some x ∧
      w'.file = .entries (CookieJar.pruneExpired w.now
        (overlay JarEntry.identity w.file.list x.jar.changed)) ∧
      w'.log = w.log ++ [⟨w.now, x.accepted⟩]) := by
  cases e with
  | tick d =>
    cases h
    exact Or.inl ⟨rfl, rfl⟩
  | load s =>
    left
    simp only [step] at h
    split at h
    · cases h
    · split at h <;> cases h <;> exact ⟨rfl, rfl⟩
  | merge s c u =>
    obtain ⟨x, -, rfl⟩ := Option.map_eq_some_iff.mp h
    exact Or.inl ⟨rfl, rfl⟩
  | mergeResponse s c u =>
    obtain ⟨x, -, rfl⟩ := Option.map_eq_some_iff.mp h
    exact Or.inl ⟨rfl, rfl⟩
  | persist s io =>
    obtain ⟨x, hs, rfl⟩ := Option.map_eq_some_iff.mp h
    cases hp : x.jar.persist w.now io w.file with
    | error err => exact Or.inl ⟨rfl, rfl⟩
    | ok file => exact Or.inr ⟨s, io, x, rfl, hs, CookieJar.persist_ok hp, rfl⟩

theorem World.afterMerge_session {w : World S} {s s' : S} {x x' : Session} {entry : JarEntry}
    {r : CookieJar × Bool} (hs : w.sessions s = some x)
    (hr : r = (x.jar, false) ∨
      r.2 = true ∧ r.1.tracked = x.jar.tracked.write JarEntry.identity entry)
    (hx : (w.afterMerge s x entry r).sessions s' = some x') :
    w.sessions s' = some x' ∨ (s' = s ∧ r.2 = true ∧ x.Merged x' entry) := by
  unfold afterMerge at hx
  by_cases h : s' = s
  · subst h
    rw [setSession_self] at hx
    rcases hr with rfl | ⟨h2, ht⟩
    · left
      rw [hs, ← hx]
      rfl
    · rw [h2, if_pos rfl] at hx
      cases hx
      exact Or.inr ⟨rfl, h2, ht, rfl, rfl⟩
  · rw [setSession_of_ne w _ h] at hx
    exact Or.inl hx

/-- **What one step does to a session.**  It is untouched, or has just loaded the file, or
has merged one entry that the response may set; a plaintext response merged no `Secure`
entry, and none of the identity of a `Secure` entry of the jar. -/
theorem World.step_session {w w' : World S} {e : JarEvent S} (h : w.step suffixStr e = some w')
    {s : S} {x' : Session} (hx : w'.sessions s = some x') :
    w.sessions s = some x' ∨
    (e = .load s ∧ x' = ⟨⟨w.path, w.file.list, ∅⟩, w.file.list, []⟩) ∨
    (∃ x c u host, w.sessions s = some x ∧ x.Merged x' (.fromSetCookie w.now c u) ∧
      u.hostStr = some host ∧ CookieJar.maySetDomain suffixStr c.domain host = true ∧
      ((e = .merge s c u ∧ (x.jar.merge suffixStr w.now c u).2 = true) ∨
        (e = .mergeResponse s c u ∧ (x.jar.mergeResponse suffixStr w.now c u).2 = true ∧
          (u.scheme ≠ "https" → c.secure ≠ some true ∧ ∀ existing ∈ x.jar.entries,
            existing.secure = true →
              existing.identity ≠ (JarEntry.fromSetCookie w.now c u).identity)))) := by
  cases e with
  | tick d =>
    cases h
    exact Or.inl hx
  | load s' =>
    simp only [step] at h
    split at h
    · cases h
    · split at h
      · next jar hl =>
        cases h
        by_cases hs : s = s'
        · subst hs
          rw [setSession_self] at hx
          cases hx
          rw [CookieJar.load_ok hl]
          exact Or.inr (Or.inl ⟨rfl, rfl⟩)
        · rw [setSession_of_ne w _ hs] at hx
          exact Or.inl hx
      · cases h
        exact Or.inl hx
  | merge s' c u =>
    obtain ⟨x, hs, rfl⟩ := Option.map_eq_some_iff.mp h
    rcases CookieJar.merge_cases suffixStr w.now x.jar c u with hr | ⟨host, hh, hm, h2, -, ht⟩
    · rcases afterMerge_session hs (Or.inl hr) hx with hx | ⟨-, h2, -⟩
      · exact Or.inl hx
      · rw [hr] at h2
        cases h2
    · rcases afterMerge_session hs (Or.inr ⟨h2, ht⟩) hx with hx | ⟨rfl, -, hmg⟩
      · exact Or.inl hx
      · exact Or.inr (Or.inr ⟨x, c, u, host, hs, hmg, hh, hm, Or.inl ⟨rfl, h2⟩⟩)
  | mergeResponse s' c u =>
    obtain ⟨x, hs, rfl⟩ := Option.map_eq_some_iff.mp h
    have hrefused : x.jar.mergeResponse suffixStr w.now c u = (x.jar, false) →
        w.sessions s = some x' := by
      intro hr
      rcases afterMerge_session hs (Or.inl hr) hx with hx | ⟨-, h2, -⟩
      · exact hx
      · rw [hr] at h2
        cases h2
    rcases CookieJar.mergeResponse_cases suffixStr w.now x.jar c u with hr | ⟨hr, hplain⟩
    · exact Or.inl (hrefused hr)
    · rcases CookieJar.merge_cases suffixStr w.now x.jar c u with hr' | ⟨host, hh, hm, h2, -, ht⟩
      · exact Or.inl (hrefused (hr.trans hr'))
      · rcases afterMerge_session hs (Or.inr ⟨hr ▸ h2, hr ▸ ht⟩) hx with hx | ⟨rfl, -, hmg⟩
        · exact Or.inl hx
        · exact Or.inr (Or.inr ⟨x, c, u, host, hs, hmg, hh, hm, Or.inr ⟨rfl, hr ▸ h2, hplain⟩⟩)
  | persist s' io =>
    obtain ⟨x, hs, rfl⟩ := Option.map_eq_some_iff.mp h
    have hgone : (w.setSession s' none).sessions s = some x' → w.sessions s = some x' := by
      intro hx
      by_cases h : s = s'
      · rw [h, setSession_self] at hx
        cases hx
      · rwa [setSession_of_ne w _ h] at hx
    cases hp : x.jar.persist w.now io w.file with
    | error err =>
      rw [hp] at hx
      exact Or.inl (hgone hx)
    | ok file =>
      rw [hp] at hx
      exact Or.inl (hgone hx)

/-- A session's jar is what it loaded, with the entries of its history written into it. -/
def Session.Wf (x : Session) : Prop :=
  x.jar.tracked = writes JarEntry.identity (Tracked.take x.loaded) x.accepted

theorem Session.Merged.wf {x x' : Session} {entry : JarEntry} (hm : x.Merged x' entry) (h : x.Wf) :
    x'.Wf := by
  unfold Session.Wf at h ⊢
  rw [hm.tracked, hm.loaded, hm.accepted, writes_snoc, h]

/-- In every reachable world each session's jar is its snapshot with its own writes. -/
theorem World.sessions_wf {path : JarPath} {file : JarFile} {now : Int} {es : List (JarEvent S)}
    {w : World S} (h : Run.run (step suffixStr) (start S path file now) es = some w) :
    ∀ s x, w.sessions s = some x → x.Wf := by
  refine Run.run_invariant (step suffixStr) (I := fun w : World S => ∀ s x, w.sessions s = some x → x.Wf)
    ?_ ?_ h
  · intro s x hx
    cases hx
  · intro w e w' hw he s x' hx
    rcases step_session suffixStr he hx with hx | ⟨-, rfl⟩ | ⟨x, c, u, host, hs, hm, -⟩
    · exact hw s x' hx
    · rfl
    · exact hm.wf (hw s x hs)

/-- The session's changed entries of an identity end in its last accepted one. -/
theorem Session.Wf.lastOf_changed {session : Session} (h : session.Wf)
    (id : String × String × String) :
    lastOf JarEntry.identity id session.jar.changed = lastOf JarEntry.identity id session.accepted := by
  rw [CookieJar.changed, h, lastOf_changed_writes]

/-! ## The serial order -/

/-- What one persist does to the entries of one identity: its session's last change of
the identity, if any, takes the first place, and the expired ones go. -/
def replay (id : String × String × String) (entries : List JarEntry) (c : Commit) : List JarEntry :=
  CookieJar.pruneExpired c.now (replaceHead (lastOf JarEntry.identity id c.changes) entries)

theorem entriesOf_persist {session : Session} (h : session.Wf) (now : Int) (l : List JarEntry)
    (id : String × String × String) :
    entriesOf JarEntry.identity id
        (CookieJar.pruneExpired now (overlay JarEntry.identity l session.jar.changed)) =
      replay id (entriesOf JarEntry.identity id l) ⟨now, session.accepted⟩ := by
  unfold replay CookieJar.pruneExpired
  rw [entriesOf_filter, entriesOf_overlay, h.lastOf_changed]

/-- **The file is the fold of the persists**, in their order, identity by identity. -/
theorem World.file_replay {path : JarPath} {file : JarFile} {now : Int} {es : List (JarEvent S)}
    {w : World S} (h : Run.run (step suffixStr) (start S path file now) es = some w)
    (id : String × String × String) :
    entriesOf JarEntry.identity id w.file.list =
      w.log.foldl (replay id) (entriesOf JarEntry.identity id file.list) := by
  refine Run.run_history (step suffixStr) (P := fun _ w =>
    entriesOf JarEntry.identity id w.file.list =
      w.log.foldl (replay id) (entriesOf JarEntry.identity id file.list)) rfl ?_ h
  intro es w e w' hr ih he
  rcases step_file suffixStr he with ⟨hf, hl⟩ | ⟨s, io, x, -, hs, hf, hl⟩
  · rw [hf, hl, ih]
  · rw [hf, hl, List.foldl_append, List.foldl_cons, List.foldl_nil, ← ih]
    exact entriesOf_persist (sessions_wf suffixStr hr s x hs) w.now w.file.list id

/-! ## The shared store -/

/-- At most one cookie of each identity. -/
abbrev Shared := String × String × String → Option JarEntry

/-- One transaction: the last change of each identity wins, and the expired cookies go. -/
def Shared.commit (m : Shared) (c : Commit) : Shared := fun id =>
  ((lastOf JarEntry.identity id c.changes).or (m id)).filter fun e => !e.isExpired c.now

/-- What the file holds of each identity. -/
def sharedOf (file : JarFile) : Shared := fun id => lookup JarEntry.identity id file.list

theorem head?_replay (id : String × String × String) (entries : List JarEntry) (c : Commit)
    (h : entries.length ≤ 1) :
    (replay id entries c).head? =
      ((lastOf JarEntry.identity id c.changes).or entries.head?).filter fun e => !e.isExpired c.now := by
  unfold replay CookieJar.pruneExpired
  have hsingle : ∀ e : JarEntry, ([e].filter fun e => !e.isExpired c.now).head? =
      (some e).filter fun e => !e.isExpired c.now := by
    intro e
    by_cases he : e.isExpired c.now <;> simp [he, Option.filter]
  cases entries with
  | nil =>
    cases lastOf JarEntry.identity id c.changes with
    | none => rfl
    | some x => exact hsingle x
  | cons e rest =>
    have hrest : rest = [] := by
      rw [List.length_cons] at h
      exact List.length_eq_zero_iff.mp (by omega)
    subst hrest
    cases lastOf JarEntry.identity id c.changes with
    | none => exact hsingle e
    | some x => exact hsingle x

theorem replay_length (id : String × String × String) (entries : List JarEntry) (c : Commit)
    (h : entries.length ≤ 1) : (replay id entries c).length ≤ 1 := by
  unfold replay CookieJar.pruneExpired
  refine (List.length_filter_le _ _).trans ?_
  cases lastOf JarEntry.identity id c.changes with
  | none => exact h
  | some x => simp; omega

theorem foldl_replay (id : String × String × String) (log : List Commit) :
    ∀ (entries : List JarEntry) (m : Shared), entries.length ≤ 1 → entries.head? = m id →
      (log.foldl (replay id) entries).length ≤ 1 ∧
      (log.foldl (replay id) entries).head? = log.foldl Shared.commit m id := by
  induction log with
  | nil => exact fun entries m h hm => ⟨h, hm⟩
  | cons c log ih =>
    intro entries m h hm
    rw [List.foldl_cons, List.foldl_cons]
    refine ih _ _ (replay_length id entries c h) ?_
    rw [head?_replay id entries c h, hm]
    rfl

/-- **Serializability of the jar.**  After any interleaving of loads, merges and persists:
the file is the fold, in the order of the persists, of each session's own changes; with
no two entries of one identity at the start it never has two, and is then the serial run
of the transactions on the shared store; and a persist leaves the identities its session
did not change as it finds them, but for the expired entries. -/
theorem jar_serializable {path : JarPath} {file : JarFile} {now : Int} {es : List (JarEvent S)}
    {w : World S} (h : Run.run (World.step suffixStr) (World.start S path file now) es = some w) :
    (∀ id, entriesOf JarEntry.identity id w.file.list =
      w.log.foldl (replay id) (entriesOf JarEntry.identity id file.list)) ∧
    (UniqueKeys JarEntry.identity file.list → UniqueKeys JarEntry.identity w.file.list ∧
      sharedOf w.file = w.log.foldl Shared.commit (sharedOf file)) ∧
    (∀ s session io w', w.sessions s = some session → w.step suffixStr (.persist s io) = some w' →
      w'.file = w.file ∨ ∀ id, (∀ e ∈ session.accepted, e.identity ≠ id) →
        entriesOf JarEntry.identity id w'.file.list =
          CookieJar.pruneExpired w.now (entriesOf JarEntry.identity id w.file.list)) := by
  have hfold := World.file_replay suffixStr h
  refine ⟨hfold, fun hu => ?_, fun s session io w' hs hp => ?_⟩
  · rw [uniqueKeys_iff] at hu
    have key := fun id => foldl_replay id w.log _ (sharedOf file) (hu id) rfl
    refine ⟨(uniqueKeys_iff _ _).mpr fun id => ?_, funext fun id => ?_⟩
    · rw [hfold id]
      exact (key id).1
    · unfold sharedOf lookup
      rw [hfold id]
      exact (key id).2
  · rcases World.step_file suffixStr hp with ⟨hf, -⟩ | ⟨s', io', session', he, hs', hf, -⟩
    · exact Or.inl hf
    · right
      intro id hid
      cases he
      rw [hs] at hs'
      cases hs'
      rw [hf]
      show entriesOf _ _ (CookieJar.pruneExpired w.now _) = _
      rw [entriesOf_persist (World.sessions_wf suffixStr h s session hs), replay,
        (lastOf_eq_none _).mpr hid, replaceHead_none]

end

/-- Two sessions load the empty jar; one stores `sid`, the other only `other`. -/
def twoSessions : List (JarEvent Bool) :=
  [.load true, .load false,
   .merge true (.build "sid" "new") (sampleUrl "https" "example.com" "/"), .persist true noFault,
   .merge false (.build "other" "1") (sampleUrl "https" "example.com" "/"), .persist false noFault]

theorem jar_serializable_twoSessions : ∃ w,
    Run.run (World.step fun _ => none) (World.start Bool samplePath .notFound 0) twoSessions = some w ∧
    w.file.list.map (·.name) = ["sid", "other"] ∧
    sharedOf w.file = w.log.foldl Shared.commit (sharedOf .notFound) := by
  have hf : (Run.run (World.step fun _ => none) (World.start Bool samplePath .notFound 0)
      twoSessions).map (fun w => w.file.list.map (·.name)) = some ["sid", "other"] := by decide
  obtain ⟨w, hw, hnames⟩ := Option.map_eq_some_iff.mp hf
  exact ⟨w, hw, hnames, ((jar_serializable (fun _ => none) hw).2.1 (by decide)).2⟩

end Afhttp.Profile

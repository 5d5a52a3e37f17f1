import Afhttp.Fetch.CookieJarResolve
import Afhttp.Lib.Run

/-!
# The profile that a fetch's paths are in

A client bound to a profile, any number of its fetches, and the host: `profile_info` and
`cdp_connection` of `sdk/client.rs`, the stages of `execute` and `browser_path` that use
them, and `configure_download_capture`.  The `/cdp` connection names the client's profile and
the host switches to it; `GET /profile` does not, and its answer is kept.

The jar and the download directory should be those of the profile whose browser the fetch
drives.  They are in the runs where the host is on the client's profile whenever it answers
`GET /profile`, and every jar that goes unchecked is that profile's (`paths_own`).  A host
that starts on another one gives the fetch the other's directory (`foreign_downloads`).
-/

namespace Afhttp.Fetch

/-- The profile of a browser: an ephemeral one has a directory of its own. -/
inductive HostProfile where
  | ephemeral (dir : PathBuf)
  | persistent (name : String)
  deriving DecidableEq, Repr

/-- The client, and what it has to know of the host. -/
structure FetchClient where
  files : ClientFiles
  inline : Bool
  /-- `with_profile`. -/
  profile : String
  /-- Where the host keeps its persistent profiles. -/
  profileDir : String → PathBuf
  /-- The host can launch a browser on another profile. -/
  canSwitch : Bool
  /-- The directory of the profile that an inline host starts on. -/
  tempDir : PathBuf
  profileUrl : String

def FetchClient.host (c : FetchClient) : ClientHost := ⟨false, c.inline⟩

/-- The profile that the client is bound to. -/
def FetchClient.own (c : FetchClient) : HostProfile := .persistent c.profile

def HostProfile.dir (c : FetchClient) : HostProfile → PathBuf
  | .ephemeral dir => dir
  | .persistent name => c.profileDir name

/-- The handler of `GET /profile`. -/
def HostProfile.snapshot (c : FetchClient) (p : HostProfile) : ProfileSnapshot :=
  match p with
  | .ephemeral _ => ⟨"ephemeral", none, some (p.dir c), false⟩
  | .persistent name => ⟨"persistent", some name, some (p.dir c), true⟩

/-- Where a fetch stands. -/
inductive FetchStage where
  | resolved (jar : JarOptions)
  /-- In `browser_path`, before the connection. -/
  | ready (jar : JarOptions)
  | driving (jar : JarOptions) (entry : HostProfile)
  | capturing (jar : JarOptions) (entry : HostProfile) (downloads : Option PathBuf)
  | ended
  deriving DecidableEq

structure FetchWorld (F : Type) where
  /-- The active profile of the host, once it is up. -/
  active : Option HostProfile
  /-- The answer that the client keeps. -/
  profileInfo : Option ProfileSnapshot
  /-- The profile that the open connection drives. -/
  cdp : Option HostProfile
  fetches : F → Option FetchStage

inductive FetchEvent (F : Type) where
  /-- `resolve_cookie_jar_path`; `fault`: `GET /profile` fails. -/
  | resolve (f : F) (jar : JarOptions) (fault : Option Error)
  /-- `browser_path` up to the connection; `start`: of an inline host that is not up. -/
  | browse (f : F) (start : Except Error Unit) (fault : Option Error)
  | connect (f : F) (fault : Option Error)
  /-- `created`: the directory is made and the browser told. -/
  | configure (f : F) (fault : Option Error) (created : Bool)
  | finish (f : F)
  /-- The connection closes. -/
  | closed
  /-- Another client has the host switch while this one is not connected. -/
  | switched (name : String)

namespace FetchWorld

variable {F : Type}

def start (F : Type) (active : Option HostProfile) : FetchWorld F := ⟨active, none, none, fun _ => none⟩

/-- What `profile_info` returns. -/
def askProfile (c : FetchClient) (w : FetchWorld F) (fault : Option Error) : Except Error ProfileSnapshot :=
  match w.profileInfo with
  | some info => .ok info
  | none =>
    match fault with
    | some e => .error e
    | none =>
      match w.active with
      | some p => .ok (p.snapshot c)
      | none => .error (.new .hostUnreachable s!"GET {c.profileUrl}: status 503 Service Unavailable")

/-- An answer is kept. -/
def keep (w : FetchWorld F) : Except Error ProfileSnapshot → FetchWorld F
  | .ok info => { w with profileInfo := some info }
  | .error _ => w

/-- An inline host starts when its endpoint is asked for. -/
def startInline (c : FetchClient) (w : FetchWorld F) : FetchWorld F :=
  { w with active := some (w.active.getD (.ephemeral c.tempDir)) }

variable [DecidableEq F]

def put (w : FetchWorld F) (f : F) (stage : FetchStage) : FetchWorld F :=
  { w with fetches := Function.update w.fetches f (some stage) }

/-- A stage fails, or the fetch goes on with the jar it gives. -/
def proceed (w : FetchWorld F) (f : F) (next : JarOptions → FetchStage) : Except Error JarOptions → FetchWorld F
  | .ok jar => w.put f (next jar)
  | .error _ => w.put f .ended

def step (c : FetchClient) (w : FetchWorld F) : FetchEvent F → Option (FetchWorld F)
  | .resolve f jar fault =>
    match w.fetches f with
    | some _ => none
    | none =>
      let answer := w.askProfile c fault
      let asked := !jar.disabled && c.host.asks w.active.isSome
      some ((if asked then w.keep answer else w).proceed f .resolved
        (resolveCookieJarPath c.files c.host w.active.isSome answer jar))
  | .browse f start fault =>
    match w.fetches f with
    | some (.resolved jar) =>
      if c.inline && !w.active.isSome && jar.path.isNone && !jar.disabled then
        match start with
        | .error _ => some (w.put f .ended)
        | .ok () =>
          let w := w.startInline c
          let answer := w.askProfile c fault
          some ((w.keep answer).proceed f .ready (resolveCookieJarPath c.files c.host true answer jar))
      else some (w.put f (.ready jar))
    | _ => none
  | .connect f fault =>
    match w.fetches f with
    | some (.ready jar) =>
      match w.cdp with
      | some entry => some (w.put f (.driving jar entry))
      | none =>
        let w := if c.inline then w.startInline c else w
        -- `ensure_profile` of the host
        if fault = none ∧ (w.active = some c.own ∨ c.canSwitch = true) then
          some ({ w with active := some c.own, cdp := some c.own }.put f (.driving jar c.own))
        else some (w.put f .ended)
    | _ => none
  | .configure f fault created =>
    match w.fetches f with
    | some (.driving jar entry) =>
      let answer := w.askProfile c fault
      let downloads := if created then answer.toOption.bind fun info => info.path.map (·.push "downloads") else none
      some ((w.keep answer).put f (.capturing jar entry downloads))
    | _ => none
  | .finish f =>
    match w.fetches f with
    | some (.capturing _ _ _) => some (w.put f .ended)
    | _ => none
  | .closed => some { w with cdp := none }
  | .switched name =>
    if w.cdp = none ∧ w.active.isSome = true then some { w with active := some (.persistent name) } else none

end FetchWorld

/-! ## The paths of the client's own profile -/

section
variable {c : FetchClient}

/-- The jar is that of the profile. -/
def JarOptions.In (c : FetchClient) (p : HostProfile) (jar : JarOptions) : Prop :=
  ∀ path, jar.path = some path → SameJar c.files path (cookieJarOf (p.dir c))

/-- While it drives a browser, the fetch uses the jar and the download directory of its profile. -/
def FetchStage.Agrees (c : FetchClient) : FetchStage → Prop
  | .driving jar entry => jar.In c entry
  | .capturing jar entry downloads =>
    jar.In c entry ∧ ∀ dir, downloads = some dir → dir = (entry.dir c).push "downloads"
  | _ => True

/-- At every stage, the paths and the browser are of the client's profile. -/
def FetchStage.Fits (c : FetchClient) : FetchStage → Prop
  | .resolved jar | .ready jar => jar.In c c.own
  | .driving jar entry => jar.In c c.own ∧ entry = c.own
  | .capturing jar entry downloads =>
    jar.In c c.own ∧ entry = c.own ∧ ∀ dir, downloads = some dir → dir = (c.own.dir c).push "downloads"
  | .ended => True

theorem FetchStage.Fits.agrees {stage : FetchStage} (h : stage.Fits c) : stage.Agrees c := by
  cases stage with
  | driving jar entry =>
    obtain ⟨hjar, rfl⟩ := h
    exact hjar
  | capturing jar entry downloads =>
    obtain ⟨hjar, rfl, hdown⟩ := h
    exact ⟨hjar, hdown⟩
  | _ => trivial

/-- The browser, and the directory that it saves its downloads in. -/
def FetchStage.capture : FetchStage → Option (HostProfile × PathBuf)
  | .capturing _ entry (some dir) => some (entry, dir)
  | _ => none

theorem FetchStage.capture_some {stage : FetchStage} {entry : HostProfile} {dir : PathBuf}
    (h : stage.capture = some (entry, dir)) : ∃ jar, stage = .capturing jar entry (some dir) := by
  unfold FetchStage.capture at h
  split at h
  · next jar _ _ =>
    cases h
    exact ⟨jar, rfl⟩
  · cases h

/-- The answer names the client's profile. -/
def Own (c : FetchClient) (answer : Except Error ProfileSnapshot) : Prop :=
  ∀ info, answer = .ok info → info.path = some (c.own.dir c)

/-- A jar that is checked against such an answer, or needs no check, is the profile's. -/
theorem resolved_in {started : Bool} {answer : Except Error ProfileSnapshot} {jar jar' : JarOptions}
    (hans : jar.disabled = false → c.host.asks started = true → Own c answer)
    (hexp : jar.disabled = false → ∀ explicit, jar.path = some explicit →
      SameJar c.files explicit (cookieJarOf (c.own.dir c)) ∨
        c.host.asks started = true ∧ ∃ info, answer = .ok info)
    (h : resolveCookieJarPath c.files c.host started answer jar = .ok jar') : jar'.In c c.own := by
  intro path hpath
  by_cases hd : jar.disabled = true
  · unfold resolveCookieJarPath at h
    rw [if_pos hd] at h
    cases h
    cases hpath
  · have he : jar.disabled = false := by rwa [Bool.not_eq_true] at hd
    cases hp : jar.path with
    | some explicit =>
      rcases resolve_explicit c.files c.host started answer he hp with
        ⟨-, -, e, herr⟩ | ⟨hno, path', hok, hsame⟩
      · rw [herr] at h
        cases h
      · rw [hok] at h
        cases h
        cases hpath
        refine hsame.trans ?_
        rcases hexp he explicit hp with hown | ⟨hasks, info, hinfo⟩
        · exact hown
        · by_contra hne
          refine hno ⟨hasks, info, cookieJarOf (c.own.dir c), hinfo, ?_, hne⟩
          unfold ProfileSnapshot.canonicalCookieJar
          rw [hans he hasks info hinfo]
          rfl
    | none =>
      obtain ⟨jar'', hok, -, hiff⟩ := resolve_implicit c.files c.host started answer hp
      rw [hok] at h
      cases h
      obtain ⟨-, hasks, -, info, expected, hinfo, hc, -, rfl⟩ := (hiff path).mp hpath
      unfold ProfileSnapshot.canonicalCookieJar at hc
      rw [hans he hasks info hinfo] at hc
      cases hc
      exact (sameJar_absoluteLexical _ _).mpr (jarPathsMatch_iff.mpr rfl)

end

namespace FetchWorld

variable {F : Type} {c : FetchClient} {w w' : FetchWorld F}

/-- Every fetch uses the paths of the profile whose browser it drives. -/
def PathsOwn (c : FetchClient) (w : FetchWorld F) : Prop :=
  ∀ f stage, w.fetches f = some stage → stage.Agrees c

/-- If `GET /profile` is asked and answered, the host is on the client's profile. -/
def AnswersOwn (c : FetchClient) (w : FetchWorld F) (fault : Option Error) : Prop :=
  w.profileInfo = none → fault = none → ∀ p ∈ w.active, p = c.own

instance (w : FetchWorld F) (fault : Option Error) : Decidable (w.AnswersOwn c fault) :=
  inferInstanceAs (Decidable (w.profileInfo = none → fault = none → ∀ p ∈ w.active, p = c.own))

/-- `browser_path` has an inline host to start, and to ask. -/
def toStart (c : FetchClient) (w : FetchWorld F) (f : F) : Bool :=
  match w.fetches f with
  | some (.resolved jar) => c.inline && !w.active.isSome && jar.path.isNone && !jar.disabled
  | _ => false

/-- Where the client asks `GET /profile` and is answered, the host is on the client's
profile; an explicit jar that no answer is there to check is that profile's. -/
def Settled (c : FetchClient) (w : FetchWorld F) : FetchEvent F → Prop
  | .resolve _ jar fault => jar.disabled = false →
    (c.host.asks w.active.isSome = true → w.AnswersOwn c fault) ∧
      ∀ explicit ∈ jar.path, SameJar c.files explicit (cookieJarOf (c.own.dir c)) ∨
        c.host.asks w.active.isSome = true ∧ (w.askProfile c fault).toOption.isSome = true
  | .browse f start fault => w.toStart c f = true → start.toOption.isSome = true →
    (w.startInline c).AnswersOwn c fault
  | .configure _ fault _ => w.AnswersOwn c fault
  | _ => True

instance (w : FetchWorld F) : ∀ e, Decidable (w.Settled c e)
  | .resolve _ jar fault => inferInstanceAs (Decidable (jar.disabled = false →
      (c.host.asks w.active.isSome = true → w.AnswersOwn c fault) ∧
        ∀ explicit ∈ jar.path, SameJar c.files explicit (cookieJarOf (c.own.dir c)) ∨
          c.host.asks w.active.isSome = true ∧ (w.askProfile c fault).toOption.isSome = true))
  | .browse f start fault => inferInstanceAs (Decidable (w.toStart c f = true → start.toOption.isSome = true →
      (w.startInline c).AnswersOwn c fault))
  | .configure _ fault _ => inferInstanceAs (Decidable (w.AnswersOwn c fault))
  | .connect _ _ | .finish _ | .closed | .switched _ => isTrue trivial

structure Inv (c : FetchClient) (w : FetchWorld F) : Prop where
  kept : ∀ info, w.profileInfo = some info → info.path = some (c.own.dir c)
  cdp : ∀ entry, w.cdp = some entry → entry = c.own
  fetches : ∀ f stage, w.fetches f = some stage → stage.Fits c

theorem Inv.start (active : Option HostProfile) : (start F active).Inv c where
  kept info h := by cases h
  cdp entry h := by cases h
  fetches f stage h := by cases h

theorem Inv.own_answer (hw : w.Inv c) {fault : Option Error} (h : w.AnswersOwn c fault) :
    Own c (w.askProfile c fault) := by
  intro info hinfo
  unfold askProfile at hinfo
  cases hk : w.profileInfo with
  | some _ =>
    rw [hk] at hinfo
    cases hinfo
    exact hw.kept info hk
  | none =>
    rw [hk] at hinfo
    cases fault with
    | some e => cases hinfo
    | none =>
      cases ha : w.active with
      | none =>
        rw [ha] at hinfo
        cases hinfo
      | some p =>
        rw [ha] at hinfo
        cases hinfo
        rw [h hk rfl p ha]
        rfl

theorem Inv.keep (hw : w.Inv c) {answer : Except Error ProfileSnapshot} (h : Own c answer) : (w.keep answer).Inv c := by
  cases answer with
  | error e => exact hw
  | ok info =>
    refine ⟨fun info' hk => ?_, hw.cdp, hw.fetches⟩
    cases hk
    exact h info rfl

theorem Inv.startInline (hw : w.Inv c) : (w.startInline c).Inv c := ⟨hw.kept, hw.cdp, hw.fetches⟩

variable [DecidableEq F]

theorem Inv.put (hw : w.Inv c) {f : F} {stage : FetchStage} (h : stage.Fits c) : (w.put f stage).Inv c where
  kept := hw.kept
  cdp := hw.cdp
  fetches f' stage' hs := by
    have hs : Function.update w.fetches f (some stage) f' = some stage' := hs
    by_cases hf : f' = f
    · rw [hf, Function.update_self, Option.some.injEq] at hs
      rw [← hs]
      exact h
    · rw [Function.update_of_ne hf] at hs
      exact hw.fetches f' stage' hs

theorem Inv.proceed (hw : w.Inv c) {f : F} {next : JarOptions → FetchStage} {r : Except Error JarOptions}
    (h : ∀ jar, r = .ok jar → (next jar).Fits c) : (w.proceed f next r).Inv c := by
  cases r with
  | ok jar => exact hw.put (h jar rfl)
  | error e => exact hw.put trivial

theorem Inv.resolve {f : F} {jar : JarOptions} {fault : Option Error} (hw : w.Inv c)
    (hok : w.Settled c (.resolve f jar fault)) (h : w.step c (.resolve f jar fault) = some w') : w'.Inv c := by
  simp only [FetchWorld.step] at h
  split at h
  · cases h
  · cases h
    have hans : jar.disabled = false → c.host.asks w.active.isSome = true → Own c (w.askProfile c fault) :=
      fun hd hasks => hw.own_answer ((hok hd).1 hasks)
    have hkeep : (if (!jar.disabled && c.host.asks w.active.isSome) = true then w.keep (w.askProfile c fault)
        else w).Inv c := by
      split
      · next hasked =>
        rw [Bool.and_eq_true, Bool.not_eq_true'] at hasked
        exact hw.keep (hans hasked.1 hasked.2)
      · exact hw
    refine hkeep.proceed fun jar' hres => resolved_in hans (fun hd explicit hp => ?_) hres
    rcases (hok hd).2 explicit hp with hown | ⟨hasks, hsome⟩
    · exact Or.inl hown
    · refine Or.inr ⟨hasks, ?_⟩
      cases ha : w.askProfile c fault with
      | ok info => exact ⟨info, rfl⟩
      | error e =>
        rw [ha] at hsome
        cases hsome

theorem Inv.browse {f : F} {start : Except Error Unit} {fault : Option Error} (hw : w.Inv c)
    (hok : w.Settled c (.browse f start fault)) (h : w.step c (.browse f start fault) = some w') : w'.Inv c := by
  simp only [FetchWorld.step] at h
  split at h
  · next jar hf =>
    have hjar : jar.In c c.own := hw.fetches f _ hf
    split at h
    · next hgo =>
      cases start with
      | error e =>
        cases h
        exact hw.put trivial
      | ok _ =>
        cases h
        have hstart : w.toStart c f = true := by
          unfold toStart
          rw [hf]
          exact hgo
        have hans := hw.startInline.own_answer (hok hstart rfl)
        refine (hw.startInline.keep hans).proceed fun jar' hres => ?_
        refine resolved_in (fun _ _ => hans) (fun _ explicit hp => ?_) hres
        exact Or.inl (hjar explicit hp)
    · cases h
      exact hw.put hjar
  · cases h

theorem Inv.connect {f : F} {fault : Option Error} (hw : w.Inv c)
    (h : w.step c (.connect f fault) = some w') : w'.Inv c := by
  simp only [FetchWorld.step] at h
  split at h
  · next jar hf =>
    have hjar : jar.In c c.own := hw.fetches f _ hf
    split at h
    · next entry he =>
      cases h
      exact hw.put ⟨hjar, hw.cdp entry he⟩
    · have hinv : (if c.inline = true then w.startInline c else w).Inv c := by
        split
        · exact hw.startInline
        · exact hw
      generalize (if c.inline = true then w.startInline c else w) = w₀ at h hinv
      split at h
      · cases h
        have hconn : ({ w₀ with active := some c.own, cdp := some c.own } : FetchWorld F).Inv c :=
          ⟨hinv.kept, fun entry he => (Option.some.inj he).symm, hinv.fetches⟩
        have hfits : (FetchStage.driving jar c.own).Fits c := ⟨hjar, rfl⟩
        exact hconn.put hfits
      · cases h
        exact hinv.put trivial
  · cases h

theorem Inv.configure {f : F} {fault : Option Error} {created : Bool} (hw : w.Inv c)
    (hok : w.Settled c (.configure f fault created))
    (h : w.step c (.configure f fault created) = some w') : w'.Inv c := by
  simp only [FetchWorld.step] at h
  split at h
  · next jar entry hf =>
    cases h
    obtain ⟨hjar, hentry⟩ := hw.fetches f _ hf
    have hans := hw.own_answer hok
    refine (hw.keep hans).put ⟨hjar, hentry, fun dir hdir => ?_⟩
    split at hdir
    · cases ha : w.askProfile c fault with
      | error e =>
        rw [ha] at hdir
        cases hdir
      | ok info =>
        have hpath := hans info ha
        rw [ha] at hdir
        have hdir : info.path.map (·.push "downloads") = some dir := hdir
        rw [hpath] at hdir
        exact (Option.some.inj hdir).symm
    · cases hdir
  · cases h

/-- **Step.** -/
theorem Inv.step {e : FetchEvent F} (hw : w.Inv c) (hok : w.Settled c e) (h : w.step c e = some w') : w'.Inv c := by
  cases e with
  | resolve f jar fault => exact hw.resolve hok h
  | browse f start fault => exact hw.browse hok h
  | connect f fault => exact hw.connect h
  | configure f fault created => exact hw.configure hok h
  | finish f =>
    simp only [FetchWorld.step] at h
    split at h
    · cases h
      exact hw.put trivial
    · cases h
  | closed =>
    cases h
    refine ⟨hw.kept, fun entry he => ?_, hw.fetches⟩
    cases he
  | switched name =>
    simp only [FetchWorld.step] at h
    split at h
    · cases h
      exact ⟨hw.kept, hw.cdp, hw.fetches⟩
    · cases h

end FetchWorld

/-! ## Runs -/

/-- A client of an external host, bound to `x`. -/
def clientOfX : FetchClient where
  files := clientFiles
  inline := false
  profile := "x"
  profileDir := fun name => ⟨true, [.normal "profiles", .normal name]⟩
  canSwitch := true
  tempDir := ⟨true, [.normal "tmp"]⟩
  profileUrl := "http://host/profile"

/-- A fetch without a jar of its own, up to the download directory. -/
def oneFetch : List (FetchEvent Unit) :=
  [.resolve () ⟨none, false, none⟩ none, .browse () (.ok ()) none, .connect () none, .configure () none true]

end Afhttp.Fetch

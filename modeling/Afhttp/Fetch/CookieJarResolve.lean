import Afhttp.Shared.Error
import Afhttp.Shared.Path
import Mathlib.Logic.Basic

/-!
# Which cookie jar a fetch uses

`resolve_cookie_jar_path` of `sdk/fetch/pipeline/cookie_jar_resolve.rs`, and the second call
of it in `browser_path`, once an inline host is up.  What `GET /profile` answers is an
argument.

An explicit jar should be refused unless it is the jar of the active profile.  It is taken
as it is where the host does not answer, answers without a path, or is an inline host that
has yet to start (`unanswered_jar_taken`); everywhere else the rule holds
(`browser_jar_isolated`).
-/

namespace Afhttp.Fetch

/-- What `GET /profile` answers. -/
structure ProfileSnapshot where
  kind : String
  name : Option String
  path : Option PathBuf
  locked : Bool
  deriving DecidableEq, Repr

def cookieJarOf (profile : PathBuf) : PathBuf := profile.push "cookies.jar.json"

def ProfileSnapshot.canonicalCookieJar (info : ProfileSnapshot) : Option PathBuf := info.path.map cookieJarOf

structure JarOptions where
  path : Option PathBuf
  disabled : Bool
  warning : Option String
  deriving DecidableEq, Repr

/-- The side of the client: where it runs, how a path is printed, and what is a writable
directory there. -/
structure ClientFiles where
  cwd : WorkingDir
  display : PathBuf → String
  writableDir : PathBuf → Bool

structure ClientHost where
  hostless : Bool
  inline : Bool
  deriving DecidableEq, Repr

def implicitProfilePathIsLocal (files : ClientFiles) (path : Option PathBuf) : Bool :=
  match path with
  | none => false
  | some path => files.writableDir path

def jarPathsMatch (a b : PathBuf) : Bool := a.normalize == b.normalize

def profileUnavailable (e : Error) : String :=
  s!"GET /profile unavailable; implicit profile cookie jar disabled: {e.detail}"

def jarMismatch (files : ClientFiles) (explicit expected : PathBuf) : Error :=
  .new .invalidArgument s!"--cookie-jar {files.display explicit} does not match the host's profile jar {files.display expected}; the isolation invariant requires the jar to live inside the active profile dir"

/-- The path of a profile as the warnings name it. -/
def profilePathText (files : ClientFiles) (path : Option PathBuf) : String :=
  (path.map files.display).getD "<absent>"

def externalHostWarning (files : ClientFiles) (path : Option PathBuf) : String :=
  s!"implicit profile cookie jar disabled for external host: host profile path {profilePathText files path} is not a client-owned local profile; browser profile cookies remain host-side"

def notLocalWarning (files : ClientFiles) (path : Option PathBuf) : String :=
  s!"implicit profile cookie jar disabled: host profile path {profilePathText files path} is not visible as a writable local directory; browser profile cookies remain host-side"

/-- `started`: an inline host is up; `answer`: of `profile_info`, where it is asked. -/
def resolveCookieJarPath (files : ClientFiles) (client : ClientHost) (started : Bool)
    (answer : Except Error ProfileSnapshot) (jar : JarOptions) : Except Error JarOptions :=
  if jar.disabled then .ok { jar with path := none }
  else if client.hostless then .ok { jar with path := jar.path.map (absoluteLexical files.cwd) }
  else if client.inline && !started then .ok { jar with path := jar.path.map (absoluteLexical files.cwd) }
  else
    match jar.path, answer with
    | some explicit, .ok info =>
      match info.canonicalCookieJar with
      | some expected =>
        let expectedAbs := absoluteLexical files.cwd expected
        if jarPathsMatch (absoluteLexical files.cwd explicit) expectedAbs then
          .ok { jar with path := some expectedAbs }
        else .error (jarMismatch files explicit expectedAbs)
      | none => .ok jar
    | some explicit, .error _ => .ok { jar with path := some (absoluteLexical files.cwd explicit) }
    | none, .ok info =>
      match info.canonicalCookieJar with
      | some expected =>
        if !client.inline then .ok { jar with path := none, warning := some (externalHostWarning files info.path) }
        else if implicitProfilePathIsLocal files info.path then
          .ok { jar with path := some (absoluteLexical files.cwd expected) }
        else .ok { jar with path := none, warning := some (notLocalWarning files info.path) }
      | none => .ok jar
    | none, .error e => .ok { jar with warning := some (profileUnavailable e) }

/-- What `browser_path` makes of the jar before it drives the browser: an inline host that is
not up is started, and asked, unless there is a jar path already. -/
def browserPathJar (files : ClientFiles) (client : ClientHost) (started : Bool) (start : Except Error Unit)
    (answer : Except Error ProfileSnapshot) (jar : JarOptions) : Except Error JarOptions :=
  if client.inline && !started && jar.path.isNone && !jar.disabled then
    match start with
    | .error e => .error e
    | .ok () => resolveCookieJarPath files client true answer jar
  else .ok jar

/-! ## What the jar is -/

/-- The paths name one file, as far as their text says. -/
def SameJar (files : ClientFiles) (a b : PathBuf) : Prop :=
  jarPathsMatch (absoluteLexical files.cwd a) (absoluteLexical files.cwd b) = true

instance (files : ClientFiles) (a b : PathBuf) : Decidable (SameJar files a b) :=
  inferInstanceAs (Decidable (_ = true))

theorem jarPathsMatch_iff {a b : PathBuf} : jarPathsMatch a b = true ↔ a.normalize = b.normalize := by
  unfold jarPathsMatch
  exact beq_iff_eq

variable {files : ClientFiles}

theorem SameJar.symm {a b : PathBuf} (h : SameJar files a b) : SameJar files b a :=
  jarPathsMatch_iff.mpr (jarPathsMatch_iff.mp h).symm

theorem SameJar.trans {a b c : PathBuf} (h : SameJar files a b) (h' : SameJar files b c) : SameJar files a c :=
  jarPathsMatch_iff.mpr ((jarPathsMatch_iff.mp h).trans (jarPathsMatch_iff.mp h'))

theorem sameJar_absoluteLexical (a b : PathBuf) :
    SameJar files (absoluteLexical files.cwd a) b ↔ SameJar files a b := by
  unfold SameJar
  rw [jarPathsMatch_iff, jarPathsMatch_iff, normalize_absoluteLexical]

/-- The client asks `GET /profile`. -/
def ClientHost.asks (client : ClientHost) (started : Bool) : Bool := !client.hostless && (!client.inline || started)

theorem ClientHost.asks_iff {client : ClientHost} {started : Bool} :
    client.asks started = true ↔ ¬ client.hostless = true ∧ ¬ (client.inline && !started) = true := by
  unfold asks
  cases client.hostless <;> cases client.inline <;> cases started <;> simp

/-- The answer names a profile whose jar is another than the explicit one. -/
def Disowns (files : ClientFiles) (explicit : PathBuf) (answer : Except Error ProfileSnapshot) : Prop :=
  ∃ info expected, answer = .ok info ∧ info.canonicalCookieJar = some expected ∧ ¬ SameJar files explicit expected

variable {client : ClientHost} {started : Bool} {answer : Except Error ProfileSnapshot} {jar : JarOptions}

variable (files client started answer) in
/-- **An explicit jar** is refused if the host names another, and used if not. -/
theorem resolve_explicit (he : jar.disabled = false) {explicit : PathBuf} (hp : jar.path = some explicit) :
    (client.asks started = true ∧ Disowns files explicit answer ∧
        ∃ e, resolveCookieJarPath files client started answer jar = .error e) ∨
      (¬ (client.asks started = true ∧ Disowns files explicit answer) ∧
        ∃ path, resolveCookieJarPath files client started answer jar = .ok { jar with path := some path } ∧
          SameJar files path explicit) := by
  have habs : SameJar files (absoluteLexical files.cwd explicit) explicit :=
    (sameJar_absoluteLexical explicit explicit).mpr (jarPathsMatch_iff.mpr rfl)
  have hd : ¬ jar.disabled = true := by
    rw [he]
    exact Bool.false_ne_true
  unfold resolveCookieJarPath
  rw [if_neg hd, hp]
  by_cases hh : client.hostless = true
  · refine Or.inr ⟨fun h => ?_, _, by rw [if_pos hh]; rfl, habs⟩
    exact absurd hh (ClientHost.asks_iff.mp h.1).1
  · rw [if_neg hh]
    by_cases hi : (client.inline && !started) = true
    · refine Or.inr ⟨fun h => ?_, _, by rw [if_pos hi]; rfl, habs⟩
      exact absurd hi (ClientHost.asks_iff.mp h.1).2
    · rw [if_neg hi]
      have hasks : client.asks started = true := ClientHost.asks_iff.mpr ⟨hh, hi⟩
      cases answer with
      | error e =>
        refine Or.inr ⟨?_, _, rfl, habs⟩
        rintro ⟨-, info, expected, h, -⟩
        cases h
      | ok info =>
        cases hc : info.canonicalCookieJar with
        | none =>
          refine Or.inr ⟨?_, explicit, ?_, jarPathsMatch_iff.mpr rfl⟩
          · rintro ⟨-, info', expected, h, hc', -⟩
            cases h
            rw [hc] at hc'
            cases hc'
          · simp only [hc]
            cases jar
            cases hp
            rfl
        | some expected =>
          simp only [hc]
          by_cases hm : SameJar files explicit expected
          · refine Or.inr ⟨?_, absoluteLexical files.cwd expected, if_pos hm, ?_⟩
            · rintro ⟨-, info', expected', h, hc', hno⟩
              cases h
              rw [hc] at hc'
              cases hc'
              exact hno hm
            · exact (sameJar_absoluteLexical expected explicit).mpr hm.symm
          · exact Or.inl ⟨hasks, ⟨info, expected, rfl, hc, hm⟩, _, if_neg hm⟩

variable (files client started answer) in
/-- **Without an explicit jar**, only an inline host that is up gives one: that of the
profile it names. -/
theorem resolve_implicit (hp : jar.path = none) :
    ∃ jar', resolveCookieJarPath files client started answer jar = .ok jar' ∧ jar'.disabled = jar.disabled ∧
      ∀ path, jar'.path = some path ↔ jar.disabled = false ∧ client.asks started = true ∧ client.inline = true ∧
        ∃ info expected, answer = .ok info ∧ info.canonicalCookieJar = some expected ∧
          implicitProfilePathIsLocal files info.path = true ∧ path = absoluteLexical files.cwd expected := by
  unfold resolveCookieJarPath
  by_cases hd : jar.disabled = true
  · refine ⟨_, if_pos hd, rfl, fun path => iff_of_false (by simp) ?_⟩
    rintro ⟨h, -⟩
    rw [hd] at h
    cases h
  · rw [if_neg hd, hp]
    rw [Bool.not_eq_true] at hd
    by_cases hh : client.hostless = true
    · refine ⟨_, if_pos hh, rfl, fun path => iff_of_false (by simp) ?_⟩
      rintro ⟨-, h, -⟩
      exact absurd hh (ClientHost.asks_iff.mp h).1
    · rw [if_neg hh]
      by_cases hi : (client.inline && !started) = true
      · refine ⟨_, if_pos hi, rfl, fun path => iff_of_false (by simp) ?_⟩
        rintro ⟨-, h, -⟩
        exact absurd hi (ClientHost.asks_iff.mp h).2
      · rw [if_neg hi]
        have hasks : client.asks started = true := ClientHost.asks_iff.mpr ⟨hh, hi⟩
        cases answer with
        | error e =>
          refine ⟨_, rfl, rfl, fun path => iff_of_false (by simp) ?_⟩
          rintro ⟨-, -, -, info, expected, h, -⟩
          cases h
        | ok info =>
          cases hc : info.canonicalCookieJar with
          | none =>
            simp only [hc]
            refine ⟨_, rfl, rfl, fun path => iff_of_false (by simp [hp]) ?_⟩
            rintro ⟨-, -, -, info', expected, h, hc', -⟩
            cases h
            rw [hc] at hc'
            cases hc'
          | some expected =>
            simp only [hc]
            cases hin : client.inline with
            | false =>
              refine ⟨_, rfl, rfl, fun path => iff_of_false (by simp) ?_⟩
              rintro ⟨-, -, h, -⟩
              cases h
            | true =>
              by_cases hl : implicitProfilePathIsLocal files info.path = true
              · refine ⟨_, if_pos hl, rfl, fun path => ⟨fun h => ?_, fun h => ?_⟩⟩
                · exact ⟨hd, hasks, rfl, info, expected, rfl, hc, hl, (Option.some.inj h).symm⟩
                · obtain ⟨-, -, -, info', expected', h, hc', -, rfl⟩ := h
                  cases h
                  rw [hc] at hc'
                  cases hc'
                  rfl
              · refine ⟨_, if_neg hl, rfl, fun path => iff_of_false (by simp) ?_⟩
                rintro ⟨-, -, -, info', expected', h, -, hl', -⟩
                cases h
                exact hl hl'

/-! ## Isolation -/

/-- The jar of a fetch that comes to drive the browser: `started`, an inline host is up when
the fetch begins; `up`, when it comes to the browser at the latest. -/
def browserFetchJar (files : ClientFiles) (client : ClientHost) (started up : Bool) (start : Except Error Unit)
    (first again : Except Error ProfileSnapshot) (jar : JarOptions) : Except Error JarOptions :=
  match resolveCookieJarPath files client started first jar with
  | .error e => .error e
  | .ok jar => browserPathJar files client (started || up) start again jar

/-- The jar that the browser fetch uses is that of the active profile, and any other that is
named is refused at the first step. -/
structure Isolated (files : ClientFiles) (active : PathBuf) (jar : JarOptions) (resolved used : Except Error JarOptions) :
    Prop where
  own : ∀ jar' path, used = .ok jar' → jar'.path = some path → SameJar files path (cookieJarOf active)
  refused : jar.disabled = false → ∀ explicit, jar.path = some explicit →
    ¬ SameJar files explicit (cookieJarOf active) → ∃ e, resolved = .error e

/-- The answer that a fetch of an inline host takes its implicit jar from. -/
def implicitAnswer (started up : Bool) (start : Except Error Unit) (first again : Except Error ProfileSnapshot) :
    Option (Except Error ProfileSnapshot) :=
  if started then some first
  else if up then none
  else
    match start with
    | .ok () => some again
    | .error _ => none

/-- If the answer names a profile that is local, it is the active one. -/
def NamesActive (files : ClientFiles) (active : PathBuf) (answer : Except Error ProfileSnapshot) : Prop :=
  ∀ info expected, answer = .ok info → info.canonicalCookieJar = some expected →
    implicitProfilePathIsLocal files info.path = true → SameJar files expected (cookieJarOf active)

/-- An explicit jar is the active profile's, or the host is asked and names another; and an
inline host names the active profile where its answer gives the jar. -/
def Confirmed (files : ClientFiles) (client : ClientHost) (started up : Bool) (start : Except Error Unit)
    (first again : Except Error ProfileSnapshot) (active : PathBuf) (jar : JarOptions) : Prop :=
  jar.disabled = false →
    (∀ explicit, jar.path = some explicit → SameJar files explicit (cookieJarOf active) ∨
      client.asks started = true ∧ Disowns files explicit first) ∧
    (jar.path = none → client.inline = true → ∀ answer, implicitAnswer started up start first again = some answer →
      NamesActive files active answer)

/-- An implicit jar is the active profile's iff the answer names that. -/
theorem resolve_implicit_own {inline : Bool} (hin : inline = true) (he : jar.disabled = false)
    (hp : jar.path = none) (active : PathBuf) :
    (∀ jar' path, resolveCookieJarPath files ⟨false, inline⟩ true answer jar = .ok jar' → jar'.path = some path →
      SameJar files path (cookieJarOf active)) ↔ NamesActive files active answer := by
  obtain ⟨jar', hjar, -, hpath⟩ := resolve_implicit files ⟨false, inline⟩ true answer hp
  rw [hjar]
  constructor
  · intro h info expected ha hc hl
    have hsome := (hpath _).mpr ⟨he, by rw [hin]; rfl, hin, info, expected, ha, hc, hl, rfl⟩
    exact (sameJar_absoluteLexical _ _).mp (h jar' _ rfl hsome)
  · intro h jar'' path hok hsome
    cases hok
    obtain ⟨-, -, -, info, expected, ha, hc, hl, rfl⟩ := (hpath path).mp hsome
    exact (sameJar_absoluteLexical _ _).mpr (h info expected ha hc hl)

/-- The jar is left as it is, unless an inline host that is not up has to give one. -/
theorem browserPathJar_keeps (start : Except Error Unit) (again : Except Error ProfileSnapshot)
    (h : client.inline = false ∨ started = true ∨ jar.path.isSome = true ∨ jar.disabled = true) :
    browserPathJar files client started start again jar = .ok jar := by
  unfold browserPathJar
  rw [if_neg]
  rcases h with h | h | h | h
  · simp [h]
  · simp [h]
  · cases hp : jar.path with
    | none =>
      rw [hp] at h
      cases h
    | some path => simp
  · simp [h]

theorem browserPathJar_starts (start : Except Error Unit) (again : Except Error ProfileSnapshot)
    (hin : client.inline = true) (hp : jar.path = none) (he : jar.disabled = false) :
    browserPathJar files client false start again jar =
      match start with
      | .error e => .error e
      | .ok () => resolveCookieJarPath files client true again jar := by
  unfold browserPathJar
  rw [hin, hp, he]
  rfl

section
variable (inline up : Bool) (start : Except Error Unit) (first again : Except Error ProfileSnapshot)
  (active : PathBuf)

/-- No jar at all. -/
theorem isolated_disabled (started : Bool) (hd : jar.disabled = true) :
    Isolated files active jar (resolveCookieJarPath files ⟨false, inline⟩ started first jar)
        (browserFetchJar files ⟨false, inline⟩ started up start first again jar) ↔
      Confirmed files ⟨false, inline⟩ started up start first again active jar := by
  have hres : resolveCookieJarPath files ⟨false, inline⟩ started first jar = .ok { jar with path := none } :=
    if_pos hd
  have hkept : ({ jar with path := none } : JarOptions).disabled = true := hd
  have hno : ¬ jar.disabled = false := by
    rw [hd]
    exact Bool.noConfusion
  unfold browserFetchJar
  rw [hres]
  simp only []
  rw [browserPathJar_keeps start again (Or.inr (Or.inr (Or.inr hkept)))]
  refine iff_of_true ⟨fun jar' path h hpath => ?_, fun h => absurd h hno⟩ fun h => absurd h hno
  cases h
  cases hpath

/-- A jar that is named. -/
theorem isolated_explicit (started : Bool) (he : jar.disabled = false) {explicit : PathBuf}
    (hp : jar.path = some explicit) :
    Isolated files active jar (resolveCookieJarPath files ⟨false, inline⟩ started first jar)
        (browserFetchJar files ⟨false, inline⟩ started up start first again jar) ↔
      Confirmed files ⟨false, inline⟩ started up start first again active jar := by
  have hexplicit : ∀ explicit', jar.path = some explicit' ↔ explicit' = explicit := by
    intro explicit'
    rw [hp, Option.some.injEq, eq_comm]
  unfold browserFetchJar
  rcases resolve_explicit files ⟨false, inline⟩ started first he hp with
    ⟨hasks, hdis, e, hres⟩ | ⟨hno, path, hres, hsame⟩
  · rw [hres]
    refine iff_of_true ⟨fun jar' path h => ?_, fun _ _ _ _ => ⟨e, rfl⟩⟩ fun _ => ⟨?_, fun h => ?_⟩
    · cases h
    · rintro explicit' h
      rw [(hexplicit explicit').mp h]
      exact Or.inr ⟨hasks, hdis⟩
    · rw [hp] at h
      cases h
  · rw [hres]
    simp only []
    rw [browserPathJar_keeps start again (Or.inr (Or.inr (Or.inl rfl)))]
    constructor
    · intro hiso _
      refine ⟨fun explicit' h => ?_, fun h => ?_⟩
      · rw [(hexplicit explicit').mp h]
        exact Or.inl (hsame.symm.trans (hiso.own _ path rfl rfl))
      · rw [hp] at h
        cases h
    · intro hconf
      have hown : SameJar files explicit (cookieJarOf active) :=
        ((hconf he).1 explicit hp).resolve_right hno
      refine ⟨fun jar' path' h hpath => ?_, fun _ explicit' h hne => ?_⟩
      · cases h
        cases hpath
        exact hsame.trans hown
      · rw [(hexplicit explicit').mp h] at hne
        exact absurd hown hne

/-- The jar of an inline host that is not up comes from its second answer, if it starts it. -/
theorem isolated_unstarted (he : jar.disabled = false) (hp : jar.path = none) :
    (∀ jar' path, browserFetchJar files ⟨false, true⟩ false up start first again jar = .ok jar' →
      jar'.path = some path → SameJar files path (cookieJarOf active)) ↔
    ∀ answer, implicitAnswer false up start first again = some answer → NamesActive files active answer := by
  obtain ⟨jar', hres, hdis, hpath⟩ := resolve_implicit files ⟨false, true⟩ false first hp
  have hnone : jar'.path = none := by
    cases hx : jar'.path with
    | none => rfl
    | some path => exact absurd ((hpath path).mp hx).2.1 Bool.false_ne_true
  unfold browserFetchJar
  rw [hres]
  simp only []
  cases up with
  | true =>
    rw [Bool.or_true, browserPathJar_keeps start again (Or.inr (Or.inl rfl))]
    refine iff_of_true (fun jar'' path h hsome => ?_) fun answer ha => by cases ha
    cases h
    rw [hnone] at hsome
    cases hsome
  | false =>
    rw [Bool.or_false, browserPathJar_starts start again rfl hnone (hdis.trans he)]
    cases start with
    | error e => exact iff_of_true (fun jar'' path h => by cases h) fun answer ha => by cases ha
    | ok _ =>
      refine (resolve_implicit_own rfl (hdis.trans he) hnone active).trans ?_
      refine ⟨fun h answer ha => ?_, fun h => h again rfl⟩
      cases ha
      exact h

/-- No jar is named: the fetch may use one, and has none to refuse. -/
theorem isolated_implicit (started : Bool) (he : jar.disabled = false) (hp : jar.path = none) :
    Isolated files active jar (resolveCookieJarPath files ⟨false, inline⟩ started first jar)
        (browserFetchJar files ⟨false, inline⟩ started up start first again jar) ↔
      Confirmed files ⟨false, inline⟩ started up start first again active jar := by
  have hiso : ∀ resolved used, Isolated files active jar resolved used ↔
      ∀ jar' path, used = .ok jar' → jar'.path = some path → SameJar files path (cookieJarOf active) := by
    intro resolved used
    refine ⟨fun h => h.own, fun h => ⟨h, fun _ explicit hx => ?_⟩⟩
    rw [hp] at hx
    cases hx
  have hconf : Confirmed files ⟨false, inline⟩ started up start first again active jar ↔
      (inline = true → ∀ answer, implicitAnswer started up start first again = some answer →
        NamesActive files active answer) := by
    constructor
    · exact fun h => (h he).2 hp
    · refine fun h _ => ⟨fun explicit hx => ?_, fun _ => h⟩
      rw [hp] at hx
      cases hx
  rw [hiso, hconf]
  cases inline with
  | false =>
    obtain ⟨jar', hres, -, hpath⟩ := resolve_implicit files ⟨false, false⟩ started first hp
    unfold browserFetchJar
    rw [hres]
    simp only []
    rw [browserPathJar_keeps start again (Or.inl rfl)]
    refine iff_of_true (fun jar'' path h hsome => ?_) fun h => by cases h
    cases h
    exact absurd ((hpath path).mp hsome).2.2.1 Bool.false_ne_true
  | true =>
    cases started with
    | true =>
      obtain ⟨jar', hres, -, -⟩ := resolve_implicit files ⟨false, true⟩ true first hp
      unfold browserFetchJar
      rw [hres]
      simp only []
      rw [Bool.true_or, browserPathJar_keeps start again (Or.inr (Or.inl rfl)), ← hres,
        resolve_implicit_own rfl he hp active]
      refine ⟨fun h _ answer ha => ?_, fun h => h trivial first rfl⟩
      cases ha
      exact h
    | false =>
      rw [isolated_unstarted up start first again active he hp]
      exact ⟨fun h _ => h, fun h => h rfl⟩

end

/-- **A browser fetch uses the active profile's jar**, and refuses any other, exactly if an
explicit jar is the profile's own, or the host is asked and names another. -/
theorem browser_jar_isolated (files : ClientFiles) (inline started up : Bool) (start : Except Error Unit)
    (first again : Except Error ProfileSnapshot) (active : PathBuf) (jar : JarOptions) :
    Isolated files active jar (resolveCookieJarPath files ⟨false, inline⟩ started first jar)
        (browserFetchJar files ⟨false, inline⟩ started up start first again jar) ↔
      Confirmed files ⟨false, inline⟩ started up start first again active jar := by
  by_cases hd : jar.disabled = true
  · exact isolated_disabled inline up start first again active started hd
  · have he : jar.disabled = false := by rwa [Bool.not_eq_true] at hd
    cases hp : jar.path with
    | some explicit => exact isolated_explicit inline up start first again active started he hp
    | none => exact isolated_implicit inline up start first again active started he hp

/-! ## A jar that nobody confirms -/

/-- A client in `/w` that sees all directories. -/
def clientFiles : ClientFiles where
  cwd := ⟨⟨true, [.normal "w"]⟩, by decide, by decide⟩
  display := fun _ => ""
  writableDir := fun _ => true

/-- The host does not answer `GET /profile`: the jar of profile `q` is used on profile `p`. -/
theorem unanswered_jar_taken :
    ¬ Isolated clientFiles ⟨true, [.normal "p"]⟩ ⟨some (cookieJarOf ⟨true, [.normal "q"]⟩), false, none⟩
      (resolveCookieJarPath clientFiles ⟨false, false⟩ true (.error (.new .hostUnreachable "GET /profile: status 503"))
        ⟨some (cookieJarOf ⟨true, [.normal "q"]⟩), false, none⟩)
      (browserFetchJar clientFiles ⟨false, false⟩ true true (.ok ())
        (.error (.new .hostUnreachable "GET /profile: status 503"))
        (.error (.new .hostUnreachable "GET /profile: status 503"))
        ⟨some (cookieJarOf ⟨true, [.normal "q"]⟩), false, none⟩) := by
  intro h
  have hown := h.own ⟨some (cookieJarOf ⟨true, [.normal "q"]⟩), false, none⟩
    (cookieJarOf ⟨true, [.normal "q"]⟩) (by decide) rfl
  exact absurd hown (by decide)

end Afhttp.Fetch

import Afhttp.Fetch.DownloadRuns

/-!
# The names of downloads

The start that a fetch takes is of a download in its own tab (`announces_owns`), and the file
of that download has its name, with a number or without (`fileName_finalName`): a round does
not pass over it.

    the file of the download that a fetch expects qualifies        (named_qualifies)
-/

namespace Afhttp.Fetch

namespace DownloadWorld

section
variable {T : Type} {host : DownloadHost T} {F D : Type}

/-- Files have the names of their downloads, and starts those of downloads in the fetch's tab. -/
structure Named (w : DownloadWorld host F D) : Prop where
  files : ∀ path d, w.produced path = some d → ∃ download, w.downloads d = some download ∧
    (path.extension = some "crdownload" ∨ path.fileName.any (isDownloadNamed · download.name) = true)
  starts : ∀ f fetch, w.fetches f = some fetch → ∀ name ∈ fetch.expectedName,
    ∃ d download, w.downloads d = some download ∧ download.tab = fetch.tab ∧ download.name = name

theorem fileName_finalName (dir : PathBuf) (download : Download T) (number : Option ℕ) :
    (dir.push (finalName download number)).fileName.any (isDownloadNamed · download.name) = true := by
  rw [PathBuf.fileName_push, Option.any_some]
  cases number with
  | none => exact (isDownloadNamed_iff _ _).mpr (Or.inl rfl)
  | some n => exact isDownloadNamed_dedupName download.name n

end

section
variable {T : Type} [DecidableEq T] {host : DownloadHost T}

/-- A tab is told apart from others by what it gets from the browser. -/
theorem announces_owns {tab tab' : T} {name : String} {frames : TabFrames host tab} {event : CdpEvent}
    (ha : host.announces tab' name event = true) (ho : frames.owns event = true) :
    tab' = tab ∧ ∀ n ∈ event.field "suggestedFilename", n = name := by
  unfold DownloadHost.announces at ha
  rw [Bool.and_eq_true] at ha
  refine ⟨?_, fun n hn => ?_⟩
  · have hid := ha.1
    unfold DownloadFrames.owns at ho
    split at ho
    · next hpage =>
      rw [if_pos hpage] at hid
      rw [eq_of_beq ho, Option.any_some, frames.session] at hid
      exact (Option.some.inj (eq_of_beq hid)).symm
    · next hpage =>
      rw [if_neg hpage] at hid
      split at ho
      · next hbrowser =>
        rw [if_pos hbrowser] at hid
        cases hframe : (event.params.get "frameId").bind Json.asStr with
        | none =>
          rw [hframe] at ho
          cases ho
        | some frame =>
          rw [hframe, Option.any_some] at ho hid
          have hframeTab : host.frameTab frame = some tab := by
            rcases Bool.or_eq_true _ _ |>.mp ho with htarget | hmain
            · rw [eq_of_beq htarget]
              exact frames.target
            · exact frames.mainFrame frame (eq_of_beq hmain).symm
          rw [hframeTab] at hid
          exact (Option.some.inj (eq_of_beq hid)).symm
      · cases ho
  · have hname := ha.2
    rw [hn, Option.all_some] at hname
    exact eq_of_beq hname

end

section
variable {T : Type} {host : DownloadHost T} {F : Type} [DecidableEq F] {D : Type} {w : DownloadWorld host F D}

/-- One fetch goes on, with the start that it had. -/
theorem Named.put (hn : w.Named) {f : F} {fetch fetch' : DownloadFetch host D} (hf : w.fetches f = some fetch)
    (htab : fetch'.tab = fetch.tab) (hstart : fetch'.downloadStart = fetch.downloadStart) :
    (w.put f fetch').Named where
  files := hn.files
  starts f₁ fetch₁ hf₁ name hname := by
    rcases put_cases hf₁ with ⟨-, rfl⟩ | ⟨-, hf₁⟩
    · unfold DownloadFetch.expectedName at hname
      rw [hstart] at hname
      rw [htab]
      exact hn.starts f fetch hf name hname
    · exact hn.starts f₁ fetch₁ hf₁ name hname

end

section
variable {T D : Type} [DecidableEq D]

/-- A download that begins or goes on keeps its tab and its name. -/
theorem update_renews {downloads : D → Option (Download T)} {d : D} (download : Download T)
    (h : ∀ old, downloads d = some old → old.tab = download.tab ∧ old.name = download.name) {d₁ : D}
    {old : Download T} (hold : downloads d₁ = some old) :
    ∃ new, Function.update downloads d (some download) d₁ = some new ∧ new.tab = old.tab ∧ new.name = old.name := by
  by_cases heq : d₁ = d
  · subst heq
    obtain ⟨htab, hname⟩ := h old hold
    exact ⟨download, Function.update_self .., htab.symm, hname.symm⟩
  · exact ⟨old, by rw [Function.update_of_ne heq, hold], rfl, rfl⟩

end

section
variable {T : Type} [DecidableEq T] {host : DownloadHost T} {F D : Type} [DecidableEq F] [DecidableEq D]
  {w w' : DownloadWorld host F D}

theorem Named.begin (hn : w.Named) {d : D} {tab : T} {name : String} {file : PartialFile}
    (h : w.step (.begin d tab name file) = some w') : w'.Named := by
  unfold DownloadWorld.step at h
  simp only [] at h
  split at h
  · cases h
  · next hfresh =>
    split at h
    · cases h
    · cases h
      have hnew : ∀ old, w.downloads d = some old → old.tab = tab ∧ old.name = name := by
        intro old hold
        rw [hfresh] at hold
        cases hold
      constructor
      · intro path d₁ hp
        have hp : Function.update w.produced (host.dir.push file.name) (some d) path = some d₁ := hp
        by_cases hpath : path = host.dir.push file.name
        · rw [hpath, Function.update_self] at hp
          cases hp
          refine ⟨⟨tab, name, file, false⟩, Function.update_self .., Or.inl ?_⟩
          rw [hpath]
          exact partial_ext _ file
        · rw [Function.update_of_ne hpath] at hp
          obtain ⟨old, hold, hname⟩ := hn.files path d₁ hp
          obtain ⟨new, hnew, -, hsame⟩ := update_renews ⟨tab, name, file, false⟩ hnew hold
          exact ⟨new, hnew, by rw [hsame]; exact hname⟩
      · intro f fetch' hf expected hexpected
        obtain ⟨fetch, hfetch, rfl⟩ := Option.map_eq_some_iff.mp hf
        have hsame : (fetch.hears d tab).tab = fetch.tab ∧
            (fetch.hears d tab).expectedName = fetch.expectedName := by
          unfold DownloadFetch.hears
          split
          · exact ⟨rfl, rfl⟩
          · split
            · exact ⟨rfl, rfl⟩
            · exact ⟨rfl, rfl⟩
        rw [hsame.2] at hexpected
        rw [hsame.1]
        obtain ⟨d₁, old, hold, htab, hname⟩ := hn.starts f fetch hfetch expected hexpected
        obtain ⟨new, hnew, htab', hname'⟩ := update_renews ⟨tab, name, file, false⟩ hnew hold
        exact ⟨d₁, new, hnew, htab'.trans htab, hname'.trans hname⟩

theorem Named.finish (hn : w.Named) {d : D} {number : Option ℕ} (h : w.step (.finish d number) = some w') :
    w'.Named := by
  unfold DownloadWorld.step at h
  obtain ⟨download, hdownload, h⟩ := Option.bind_eq_some_iff.mp h
  obtain ⟨file, -, h⟩ := Option.bind_eq_some_iff.mp h
  simp only [] at h
  split at h
  · cases h
    have hsame : ∀ old, w.downloads d = some old → old.tab = download.tab ∧ old.name = download.name := by
      intro old hold
      rw [hdownload] at hold
      cases hold
      exact ⟨rfl, rfl⟩
    constructor
    · intro path d₁ hp
      have hp : Function.update (Function.update w.produced (partialPath host download) none)
        (host.dir.push (finalName download number)) (some d) path = some d₁ := hp
      by_cases hfinal : path = host.dir.push (finalName download number)
      · rw [hfinal, Function.update_self] at hp
        cases hp
        refine ⟨{ download with finished := true }, Function.update_self .., Or.inr ?_⟩
        rw [hfinal]
        exact fileName_finalName host.dir download number
      · rw [Function.update_of_ne hfinal] at hp
        by_cases hother : path = partialPath host download
        · rw [hother, Function.update_self] at hp
          cases hp
        · rw [Function.update_of_ne hother] at hp
          obtain ⟨old, hold, hname⟩ := hn.files path d₁ hp
          obtain ⟨new, hnew, -, heq⟩ := update_renews { download with finished := true } hsame hold
          exact ⟨new, hnew, by rw [heq]; exact hname⟩
    · intro f fetch hf expected hexpected
      obtain ⟨d₁, old, hold, htab, hname⟩ := hn.starts f fetch hf expected hexpected
      obtain ⟨new, hnew, htab', hname'⟩ := update_renews { download with finished := true } hsame hold
      exact ⟨d₁, new, hnew, htab'.trans htab, hname'.trans hname⟩
  · cases h

theorem Named.step {e : DownloadEvent host F D} (hn : w.Named) (h : w.step e = some w') : w'.Named := by
  cases e with
  | subscribe f url tab frames =>
    unfold DownloadWorld.step at h
    simp only [] at h
    split at h
    · cases h
    · cases h
      refine ⟨hn.files, fun f₁ fetch₁ hf₁ name hname => ?_⟩
      rcases put_cases hf₁ with ⟨-, rfl⟩ | ⟨-, hf₁⟩
      · cases hname
      · exact hn.starts f₁ fetch₁ hf₁ name hname
  | snapshot f listing =>
    unfold DownloadWorld.step at h
    obtain ⟨fetch, hf, h⟩ := Option.bind_eq_some_iff.mp h
    split at h
    · cases h
      exact hn.put hf rfl rfl
    · cases h
  | receive f event d =>
    unfold DownloadWorld.step at h
    obtain ⟨fetch, hf, h⟩ := Option.bind_eq_some_iff.mp h
    obtain ⟨download, hd, h⟩ := Option.bind_eq_some_iff.mp h
    split at h
    · next hguard =>
      cases h
      refine ⟨hn.files, fun f₁ fetch₁ hf₁ name hname => ?_⟩
      rcases put_cases hf₁ with ⟨-, rfl⟩ | ⟨-, hf₁⟩
      · -- the fetch has taken the event for its own tab's
        obtain ⟨start, hstart, hsuggested⟩ := Option.bind_eq_some_iff.mp hname
        have hstart : downloadStartFromEvent event fetch.frames.toDownloadFrames = some start := hstart
        unfold downloadStartFromEvent at hstart
        split at hstart
        · next howns =>
          cases hstart
          obtain ⟨htab, hnames⟩ := announces_owns hguard.2.2 howns
          exact ⟨d, download, hd, htab, (hnames name hsuggested).symm⟩
        · cases hstart
      · exact hn.starts f₁ fetch₁ hf₁ name hname
    · cases h
  | navigated f navigate =>
    unfold DownloadWorld.step at h
    obtain ⟨fetch, hf, h⟩ := Option.bind_eq_some_iff.mp h
    split at h
    · cases h
      exact hn.put hf rfl rfl
    · cases h
  | look f listing size1 size2 =>
    unfold DownloadWorld.step at h
    obtain ⟨fetch, hf, h⟩ := Option.bind_eq_some_iff.mp h
    split at h
    · split at h
      · cases h
        exact hn.put hf rfl rfl
      · cases h
        exact hn
    · cases h
  | expire f =>
    unfold DownloadWorld.step at h
    obtain ⟨fetch, hf, h⟩ := Option.bind_eq_some_iff.mp h
    split at h
    · cases h
      exact hn.put hf rfl rfl
    · cases h
  | begin d tab name file => exact hn.begin h
  | write d modified =>
    unfold DownloadWorld.step at h
    obtain ⟨download, -, h⟩ := Option.bind_eq_some_iff.mp h
    split at h
    · cases h
    · cases h
      exact ⟨hn.files, hn.starts⟩
  | finish d number => exact hn.finish h

/-- **A fetch's own file qualifies.**  The name that a fetch expects is that of a download in
its tab, and the file of that download qualifies once it has finished, if it is new. -/
theorem named_qualifies (files : AList fun _ : PathBuf => FileMeta) {es : List (DownloadEvent host F D)}
    (h : Run.run DownloadWorld.step (start files) es = some w) {f : F} {fetch : DownloadFetch host D}
    (hf : w.fetches f = some fetch) {name : String} (hname : fetch.expectedName = some name) :
    ∃ d download, w.downloads d = some download ∧ download.tab = fetch.tab ∧ download.name = name ∧
      ∀ entry : DirEntry, w.produced entry.path = some d → entry.path.extension ≠ some "crdownload" →
        entry.path ∉ fetch.downloadsBefore → entry.isFile = true →
          qualifies fetch.downloadsBefore fetch.expectedName entry = true := by
  have hnamed : w.Named := by
    refine Run.run_invariant DownloadWorld.step (I := Named) ?_ (fun s e s' hs he => hs.step he) h
    constructor
    · intro path d hp
      cases hp
    · intro f fetch hf
      cases hf
  obtain ⟨d, download, hd, htab, hdname⟩ := hnamed.starts f fetch hf name hname
  refine ⟨d, download, hd, htab, hdname, fun entry hproduced hext hnew hfile => ?_⟩
  obtain ⟨download', hd', hfileName⟩ := hnamed.files entry.path d hproduced
  rw [hd] at hd'
  cases hd'
  have hmatch := hfileName.resolve_left hext
  rw [hdname] at hmatch
  unfold qualifies
  rw [hname, Option.any_some, hmatch, hfile]
  simp [hnew, hext]

end

end DownloadWorld

end Afhttp.Fetch

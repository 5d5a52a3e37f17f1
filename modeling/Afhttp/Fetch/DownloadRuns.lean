import Afhttp.Fetch.DownloadDir
import Afhttp.Lib.Run

/-!
# Downloads are attributed

A round takes the first of the newest files that qualify.  Where two downloads have one name,
or one has the numbered name of the other, that may be another fetch's (`neighbours_file`).

    a round finds a file of the fetch's own iff one of these comes first      (ownFirst_iff)
    every report is right iff every round that ends a fetch has its own first (download_attribution)
    it is where no other new file has such a name                             (apart_attributed)
-/

namespace Afhttp.Fetch

namespace DownloadWorld

section
variable {T : Type} {host : DownloadHost T} {F D : Type} {w : DownloadWorld host F D}

/-! ## One round -/

theorem found_some {fetch : DownloadFetch host D} {listing : List PathBuf} {size1 size2 : Option ℕ}
    {downloaded : CompletedDownload} (h : w.found fetch listing size1 size2 = some downloaded) :
    (size1.isSome = true ∧ size1 = size2) ∧
      ∃ entry ∈ (w.candidates fetch listing).argmax DirEntry.mtime, entry.path = downloaded.path := by
  unfold found waitRound at h
  rw [newestCompletedDownload_eq] at h
  split at h
  · cases h
  · next path hpath =>
    obtain ⟨entry, hentry, rfl⟩ := Option.map_eq_some_iff.mp hpath
    split at h
    · next a b =>
      split at h
      · next hab =>
        cases h
        exact ⟨⟨rfl, by rw [hab]⟩, entry, hentry, rfl⟩
      · cases h
    · cases h

theorem found_none {fetch : DownloadFetch host D} {listing : List PathBuf} {size1 size2 : Option ℕ}
    (h : w.found fetch listing size1 size2 = none) (hs : size1.isSome = true ∧ size1 = size2) :
    w.candidates fetch listing = [] := by
  obtain ⟨a, rfl⟩ := Option.isSome_iff_exists.mp hs.1
  obtain rfl := hs.2
  unfold found waitRound at h
  rw [newestCompletedDownload_eq] at h
  split at h
  · next hnone => exact List.argmax_eq_none.mp (Option.map_eq_none_iff.mp hnone)
  · simp at h

/-- **One round** finds a file of the fetch's own exactly where one of these comes first. -/
theorem ownFirst_iff {fetch : DownloadFetch host D} {listing : List PathBuf} {first : DirEntry}
    (h : first ∈ (w.candidates fetch listing).argmax DirEntry.mtime) :
    w.OwnFirst fetch listing ↔ w.IsOwn fetch first.path := by
  obtain ⟨hmem, hmax, hfirst⟩ := List.mem_argmax_iff.mp h
  constructor
  · intro hown
    by_contra hforeign
    obtain ⟨entry, he, -, hnewer | ⟨hsame, hbefore⟩⟩ := hown first hmem hforeign
    · have hle := hmax entry he
      omega
    · have hle := hfirst entry he hsame.le
      omega
  · intro hown other ho hforeign
    refine ⟨first, hmem, hown, ?_⟩
    have hle := hmax other ho
    by_cases hlt : other.mtime < first.mtime
    · exact Or.inl hlt
    · right
      have hsame : other.mtime = first.mtime := by omega
      have hbefore := hfirst other ho hsame.ge
      refine ⟨hsame, lt_of_le_of_ne hbefore fun hidx => ?_⟩
      have heq : first = other := (List.idxOf_inj hmem).mp hidx
      rw [heq] at hown
      exact hforeign hown

theorem candidate_settled {fetch : DownloadFetch host D} {listing : List PathBuf} {entry : DirEntry}
    (h : entry ∈ w.candidates fetch listing) : entry.path ∈ w.files ∧ entry.path.extension ≠ some "crdownload" := by
  obtain ⟨hmem, hq⟩ := List.mem_filter.mp h
  obtain ⟨path, -, hpath⟩ := List.mem_filterMap.mp hmem
  obtain ⟨file, hfile, rfl⟩ := Option.map_eq_some_iff.mp hpath
  refine ⟨AList.lookup_isSome.mp (by rw [hfile]; rfl), fun hext => ?_⟩
  unfold qualifies at hq
  simp [hext] at hq

/-- No other download has a new file that the fetch would take for its own. -/
def Apart (w : DownloadWorld host F D) : DownloadEvent host F D → Prop
  | .look f _ _ _ => ∀ fetch ∈ w.fetches f, ∀ entry : DirEntry, entry.path ∈ w.files →
    qualifies fetch.downloadsBefore fetch.expectedName entry = true → w.IsOwn fetch entry.path
  | _ => True

theorem Apart.discerning {e : DownloadEvent host F D} (h : w.Apart e) : w.Discerning e := by
  cases e with
  | look f listing size1 size2 =>
    intro fetch hf _ other ho hforeign
    have hq := (List.mem_filter.mp ho).2
    exact absurd (h fetch hf other (candidate_settled ho).1 hq) hforeign
  | _ => trivial

/-! ## What a step does -/

/-- Finished files stay, and fetches go on, hearing of more downloads. -/
structure Keeps (w w' : DownloadWorld host F D) : Prop where
  files : ∀ path ∈ w.files, path.extension ≠ some "crdownload" → path ∈ w'.files ∧ w'.produced path = w.produced path
  fetches : ∀ f fetch', w'.fetches f = some fetch' →
    ∃ fetch, w.fetches f = some fetch ∧ fetch'.stage = fetch.stage ∧ fetch.own ⊆ fetch'.own

theorem Keeps.refl (w : DownloadWorld host F D) : w.Keeps w where
  files _ hp _ := ⟨hp, rfl⟩
  fetches _ fetch hf := ⟨fetch, hf, rfl, List.Subset.refl _⟩

theorem extension_push (dir : PathBuf) (name : String) :
    (dir.push name).extension = PathBuf.extension ⟨false, [.normal name]⟩ := by
  unfold PathBuf.extension
  rw [PathBuf.fileName_push]
  rfl

theorem partial_ext (dir : PathBuf) (file : PartialFile) :
    (dir.push file.name).extension = some "crdownload" := by
  rw [extension_push]
  exact file.ext

end

section
variable {T : Type} [DecidableEq T] {host : DownloadHost T} {D : Type}

theorem hears_stage (fetch : DownloadFetch host D) (d : D) (tab : T) :
    (fetch.hears d tab).stage = fetch.stage ∧ fetch.own ⊆ (fetch.hears d tab).own := by
  unfold DownloadFetch.hears
  split
  · exact ⟨rfl, List.Subset.refl _⟩
  · split
    · exact ⟨rfl, List.subset_append_left _ _⟩
    · exact ⟨rfl, List.Subset.refl _⟩

end

section
variable {T : Type} {host : DownloadHost T} {F : Type} [DecidableEq F] {D : Type} {w : DownloadWorld host F D}

theorem put_self (w : DownloadWorld host F D) (f : F) (fetch : DownloadFetch host D) :
    (w.put f fetch).fetches f = some fetch := Function.update_self ..

theorem put_cases {f f' : F} {fetch fetch' : DownloadFetch host D}
    (h : (w.put f fetch).fetches f' = some fetch') :
    (f' = f ∧ fetch' = fetch) ∨ (f' ≠ f ∧ w.fetches f' = some fetch') := by
  by_cases hf : f' = f
  · subst hf
    rw [put_self] at h
    exact Or.inl ⟨rfl, (Option.some.inj h).symm⟩
  · have hother : (w.put f fetch).fetches f' = w.fetches f' := Function.update_of_ne hf ..
    rw [hother] at h
    exact Or.inr ⟨hf, h⟩

end

section
variable {T : Type} [DecidableEq T] {host : DownloadHost T} {F D : Type} [DecidableEq F] [DecidableEq D]
  {w w' : DownloadWorld host F D}

theorem keeps_begin {d : D} {tab : T} {name : String} {file : PartialFile}
    (h : w.step (.begin d tab name file) = some w') : w.Keeps w' := by
  unfold step at h
  simp only [] at h
  split at h
  · cases h
  · split at h
    · cases h
    · cases h
      constructor
      · intro path hp hext
        have hne : path ≠ host.dir.push file.name := by
          rintro rfl
          exact hext (partial_ext _ file)
        refine ⟨AList.mem_insert _ |>.mpr (Or.inr hp), ?_⟩
        exact Function.update_of_ne hne _ _
      · intro f fetch' hf
        obtain ⟨fetch, hfetch, rfl⟩ := Option.map_eq_some_iff.mp hf
        exact ⟨fetch, hfetch, hears_stage fetch d tab⟩

theorem keeps_write {d : D} {modified : Option Int} (h : w.step (.write d modified) = some w') : w.Keeps w' := by
  unfold step at h
  obtain ⟨download, -, h⟩ := Option.bind_eq_some_iff.mp h
  split at h
  · cases h
  · cases h
    constructor
    · intro path hp _
      exact ⟨(AList.mem_insert _).mpr (Or.inr hp), rfl⟩
    · intro f fetch hf
      exact ⟨fetch, hf, rfl, List.Subset.refl _⟩

theorem keeps_finish {d : D} {number : Option ℕ} (h : w.step (.finish d number) = some w') : w.Keeps w' := by
  unfold step at h
  obtain ⟨download, -, h⟩ := Option.bind_eq_some_iff.mp h
  obtain ⟨file, -, h⟩ := Option.bind_eq_some_iff.mp h
  simp only [] at h
  split at h
  · next hguard =>
    cases h
    constructor
    · intro path hp hext
      have hother : path ≠ partialPath host download := by
        rintro rfl
        exact hext (partial_ext _ download.file)
      have hfinal : path ≠ host.dir.push (finalName download number) := by
        rintro rfl
        exact hguard.2.1 hp
      refine ⟨(AList.mem_insert _).mpr (Or.inr (AList.mem_erase.mpr ⟨hother, hp⟩)), ?_⟩
      show Function.update _ _ _ path = _
      rw [Function.update_of_ne hfinal, Function.update_of_ne hother]
    · intro f fetch hf
      exact ⟨fetch, hf, rfl, List.Subset.refl _⟩
  · cases h

/-- **What a step does.**  It leaves finished files and reports as they are, or moves one
fetch on without a report, or ends it with the file that a round has found. -/
theorem step_cases {e : DownloadEvent host F D} (h : w.step e = some w') :
    (w.Discerning e ∧ (w.Keeps w' ∨
      ∃ f fetch, w' = w.put f fetch ∧ ∀ report, fetch.stage ≠ .ended (.ok report))) ∨
    ∃ f fetch listing size1 size2 downloaded, e = .look f listing size1 size2 ∧ w.fetches f = some fetch ∧
      w.found fetch listing size1 size2 = some downloaded ∧ w' = w.put f { fetch with
        stage := .ended (.ok (finishDownload fetch.url fetch.downloadStart downloaded)) } := by
  cases e with
  | subscribe f url tab frames =>
    left
    unfold step at h
    simp only [] at h
    split at h
    · cases h
    · cases h
      exact ⟨trivial, Or.inr ⟨f, _, rfl, fun report hr => by cases hr⟩⟩
  | snapshot f listing =>
    left
    unfold step at h
    obtain ⟨fetch, -, h⟩ := Option.bind_eq_some_iff.mp h
    split at h
    · cases h
      exact ⟨trivial, Or.inr ⟨f, _, rfl, fun report hr => by cases hr⟩⟩
    · cases h
  | receive f event d =>
    left
    unfold step at h
    obtain ⟨fetch, -, h⟩ := Option.bind_eq_some_iff.mp h
    obtain ⟨download, -, h⟩ := Option.bind_eq_some_iff.mp h
    split at h
    · next hguard =>
      cases h
      refine ⟨trivial, Or.inr ⟨f, _, rfl, fun report hr => ?_⟩⟩
      have hstage : fetch.stage = .ended (.ok report) := hr
      rw [hguard.1] at hstage
      cases hstage
    · cases h
  | navigated f navigate =>
    left
    unfold step at h
    obtain ⟨fetch, -, h⟩ := Option.bind_eq_some_iff.mp h
    split at h
    · cases h
      exact ⟨trivial, Or.inr ⟨f, _, rfl, fun report hr => by cases hr⟩⟩
    · cases h
  | look f listing size1 size2 =>
    unfold step at h
    obtain ⟨fetch, hfetch, h⟩ := Option.bind_eq_some_iff.mp h
    split at h
    · split at h
      · next downloaded hfound =>
        right
        cases h
        exact ⟨f, fetch, listing, size1, size2, downloaded, rfl, hfetch, hfound, rfl⟩
      · next hnone =>
        left
        cases h
        refine ⟨?_, Or.inl (Keeps.refl w)⟩
        intro fetch' hf hsizes other ho
        rw [hfetch] at hf
        cases hf
        rw [found_none hnone hsizes] at ho
        cases ho
    · cases h
  | expire f =>
    left
    unfold step at h
    obtain ⟨fetch, -, h⟩ := Option.bind_eq_some_iff.mp h
    split at h
    · cases h
      exact ⟨trivial, Or.inr ⟨f, _, rfl, fun report hr => by cases hr⟩⟩
    · cases h
  | begin d tab name file => exact Or.inl ⟨trivial, Or.inl (keeps_begin h)⟩
  | write d modified => exact Or.inl ⟨trivial, Or.inl (keeps_write h)⟩
  | finish d number => exact Or.inl ⟨trivial, Or.inl (keeps_finish h)⟩

/-! ## What is reported -/

/-- What is reported has finished, and is there. -/
def Settled (w : DownloadWorld host F D) : Prop :=
  ∀ f fetch report, w.fetches f = some fetch → fetch.stage = .ended (.ok report) →
    report.downloadFile ∈ w.files ∧ report.downloadFile.extension ≠ some "crdownload"

theorem Settled.step {e : DownloadEvent host F D} (hs : w.Settled) (h : w.step e = some w') : w'.Settled := by
  intro f fetch report hf hstage
  rcases step_cases h with ⟨-, hkeeps | ⟨f', fetch', rfl, hquiet⟩⟩ |
    ⟨f', fetch', listing, size1, size2, downloaded, -, -, hfound, rfl⟩
  · obtain ⟨before, hb, hsame, -⟩ := hkeeps.fetches f fetch hf
    rw [hsame] at hstage
    obtain ⟨hmem, hext⟩ := hs f before report hb hstage
    exact ⟨(hkeeps.files _ hmem hext).1, hext⟩
  · rcases put_cases hf with ⟨-, rfl⟩ | ⟨-, hf⟩
    · exact absurd hstage (hquiet report)
    · exact hs f fetch report hf hstage
  · rcases put_cases hf with ⟨-, rfl⟩ | ⟨-, hf⟩
    · cases hstage
      obtain ⟨-, entry, hentry, hpath⟩ := found_some hfound
      show downloaded.path ∈ w.files ∧ downloaded.path.extension ≠ _
      rw [← hpath]
      exact candidate_settled (List.argmax_mem hentry)
    · exact hs f fetch report hf hstage

/-- **One step** keeps the reports right exactly where its round is discerning. -/
theorem attributed_step {e : DownloadEvent host F D} (hs : w.Settled) (ha : w.Attributed)
    (h : w.step e = some w') : w'.Attributed ↔ w.Discerning e := by
  rcases step_cases h with ⟨hdisc, hkeeps | ⟨f, fetch, rfl, hquiet⟩⟩ |
    ⟨f, fetch, listing, size1, size2, downloaded, rfl, hfetch, hfound, rfl⟩
  · refine iff_of_true ?_ hdisc
    intro f fetch report hf hstage
    obtain ⟨before, hb, hsame, hsub⟩ := hkeeps.fetches f fetch hf
    rw [hsame] at hstage
    obtain ⟨hmem, hext⟩ := hs f before report hb hstage
    obtain ⟨d, hd, hproduced⟩ := ha f before report hb hstage
    exact ⟨d, hsub hd, by rw [(hkeeps.files _ hmem hext).2, hproduced]⟩
  · refine iff_of_true ?_ hdisc
    intro f' fetch' report hf hstage
    rcases put_cases hf with ⟨-, rfl⟩ | ⟨-, hf⟩
    · exact absurd hstage (hquiet report)
    · exact ha f' fetch' report hf hstage
  · obtain ⟨hsizes, entry, hentry, hpath⟩ := found_some hfound
    have hround : w.Discerning (.look f listing size1 size2) ↔ w.IsOwn fetch downloaded.path := by
      rw [← hpath, ← ownFirst_iff hentry]
      constructor
      · intro hall
        exact hall fetch hfetch hsizes
      · intro hown fetch' hf _
        rw [hfetch] at hf
        cases hf
        exact hown
    rw [hround]
    constructor
    · intro hall
      have hself := put_self w f { fetch with
        stage := .ended (.ok (finishDownload fetch.url fetch.downloadStart downloaded)) }
      exact hall f _ _ hself rfl
    · intro hown f' fetch' report hf hstage
      rcases put_cases hf with ⟨-, rfl⟩ | ⟨-, hf⟩
      · cases hstage
        exact hown
      · exact ha f' fetch' report hf hstage

/-- **Downloads are attributed** in every state of a run exactly where every round that ends a
fetch has the fetch's own file first. -/
theorem download_attribution (files : AList fun _ : PathBuf => FileMeta) {es : List (DownloadEvent host F D)}
    (h : Run.run step (start files) es = some w) :
    Run.Always step Attributed (start files) es ↔ Run.RunMeets step Discerning (start files) es := by
  have hsettled : (start files : DownloadWorld host F D).Settled := fun f fetch report hf => by cases hf
  have hattributed : (start files : DownloadWorld host F D).Attributed := fun f fetch report hf => by cases hf
  exact Run.always_iff_runMeets step hsettled hattributed (fun s e s' hs he => hs.step he)
    (fun s e s' hs ha he => attributed_step hs ha he) h

/-- **Downloads with names apart** are attributed. -/
theorem apart_attributed (files : AList fun _ : PathBuf => FileMeta) {es : List (DownloadEvent host F D)}
    (hapart : Run.RunMeets step Apart (start files) es) (h : Run.run step (start files) es = some w) :
    w.Attributed := by
  have hboth : w.Settled ∧ w.Attributed := by
    refine Run.runMeets_invariant step (I := fun w => w.Settled ∧ w.Attributed) ⟨?_, ?_⟩ ?_
      (hapart.mono step fun s e => Apart.discerning) h
    · intro f fetch report hf
      cases hf
    · intro f fetch report hf
      cases hf
    · intro s e s' hs he hstep
      exact ⟨hs.1.step hstep, (attributed_step hs.1 hs.2 hstep).mpr he⟩
  exact hboth.2

end

/-! ## Two fetches side by side -/

/-- One profile with two tabs. -/
def neighbourHost : DownloadHost Bool where
  dir := ⟨true, [.normal "downloads"]⟩
  display := "/downloads"
  sessionTab s := if s = "S1" then some true else if s = "S2" then some false else none
  frameTab f := if f = "T1" then some true else if f = "T2" then some false else none

def tabFrames : (tab : Bool) → TabFrames neighbourHost tab
  | true => ⟨⟨"S1", "T1", none⟩, by decide, by decide, by decide⟩
  | false => ⟨⟨"S2", "T2", none⟩, by decide, by decide, by decide⟩

def partialFile (tab : Bool) : PartialFile :=
  if tab then ⟨"Unconfirmed 1.crdownload", by decide⟩ else ⟨"Unconfirmed 2.crdownload", by decide⟩

def downloaded (name : String) : PathBuf := neighbourHost.dir.push name

/-- A fetch in `tab` navigates to a download. -/
def navigates (tab : Bool) (name : String) : List (DownloadEvent neighbourHost Bool Bool) :=
  [.begin tab tab name (partialFile tab),
    .receive tab ⟨"Page.downloadWillBegin", some (tabFrames tab).sessionId,
      .obj [("frameId", .str (tabFrames tab).targetId), ("suggestedFilename", .str name)]⟩ tab,
    .navigated tab (.obj [("isDownload", .bool true)])]

/-- One fetch downloads a report, another fetch `theirs` a little later. -/
def sideBySide (theirs : String) (number : Option ℕ) (listing : List PathBuf) :
    List (DownloadEvent neighbourHost Bool Bool) :=
  [.subscribe true "https://a.test/report" true (tabFrames true), .snapshot true [],
    .subscribe false "https://b.test/" false (tabFrames false), .snapshot false []] ++
  navigates true "report.pdf" ++ navigates false theirs ++
  [.write true (some 1), .finish true none, .write false (some 2), .finish false number,
    .look true listing (some 4) (some 4)]

def noFiles : DownloadWorld neighbourHost Bool Bool := start ∅

/-- What the first fetch has reported, its own downloads, and that of the file. -/
def outcome (name : String) (w : DownloadWorld neighbourHost Bool Bool) :
    Option DownloadStage × Option (List Bool) × Option Bool :=
  ((w.fetches true).map (·.stage), (w.fetches true).map (·.own), w.produced (downloaded name))

def reportStage (name : String) : DownloadStage :=
  .ended (.ok ⟨downloaded name, 4, name, "https://a.test/report", "completed"⟩)

theorem download_attribution_apart :
    (Run.run step noFiles (sideBySide "other.bin" none [downloaded "report.pdf", downloaded "other.bin"])).map
      (outcome "report.pdf") = some (some (reportStage "report.pdf"), some [true], some true) ∧
    Run.Always step Attributed noFiles
      (sideBySide "other.bin" none [downloaded "report.pdf", downloaded "other.bin"]) := by
  have hf : (Run.run step noFiles
      (sideBySide "other.bin" none [downloaded "report.pdf", downloaded "other.bin"])).map
        (outcome "report.pdf") = some (some (reportStage "report.pdf"), some [true], some true) := by decide
  obtain ⟨w, hw, -⟩ := Option.map_eq_some_iff.mp hf
  exact ⟨hf, (download_attribution ∅ hw).mpr (by decide)⟩

/-- **The neighbour's file.**  Two fetches download files of one name.  The second finishes
later and gets the number; the first looks only then, and reports that file. -/
theorem neighbours_file :
    (Run.run step noFiles
      (sideBySide "report.pdf" (some 1) [downloaded "report.pdf", downloaded "report (1).pdf"])).map
        (outcome "report (1).pdf") = some (some (reportStage "report (1).pdf"), some [true], some false) ∧
    ¬Run.Always step Attributed noFiles
      (sideBySide "report.pdf" (some 1) [downloaded "report.pdf", downloaded "report (1).pdf"]) := by
  have hf : (Run.run step noFiles
      (sideBySide "report.pdf" (some 1) [downloaded "report.pdf", downloaded "report (1).pdf"])).map
        (outcome "report (1).pdf") = some (some (reportStage "report (1).pdf"), some [true], some false) := by decide
  refine ⟨hf, fun hall => ?_⟩
  obtain ⟨w, hw, ho⟩ := Option.map_eq_some_iff.mp hf
  simp only [outcome, Prod.mk.injEq, Option.map_eq_some_iff] at ho
  obtain ⟨⟨fetch, hfetch, hstage⟩, ⟨fetch', hfetch', hown⟩, hproduced⟩ := ho
  rw [hfetch] at hfetch'
  cases hfetch'
  obtain ⟨d, hd, hp⟩ := hall _ [] w (List.append_nil _).symm hw true fetch _ hfetch hstage
  have hpath : w.produced (downloaded "report (1).pdf") = some d := hp
  rw [hown] at hd
  rw [hproduced] at hpath
  cases hpath
  exact absurd hd (by decide)

end DownloadWorld

end Afhttp.Fetch

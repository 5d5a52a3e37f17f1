import Afhttp.Fetch.Download

/-!
# A directory that fetches share

Any number of fetches on one profile, and the downloads of its browser, in any order.  The
browser writes a download to a partial file and moves that to the announced name, or to the
name with a number where it is taken.  A fetch should report the file of a download that its
own tab has begun since it listens (`Attributed`).  The condition for it is on the rounds that
may end a fetch (`Discerning`).
-/

namespace Afhttp.Fetch

/-- The name that a download is written under. -/
structure PartialFile where
  name : String
  ext : PathBuf.extension ⟨false, [.normal name]⟩ = some "crdownload"

/-- The downloads directory, and the tabs that sessions and frames belong to. -/
structure DownloadHost (T : Type) where
  dir : PathBuf
  /-- `dir.display()`. -/
  display : String
  sessionTab : String → Option T
  frameTab : String → Option T

/-- The ids of one tab. -/
structure TabFrames {T : Type} (host : DownloadHost T) (tab : T) extends DownloadFrames where
  session : host.sessionTab sessionId = some tab
  target : host.frameTab targetId = some tab
  mainFrame : ∀ frame ∈ mainFrameId, host.frameTab frame = some tab

inductive DownloadStage where
  | subscribed
  | navigating
  | waiting
  | ended (result : Except Error DownloadReport)
  deriving DecidableEq

structure DownloadFetch {T : Type} (host : DownloadHost T) (D : Type) where
  url : String
  tab : T
  frames : TabFrames host tab
  downloadsBefore : List PathBuf
  downloadStart : Option DownloadStart
  stage : DownloadStage
  /-- The downloads that its tab has begun since it listens. -/
  own : List D

structure FileMeta where
  isFile : Bool
  modified : Option Int
  deriving DecidableEq

structure Download (T : Type) where
  tab : T
  name : String
  file : PartialFile
  finished : Bool

structure DownloadWorld {T : Type} (host : DownloadHost T) (F D : Type) where
  files : AList fun _ : PathBuf => FileMeta
  /-- The download that a file is of. -/
  produced : PathBuf → Option D
  downloads : D → Option (Download T)
  fetches : F → Option (DownloadFetch host D)

inductive DownloadEvent {T : Type} (host : DownloadHost T) (F D : Type) where
  | subscribe (f : F) (url : String) (tab : T) (frames : TabFrames host tab)
  /-- `snapshot_download_dir`; an empty listing where it fails. -/
  | snapshot (f : F) (listing : List PathBuf)
  /-- The browser's event for a download. -/
  | receive (f : F) (event : CdpEvent) (d : D)
  /-- `Page.navigate` has answered. -/
  | navigated (f : F) (navigate : Json)
  /-- One round of `wait_for_download_file`: what it lists, and the sizes that it reads later. -/
  | look (f : F) (listing : List PathBuf) (size1 size2 : Option ℕ)
  | expire (f : F)
  /-- The browser starts to write. -/
  | begin (d : D) (tab : T) (name : String) (file : PartialFile)
  | write (d : D) (modified : Option Int)
  /-- It renames the partial file, with a number if the name is taken. -/
  | finish (d : D) (number : Option ℕ)

/-! ## What is there, and what should be reported -/

section
variable {T : Type} {host : DownloadHost T} {F D : Type}

def DownloadFetch.expectedName (fetch : DownloadFetch host D) : Option String :=
  fetch.downloadStart.bind (·.suggestedFilename)
namespace DownloadWorld

/-- The entries that a listing leads to. -/
def list (w : DownloadWorld host F D) (listing : List PathBuf) : List DirEntry :=
  listing.filterMap fun path => (w.files.lookup path).map fun file => ⟨path, file.isFile, file.modified⟩

/-- What one round finds. -/
def found (w : DownloadWorld host F D) (fetch : DownloadFetch host D) (listing : List PathBuf)
    (size1 size2 : Option ℕ) : Option CompletedDownload :=
  waitRound fetch.downloadsBefore fetch.expectedName (w.list listing) size1 size2

/-- The path of the file of a download that goes on. -/
def partialPath (host : DownloadHost T) (download : Download T) : PathBuf := host.dir.push download.file.name

def finalName (download : Download T) : Option ℕ → String
  | none => download.name
  | some n => dedupName download.name n

/-- The file is of a download that the fetch's tab has begun since it listens. -/
def IsOwn (w : DownloadWorld host F D) (fetch : DownloadFetch host D) (path : PathBuf) : Prop :=
  ∃ d ∈ fetch.own, w.produced path = some d

instance [DecidableEq D] (w : DownloadWorld host F D) (fetch : DownloadFetch host D) (path : PathBuf) :
    Decidable (w.IsOwn fetch path) :=
  inferInstanceAs (Decidable (∃ d ∈ fetch.own, _))

/-- Every file that a fetch has reported is its own. -/
def Attributed (w : DownloadWorld host F D) : Prop :=
  ∀ f fetch report, w.fetches f = some fetch → fetch.stage = .ended (.ok report) → w.IsOwn fetch report.downloadFile

/-- The entries that may be the fetch's. -/
def candidates (w : DownloadWorld host F D) (fetch : DownloadFetch host D) (listing : List PathBuf) : List DirEntry :=
  (w.list listing).filter (qualifies fetch.downloadsBefore fetch.expectedName)

/-- Each of them that is not its own comes after one that is: it is older, or as old and listed
later. -/
def OwnFirst (w : DownloadWorld host F D) (fetch : DownloadFetch host D) (listing : List PathBuf) : Prop :=
  ∀ other ∈ w.candidates fetch listing, ¬w.IsOwn fetch other.path →
    ∃ entry ∈ w.candidates fetch listing, w.IsOwn fetch entry.path ∧ (other.mtime < entry.mtime ∨
      other.mtime = entry.mtime ∧
        (w.candidates fetch listing).idxOf entry < (w.candidates fetch listing).idxOf other)

instance [DecidableEq D] (w : DownloadWorld host F D) (fetch : DownloadFetch host D) (listing : List PathBuf) :
    Decidable (w.OwnFirst fetch listing) :=
  inferInstanceAs (Decidable (∀ other ∈ w.candidates fetch listing, _ → ∃ entry ∈ w.candidates fetch listing, _))

/-- A round that may end a fetch has the fetch's own file first. -/
def Discerning (w : DownloadWorld host F D) : DownloadEvent host F D → Prop
  | .look f listing size1 size2 =>
    ∀ fetch ∈ w.fetches f, size1.isSome = true ∧ size1 = size2 → w.OwnFirst fetch listing
  | _ => True

instance [DecidableEq D] (w : DownloadWorld host F D) (e : DownloadEvent host F D) : Decidable (w.Discerning e) :=
  match e with
  | .look f listing _ _ => inferInstanceAs (Decidable (∀ fetch ∈ w.fetches f, _ → w.OwnFirst fetch listing))
  | .subscribe .. | .snapshot .. | .receive .. | .navigated .. | .expire .. | .begin .. | .write .. | .finish .. =>
    .isTrue trivial

end DownloadWorld

end

/-! ## The steps -/

section
variable {T : Type} [DecidableEq T] {host : DownloadHost T} {F D : Type}

/-- The event is the browser's word that a download of this name has begun in `tab`. -/
def DownloadHost.announces (host : DownloadHost T) (tab : T) (name : String) (event : CdpEvent) : Bool :=
  (if event.method = "Page.downloadWillBegin" then event.sessionId.any fun s => host.sessionTab s == some tab
  else if event.method = "Browser.downloadWillBegin" then
    ((event.params.get "frameId").bind Json.asStr).any fun frame => host.frameTab frame == some tab
  else false) && (event.field "suggestedFilename").all (· == name)

/-- A download begins in `tab`. -/
def DownloadFetch.hears (fetch : DownloadFetch host D) (d : D) (tab : T) : DownloadFetch host D :=
  match fetch.stage with
  | .ended _ => fetch
  | _ => if fetch.tab = tab then { fetch with own := fetch.own ++ [d] } else fetch

namespace DownloadWorld

variable [DecidableEq F] [DecidableEq D]

def start (files : AList fun _ : PathBuf => FileMeta) : DownloadWorld host F D where
  files := files
  produced := fun _ => none
  downloads := fun _ => none
  fetches := fun _ => none

def put (w : DownloadWorld host F D) (f : F) (fetch : DownloadFetch host D) : DownloadWorld host F D :=
  { w with fetches := Function.update w.fetches f (some fetch) }

def step (w : DownloadWorld host F D) : DownloadEvent host F D → Option (DownloadWorld host F D)
  | .subscribe f url tab frames =>
    match w.fetches f with
    | some _ => none
    | none => some (w.put f ⟨url, tab, frames, [], none, .subscribed, []⟩)
  | .snapshot f listing => do
    let fetch ← w.fetches f
    if fetch.stage = .subscribed ∧ ∀ path ∈ listing, path ∈ w.files then
      return w.put f { fetch with downloadsBefore := listing, stage := .navigating }
    else none
  | .receive f event d => do
    let fetch ← w.fetches f
    let download ← w.downloads d
    if fetch.stage = .navigating ∧ fetch.downloadStart = none ∧
        host.announces download.tab download.name event = true then
      return w.put f { fetch with downloadStart := downloadStartFromEvent event fetch.frames.toDownloadFrames }
    else none
  | .navigated f navigate => do
    let fetch ← w.fetches f
    if fetch.stage = .navigating ∧ navigationBecameDownload navigate fetch.downloadStart = true then
      return w.put f { fetch with stage := .waiting }
    else none
  | .look f listing size1 size2 => do
    let fetch ← w.fetches f
    if fetch.stage = .waiting then
      match w.found fetch listing size1 size2 with
      | some downloaded =>
        return w.put f { fetch with
          stage := .ended (.ok (finishDownload fetch.url fetch.downloadStart downloaded)) }
      | none => return w
    else none
  | .expire f => do
    let fetch ← w.fetches f
    if fetch.stage = .waiting then
      return w.put f { fetch with
        stage := .ended (.error (.new .navigationTimeout s!"download did not complete in {host.display}")) }
    else none
  | .begin d tab name file =>
    let path := host.dir.push file.name
    match w.downloads d with
    | some _ => none
    | none =>
      if path ∈ w.files then none
      else
        some {
          files := w.files.insert path ⟨true, none⟩
          produced := Function.update w.produced path (some d)
          downloads := Function.update w.downloads d (some ⟨tab, name, file, false⟩)
          fetches := fun f => (w.fetches f).map (·.hears d tab) }
  | .write d modified => do
    let download ← w.downloads d
    if download.finished then none
    else return { w with files := w.files.insert (partialPath host download) ⟨true, modified⟩ }
  | .finish d number => do
    let download ← w.downloads d
    let file ← w.files.lookup (partialPath host download)
    let path := host.dir.push (finalName download number)
    if download.finished = false ∧ path ∉ w.files ∧ (number.isSome → host.dir.push download.name ∈ w.files) then
      return { w with
        files := (w.files.erase (partialPath host download)).insert path file
        produced := Function.update (Function.update w.produced (partialPath host download) none) path (some d)
        downloads := Function.update w.downloads d (some { download with finished := true }) }
    else none

end DownloadWorld

end

end Afhttp.Fetch

import Afhttp.Shared.Error
import Afhttp.Shared.Json
import Afhttp.Shared.Path
import Mathlib

/-!
# Downloads

`sdk/fetch/pipeline/browser/download.rs`: a navigation that becomes a download, and the file
that is taken for it.  The directory belongs to the profile.  A file is a fetch's if it was not
there before the navigation, is no partial file, has the name that the browser has announced
or that name with a number, and is the newest of those.
-/

namespace Afhttp.Fetch

open Text

/-! ## Names -/

/-- The name up to its last dot, and the rest, unless it begins with that dot. -/
def splitExtension (expected : String) : String × String :=
  match (beforeLast '.' expected).filter (· ≠ "") with
  | some stem => (stem, String.ofList (expected.toList.drop stem.toList.length))
  | none => (expected, "")

/-- `name` is `expected`, or `expected` with a ` (N)` before its extension. -/
def isDownloadNamed (name expected : String) : Bool :=
  let (stem, ext) := splitExtension expected
  name == expected || ((stripCircumfix name stem ext).bind (stripCircumfix · " (" ")")).any
    fun n => n != "" && n.toList.all Char.isDigit

/-- The name that the browser gives a file whose name is taken. -/
def dedupName (suggested : String) (n : ℕ) : String :=
  let (stem, ext) := splitExtension suggested
  stem ++ (" (" ++ toString n ++ ")") ++ ext

theorem isDownloadNamed_iff (name expected : String) : isDownloadNamed name expected = true ↔
    name = expected ∨ ∃ n, n ≠ "" ∧ n.toList.all Char.isDigit = true ∧
      name = (splitExtension expected).1 ++ (" (" ++ n ++ ")") ++ (splitExtension expected).2 := by
  unfold isDownloadNamed
  simp only [Bool.or_eq_true, beq_iff_eq, Option.any_eq_true, Option.bind_eq_some_iff, stripCircumfix_eq_some,
    Bool.and_eq_true, bne_iff_ne]
  apply or_congr_right
  constructor
  · rintro ⟨n, ⟨_, hname, rfl⟩, hne, hdigits⟩
    exact ⟨n, hne, hdigits, hname⟩
  · rintro ⟨n, hne, hdigits, hname⟩
    exact ⟨n, ⟨_, hname, rfl⟩, hne, hdigits⟩

/-- The browser's names for a download are taken for it. -/
theorem isDownloadNamed_dedupName (suggested : String) (n : ℕ) :
    isDownloadNamed (dedupName suggested n) suggested = true := by
  rw [isDownloadNamed_iff]
  right
  have hdigits : (toString n).toList = Nat.toDigits 10 n := by
    show (String.ofList (Nat.toDigits 10 n)).toList = _
    rw [String.toList_ofList]
  refine ⟨toString n, ?_, ?_, rfl⟩
  · intro hnone
    have hempty : Nat.toDigits 10 n = [] := by
      rw [← hdigits, hnone]
      rfl
    exact Nat.toDigits_ne_nil hempty
  · rw [hdigits, List.all_eq_true]
    intro c hc
    exact Nat.isDigit_of_mem_toDigits (by omega) (by omega) hc

example : isDownloadNamed "a.tar (2).gz" "a.tar.gz" = true ∧
    isDownloadNamed "report (x).pdf" "report.pdf" = false := by decide

/-! ## The start of a download -/

structure CdpEvent where
  method : String
  sessionId : Option String
  params : Json

/-- What identifies the tab of a fetch in download events. -/
structure DownloadFrames where
  sessionId : String
  targetId : String
  mainFrameId : Option String
  deriving DecidableEq

def DownloadFrames.owns (frames : DownloadFrames) (event : CdpEvent) : Bool :=
  if event.method = "Page.downloadWillBegin" then event.sessionId == some frames.sessionId
  else if event.method = "Browser.downloadWillBegin" then
    ((event.params.get "frameId").bind Json.asStr).any fun frame =>
      frame == frames.targetId || some frame == frames.mainFrameId
  else false

def CdpEvent.field (event : CdpEvent) (name : String) : Option String :=
  ((event.params.get name).bind Json.asStr).filter (· ≠ "")

structure DownloadStart where
  url : Option String
  suggestedFilename : Option String
  deriving DecidableEq

def downloadStartFromEvent (event : CdpEvent) (frames : DownloadFrames) : Option DownloadStart :=
  if frames.owns event then some ⟨event.field "url", event.field "suggestedFilename"⟩ else none

def navigateHasDownloadFlag (navigate : Json) : Bool :=
  ((navigate.get "isDownload").bind Json.asBool).getD false

def navigationBecameDownload (navigate : Json) (downloadStart : Option DownloadStart) : Bool :=
  downloadStart.isSome || navigateHasDownloadFlag navigate

/-! ## The file -/

/-- An entry of the directory, with what its metadata says.  A time is `none` where the system
keeps none. -/
structure DirEntry where
  path : PathBuf
  isFile : Bool
  modified : Option Int
  deriving DecidableEq

/-- Without a time, 1970. -/
def DirEntry.mtime (entry : DirEntry) : Int := entry.modified.getD 0

structure CompletedDownload where
  path : PathBuf
  bytes : ℕ
  filename : String
  deriving DecidableEq

section
variable (before : List PathBuf) (expectedName : Option String)

/-- One entry of the loop of `newest_completed_download`. -/
def considerEntry (newest : Option (Int × PathBuf)) (entry : DirEntry) : Option (Int × PathBuf) :=
  if before.contains entry.path || entry.path.extension == some "crdownload" then newest
  else if expectedName.any fun expected => !entry.path.fileName.any (isDownloadNamed · expected) then newest
  else if !entry.isFile then newest
  else
    match newest with
    | some (current, path) => if current < entry.mtime then some (entry.mtime, entry.path) else some (current, path)
    | none => some (entry.mtime, entry.path)

def newestCompletedDownload (entries : List DirEntry) : Option PathBuf :=
  (entries.foldl (considerEntry before expectedName) none).map Prod.snd

/-- One round of `wait_for_download_file`: the entries that it lists, and the size of what it
finds, read twice. -/
def waitRound (entries : List DirEntry) (size1 size2 : Option ℕ) : Option CompletedDownload :=
  match newestCompletedDownload before expectedName entries with
  | none => none
  | some path =>
    match size1, size2 with
    | some a, some b => if a = b then some ⟨path, b, path.fileName.getD "download"⟩ else none
    | _, _ => none

/-- The entry may be the fetch's. -/
def qualifies (entry : DirEntry) : Bool :=
  !(before.contains entry.path || entry.path.extension == some "crdownload") &&
    !(expectedName.any fun expected => !entry.path.fileName.any (isDownloadNamed · expected)) && entry.isFile

variable {before expectedName}

theorem considerEntry_eq (newest : Option DirEntry) (entry : DirEntry) :
    considerEntry before expectedName (newest.map fun e => (e.mtime, e.path)) entry =
      (if qualifies before expectedName entry then List.argAux (fun b c => c.mtime < b.mtime) newest entry
        else newest).map fun e => (e.mtime, e.path) := by
  unfold considerEntry qualifies
  cases before.contains entry.path || entry.path.extension == some "crdownload" with
  | true => rfl
  | false =>
    cases expectedName.any fun expected => !entry.path.fileName.any (isDownloadNamed · expected) with
    | true => rfl
    | false =>
      cases entry.isFile with
      | false => rfl
      | true =>
        cases newest with
        | none => rfl
        | some current =>
          by_cases hnewer : current.mtime < entry.mtime
          · simp [List.argAux, hnewer]
          · simp [List.argAux, hnewer]

/-- **The file of a round** is the first of the newest that qualify. -/
theorem newestCompletedDownload_eq (entries : List DirEntry) : newestCompletedDownload before expectedName entries =
    ((entries.filter (qualifies before expectedName)).argmax DirEntry.mtime).map DirEntry.path := by
  have hfold : ∀ (l : List DirEntry) (newest : Option DirEntry),
      l.foldl (considerEntry before expectedName) (newest.map fun e => (e.mtime, e.path)) =
        ((l.filter (qualifies before expectedName)).foldl (List.argAux fun b c => c.mtime < b.mtime)
          newest).map fun e => (e.mtime, e.path) := by
    intro l
    induction l with
    | nil => exact fun newest => rfl
    | cons entry l ih =>
      intro newest
      rw [List.foldl_cons, considerEntry_eq, ih]
      cases hq : qualifies before expectedName entry with
      | true => rw [List.filter_cons_of_pos hq, List.foldl_cons, if_pos rfl]
      | false =>
        rw [List.filter_cons_of_neg (by rw [hq]; exact Bool.false_ne_true), if_neg Bool.false_ne_true]
  have h := congrArg (Option.map Prod.snd) (hfold entries none)
  rw [Option.map_map] at h
  exact h

end

/-! ## The result -/

/-- The fields of `FetchResult` that a download fills. -/
structure DownloadReport where
  downloadFile : PathBuf
  downloadBytes : ℕ
  downloadFilename : String
  downloadUrl : String
  downloadState : String
  deriving DecidableEq

/-- `finish_download_navigation`, once the file is there. -/
def finishDownload (builderUrl : String) (downloadStart : Option DownloadStart) (downloaded : CompletedDownload) :
    DownloadReport where
  downloadFile := downloaded.path
  downloadBytes := downloaded.bytes
  downloadFilename := downloaded.filename
  downloadUrl := (downloadStart.bind (·.url)).getD builderUrl
  downloadState := "completed"

end Afhttp.Fetch

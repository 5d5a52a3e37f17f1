import Mathlib
import Afhttp.Collect.BodyFiles
import Afhttp.Fetch.Submit
import Afhttp.Lib.AtomicFile

/-!
# The files of a fetch

`sdk/fetch/writer.rs`, the paths of `shared/artifacts.rs` and the `write` of each artifact in
`sdk/fetch/artifacts`.  Every artifact goes through `write_bytes`: the bytes are written to a
sibling with `.tmp` behind its name, which is then renamed.

Any number of fetches write below one output directory, each under its request id.  Their calls
of the file system come in any order, a call may take part of the bytes, and a fetch may fail, be
cancelled or be killed between any two of them.

    the temporary name of an artifact is no artifact's        (names_artifactFiles)
    two fetches share no artifact                             (artifactFiles_disjoint)
    so a reader never meets a part of one                     (artifacts_atomic)
-/

namespace Afhttp

open Text

/-! ## Paths -/

namespace PathBuf

def withFileName (p : PathBuf) (name : String) : PathBuf :=
  (if p.fileName.isSome then { p with parts := p.parts.dropLast } else p).push name

/-- The file name before its last dot, unless it begins with that dot. -/
def fileStem (p : PathBuf) : Option String :=
  p.fileName.map fun name => ((beforeLast '.' name).filter (· ≠ "")).getD name

def setExtension (p : PathBuf) (ext : String) : PathBuf :=
  match p.fileStem with
  | none => p
  | some stem => p.withFileName (if ext = "" then stem else stem ++ "." ++ ext)

end PathBuf

namespace Fetch

/-- `uuid::Uuid::new_v4().to_string()`: one piece of a path. -/
structure RequestId where
  str : String
  plain : '/' ∉ str.toList
  named : str ≠ "" ∧ str ≠ "." ∧ str ≠ ".."

def Artifact.filenameTemplate : Artifact → String
  | .body => "body"
  | .renderedHtml => "rendered.html"
  | .text => "text.txt"
  | .content => "content.md"
  | .contentJson => "content.json"
  | .screenshot => "page.png"
  | .network => "network.json"
  | .console => "console.json"
  | .observation => "observation.json"
  | .storage => "storage.json"

structure ArtifactPaths where
  root : PathBuf

namespace ArtifactPaths

/-- `<base>/<request_id>/`. -/
def new (cwd : WorkingDir) (base : PathBuf) (requestId : RequestId) : ArtifactPaths :=
  ⟨(absoluteLexical cwd base).join requestId.str⟩

def fileFor (paths : ArtifactPaths) (artifact : Artifact) : PathBuf := paths.root.join artifact.filenameTemplate

end ArtifactPaths

def siblingTmp (target : PathBuf) : PathBuf := target.withFileName (target.fileName.getD "" ++ ".tmp")

/-! ## What is written -/

/-- `mime_guess::get_mime_extensions_str`, the first of them. -/
structure MimeTable where
  extension : String → Option String
  plain : ∀ mime ext, extension mime = some ext → ext ≠ "" ∧ '.' ∉ ext.toList

def extensionFor (table : MimeTable) (contentType : Option String) : String :=
  match contentType with
  | none => "bin"
  | some ct =>
    let primary := toAsciiLowercase (trim (beforeFirst ';' ct))
    if primary ∈ ["text/html", "application/xhtml+xml"] then "html"
    else if primary ∈ ["application/json", "application/ld+json"] then "json"
    else if primary ∈ ["application/javascript", "text/javascript"] then "js"
    else if primary = "text/css" then "css"
    else if primary = "text/plain" then "txt"
    else if primary = "image/png" then "png"
    else if primary ∈ ["image/jpeg", "image/jpg"] then "jpg"
    else if primary = "image/gif" then "gif"
    else if primary = "image/webp" then "webp"
    else if primary = "image/svg+xml" then "svg"
    else if primary ∈ ["application/xml", "text/xml"] then "xml"
    else if primary = "application/pdf" then "pdf"
    else if primary = "application/octet-stream" then "bin"
    else (table.extension primary).getD "bin"

/-- One artifact of a fetch.  A request id of the browser is taken without a `/`. -/
inductive ArtifactWrite where
  | file (artifact : Artifact) (fixed : artifact ≠ .body) (bytes : List UInt8)
  | body (contentType : Option String) (bytes : List UInt8)
  | network (requestId : String) (plain : '/' ∉ requestId.toList) (ext : Collect.Ext) (bytes : List UInt8)

namespace ArtifactWrite

def bytes : ArtifactWrite → List UInt8
  | file _ _ bytes | body _ bytes | network _ _ _ bytes => bytes

/-- The `target` that the artifact's `write` hands to `write_bytes`. -/
def target (table : MimeTable) (paths : ArtifactPaths) : ArtifactWrite → PathBuf
  | file artifact _ _ => paths.fileFor artifact
  | body contentType _ => (paths.fileFor .body).setExtension (extensionFor table contentType)
  | network requestId _ ext _ => Collect.artifactFile paths.root requestId ext

end ArtifactWrite

/-- The calls of `write_bytes`, each by the fetch that makes it. -/
inductive WriteEvent (ι : Type*) where
  /-- `File::create` on the sibling. -/
  | create (fetch : ι) (w : ArtifactWrite)
  /-- One call of `write_all`'s loop, which takes `n` bytes. -/
  | write (fetch : ι) (n : ℕ)
  | rename (fetch : ι)
  | stop (fetch : ι)

/-- Fetches that write below one output directory. -/
structure Fetches (ι : Type*) where
  table : MimeTable
  cwd : WorkingDir
  base : PathBuf
  requestId : ι → RequestId
  distinct : ∀ i j, (requestId i).str = (requestId j).str → i = j

namespace Fetches

variable {ι : Type*} (f : Fetches ι)

def paths (i : ι) : ArtifactPaths := .new f.cwd f.base (f.requestId i)

def job (i : ι) (w : ArtifactWrite) : AtomicFile.Job PathBuf UInt8 := ⟨w.target f.table (f.paths i), w.bytes⟩

def event : WriteEvent ι → AtomicFile.Event ι PathBuf UInt8
  | .create i w => .create i (f.job i w)
  | .write i n => .write i n
  | .rename i => .rename i
  | .stop i => .stop i

/-- The artifacts that a fetch may write. -/
def own (i : ι) : Set PathBuf := {p | ∃ w : ArtifactWrite, w.target f.table (f.paths i) = p}

def artifactFiles : Set PathBuf := {p | ∃ i, p ∈ f.own i}

end Fetches

/-! ## Where an artifact goes -/

end Fetch

namespace PathBuf

theorem push_inj {p q : PathBuf} {a b : String} (h : p.push a = q.push b) : p = q ∧ a = b := by
  obtain ⟨hp, hq⟩ := PathBuf.mk.inj h
  obtain ⟨hparts, hlast⟩ := List.append_inj' hq rfl
  have hab : a = b := by
    simpa using hlast
  refine ⟨?_, hab⟩
  cases p
  cases q
  exact congrArg₂ PathBuf.mk hp hparts

theorem join_name (p : PathBuf) {s : String} (hplain : '/' ∉ s.toList)
    (hseg : Component.ofSegment s = some (.normal s)) : p.join s = p.push s := by
  have hslash : startsWith s "/" = false := by
    rw [Bool.eq_false_iff]
    intro h
    obtain ⟨t, rfl⟩ := (startsWith_iff s "/").mp h
    exact hplain (by simp)
  unfold join push
  rw [Collect.split_plain hplain, hslash]
  simp [hseg]

theorem withFileName_push (p : PathBuf) (name name' : String) :
    (p.push name).withFileName name' = p.push name' := by
  unfold withFileName
  rw [fileName_push, Option.isSome_some, if_pos rfl]
  unfold push
  rw [List.dropLast_concat]

end PathBuf

namespace Fetch

theorem siblingTmp_push (p : PathBuf) (name : String) : siblingTmp (p.push name) = p.push (name ++ ".tmp") := by
  unfold siblingTmp
  rw [PathBuf.fileName_push, PathBuf.withFileName_push]
  rfl

theorem plain_filenameTemplate (artifact : Artifact) : '/' ∉ artifact.filenameTemplate.toList := by
  cases artifact <;> decide

theorem ofSegment_filenameTemplate (artifact : Artifact) :
    Component.ofSegment artifact.filenameTemplate = some (.normal artifact.filenameTemplate) := by
  cases artifact <;> decide

theorem fileFor_eq (paths : ArtifactPaths) (artifact : Artifact) :
    paths.fileFor artifact = paths.root.push artifact.filenameTemplate :=
  PathBuf.join_name _ (plain_filenameTemplate artifact) (ofSegment_filenameTemplate artifact)

/-- What may stand behind the last dot of a file name. -/
def PlainExtension (ext : String) : Prop := ext ≠ "" ∧ '.' ∉ ext.toList

theorem extensionFor_plain (table : MimeTable) (contentType : Option String) :
    PlainExtension (extensionFor table contentType) := by
  have hite : ∀ (c : Prop) [Decidable c] {a b : String}, PlainExtension a → PlainExtension b →
      PlainExtension (if c then a else b) := by
    intro c _ a b ha hb
    split
    · exact ha
    · exact hb
  have hbin : PlainExtension "bin" := ⟨by decide, by decide⟩
  cases contentType with
  | none => exact hbin
  | some ct =>
    unfold extensionFor
    dsimp only
    generalize toAsciiLowercase (trim (beforeFirst ';' ct)) = primary
    iterate 13 refine hite _ ⟨by decide, by decide⟩ ?_
    cases h : table.extension primary with
    | none => exact hbin
    | some ext => exact table.plain primary ext h

/-- A fixed name, cut at its last dot. -/
def Artifact.nameParts (artifact : Artifact) : String × String :=
  (rsplitOnce '.' artifact.filenameTemplate).getD ("", "")

theorem Artifact.nameParts_plain {artifact : Artifact} (h : artifact ≠ .body) :
    artifact.filenameTemplate = artifact.nameParts.1 ++ "." ++ artifact.nameParts.2 ∧
      '.' ∉ artifact.nameParts.2.toList ∧ artifact.nameParts.2 ≠ "tmp" := by
  cases artifact
  · exact absurd rfl h
  all_goals decide

namespace ArtifactWrite

variable (table : MimeTable)

/-- The directory of the artifact. -/
def dir (root : PathBuf) : ArtifactWrite → PathBuf
  | network .. => Collect.networkBodiesDir root
  | _ => root

/-- Its name there: what stands before the last dot, and after it. -/
def name : ArtifactWrite → String × String
  | file artifact _ _ => artifact.nameParts
  | body contentType _ => ("body", extensionFor table contentType)
  | network requestId _ ext _ => (requestId ++ ext.parts.1, ext.parts.2)

theorem target_eq (paths : ArtifactPaths) (w : ArtifactWrite) :
    w.target table paths = (w.dir paths.root).push ((w.name table).1 ++ "." ++ (w.name table).2) := by
  cases w with
  | file artifact fixed _ =>
    show paths.fileFor artifact = _
    rw [fileFor_eq, (Artifact.nameParts_plain fixed).1]
    rfl
  | body contentType _ =>
    have hstem : (paths.root.push "body").fileStem = some "body" := by
      unfold PathBuf.fileStem
      rw [PathBuf.fileName_push]
      decide
    show (paths.fileFor .body).setExtension _ = _
    rw [fileFor_eq]
    unfold PathBuf.setExtension
    show (match (paths.root.push "body").fileStem with | none => _ | some stem => _) = _
    rw [hstem]
    dsimp only
    rw [if_neg (extensionFor_plain table contentType).1, PathBuf.withFileName_push]
    rfl
  | network requestId plain ext _ =>
    have hname : requestId ++ "." ++ ext.str = requestId ++ ext.parts.1 ++ "." ++ ext.parts.2 := by
      rw [String.append_assoc, ext.parts_eq, ← String.append_assoc, ← String.append_assoc]
    have hplain : '/' ∉ (requestId ++ "." ++ ext.str).toList := by
      rw [String.append_assoc, String.toList_append, List.mem_append]
      exact not_or.mpr ⟨plain, Collect.plain_ext ext⟩
    have hseg := Collect.ofSegment_ext requestId ext
    rw [← String.append_assoc] at hseg
    show Collect.artifactFile paths.root requestId ext = _
    unfold Collect.artifactFile
    rw [PathBuf.join_name _ hplain hseg, hname]
    rfl

/-- What stands behind the last dot has none, and is `tmp` only if no other dot is before it. -/
theorem name_plain (w : ArtifactWrite) :
    '.' ∉ (w.name table).2.toList ∧ ((w.name table).2 = "tmp" → (w.name table).1 = "body") := by
  cases w with
  | file artifact fixed _ =>
    obtain ⟨-, hdot, htmp⟩ := Artifact.nameParts_plain fixed
    exact ⟨hdot, fun h => absurd h htmp⟩
  | body contentType _ => exact ⟨(extensionFor_plain table contentType).2, fun _ => rfl⟩
  | network requestId _ ext _ =>
    have htmp : ∀ e : Collect.Ext, e.parts.2 ≠ "tmp" := by
      intro e
      cases e <;> decide
    exact ⟨ext.plain_parts, fun h => absurd h (htmp ext)⟩

theorem dir_cases (root : PathBuf) (w : ArtifactWrite) :
    w.dir root = root ∨ w.dir root = root.push "network-bodies" := by
  cases w with
  | file => exact .inl rfl
  | body => exact .inl rfl
  | network => exact .inr rfl

end ArtifactWrite

theorem split_name {a b a' b' : String} (hb : '.' ∉ b.toList) (hb' : '.' ∉ b'.toList)
    (h : a ++ "." ++ b = a' ++ "." ++ b') : a = a' ∧ b = b' := by
  have hsplit := rsplitOnce_append (c := '.') a hb
  have hsplit' := rsplitOnce_append (c := '.') a' hb'
  have hdot : String.ofList ['.'] = "." := rfl
  rw [hdot] at hsplit hsplit'
  rw [h, hsplit'] at hsplit
  simpa [eq_comm] using hsplit

namespace Fetches

variable {ι : Type*} (f : Fetches ι)

/-- **No artifact is another's temporary file**, and no two have one temporary file. -/
theorem names_artifactFiles : AtomicFile.Names siblingTmp f.artifactFiles := by
  constructor
  · rintro t ⟨i, w, rfl⟩ t' ⟨j, v, rfl⟩ h
    rw [ArtifactWrite.target_eq, ArtifactWrite.target_eq, siblingTmp_push] at h
    obtain ⟨-, hname⟩ := PathBuf.push_inj h
    obtain ⟨hdot, htmp⟩ := v.name_plain f.table
    obtain ⟨hstem, hext⟩ := split_name (a := (w.name f.table).1 ++ "." ++ (w.name f.table).2) (b := "tmp")
      (by decide) hdot (by rw [← hname]; simp [String.append_assoc])
    -- only the body has that extension, and its name has one dot
    have hbody := htmp hext.symm
    rw [hbody] at hstem
    have hmem : '.' ∈ "body".toList := by
      rw [← hstem]
      simp
    exact absurd hmem (by decide)
  · rintro t ⟨i, w, rfl⟩ t' ⟨j, v, rfl⟩ h
    rw [ArtifactWrite.target_eq, ArtifactWrite.target_eq, siblingTmp_push, siblingTmp_push] at h
    rw [ArtifactWrite.target_eq, ArtifactWrite.target_eq]
    obtain ⟨hdir, hname⟩ := PathBuf.push_inj h
    rw [hdir, String.append_left_inj .. |>.mp hname]

theorem paths_root (i : ι) : (f.paths i).root = (absoluteLexical f.cwd f.base).push (f.requestId i).str := by
  have hseg : Component.ofSegment (f.requestId i).str = some (.normal (f.requestId i).str) := by
    obtain ⟨hempty, hdot, hdots⟩ := (f.requestId i).named
    unfold Component.ofSegment
    rw [if_neg (not_or.mpr ⟨hempty, hdot⟩), if_neg hdots]
  exact PathBuf.join_name _ (f.requestId i).plain hseg

/-- **Two fetches have no artifact in common.** -/
theorem own_disjoint (i j : ι) (p : PathBuf) (hi : p ∈ f.own i) (hj : p ∈ f.own j) : i = j := by
  obtain ⟨w, rfl⟩ := hi
  obtain ⟨v, h⟩ := hj
  rw [ArtifactWrite.target_eq, ArtifactWrite.target_eq] at h
  -- the directory of the fetch stands right behind the output directory
  have hroot : ∀ (k : ι) (u : ArtifactWrite) (name : String), ∃ rest, ((u.dir (f.paths k).root).push name).parts =
      (absoluteLexical f.cwd f.base).parts ++ .normal (f.requestId k).str :: rest := by
    intro k u name
    rcases u.dir_cases (f.paths k).root with h | h
    · exact ⟨[.normal name], by rw [h, paths_root]; simp [PathBuf.push]⟩
    · exact ⟨[.normal "network-bodies", .normal name], by rw [h, paths_root]; simp [PathBuf.push]⟩
  obtain ⟨rest, hrest⟩ := hroot i w ((w.name f.table).1 ++ "." ++ (w.name f.table).2)
  obtain ⟨rest', hrest'⟩ := hroot j v ((v.name f.table).1 ++ "." ++ (v.name f.table).2)
  rw [h, hrest] at hrest'
  have hid := List.append_cancel_left hrest'
  injection hid with hid _
  injection hid with hid
  exact f.distinct i j hid

/-! ## Any run of the fetches -/

variable [DecidableEq ι]

/-- **A reader never meets a part of an artifact.**  Whatever the fetches do, in any order, and
wherever they stop: the names that are not temporary hold what they would hold if every write
were one step, taken at its rename.  So each is as it was before, or has all the bytes of one
write of its path. -/
theorem artifacts_atomic {d : AtomicFile.Disk PathBuf UInt8} (hd : d.Sound) {es : List (WriteEvent ι)}
    {s : AtomicFile.Sys ι PathBuf UInt8}
    (h : Run.run (AtomicFile.step siblingTmp) (.idle d) (es.map f.event) = some s)
    {p : PathBuf} (hp : ∀ t ∈ f.artifactFiles, siblingTmp t ≠ p) :
    (∃ a, Run.run AtomicFile.Store.step (.idle d) (es.map f.event) = some a ∧ s.disk.read p = a.value p) ∧
      (s.disk.read p = d.read p ∨ ∃ i w, WriteEvent.create i w ∈ es ∧ w.target f.table (f.paths i) = p ∧
        s.disk.read p = some w.bytes) := by
  have hcreate : ∀ i job, AtomicFile.Event.create i job ∈ es.map f.event →
      ∃ w, WriteEvent.create i w ∈ es ∧ job = f.job i w := by
    intro i job hmem
    obtain ⟨e, he, heq⟩ := List.mem_map.mp hmem
    cases e with
    | create k w =>
      injection heq with hk hjob
      subst hk
      exact ⟨w, he, hjob.symm⟩
    | write k n => exact absurd heq (by simp [event])
    | rename k => exact absurd heq (by simp [event])
    | stop k => exact absurd heq (by simp [event])
  have hown : ∀ i job, AtomicFile.Event.create i job ∈ es.map f.event → job.target ∈ f.own i := by
    intro i job hmem
    obtain ⟨w, -, rfl⟩ := hcreate i job hmem
    exact ⟨w, rfl⟩
  have hok := AtomicFile.runMeets_of_own (T := f.artifactFiles) f.own_disjoint (fun i p hi => ⟨i, hi⟩) h hown
  constructor
  · obtain ⟨a, ha, -, hs⟩ := AtomicFile.refines f.names_artifactFiles hd hok h
    exact ⟨a, ha, hs.value p hp⟩
  · rcases AtomicFile.read_whole f.names_artifactFiles hd hok h hp with hread | ⟨i, job, hmem, htarget, hread⟩
    · exact .inl hread
    · obtain ⟨w, hw, rfl⟩ := hcreate i job hmem
      exact .inr ⟨i, w, hw, htarget, hread⟩

end Fetches

/-! ## Two fetches at work -/

def emptyDisk : AtomicFile.Disk PathBuf UInt8 := ⟨fun _ => none, fun _ => [], 0⟩

/-- Two fetches that write to `/out/a` and `/out/b`. -/
def twoFetches : Fetches Bool where
  table := ⟨fun _ => none, by simp⟩
  cwd := ⟨⟨true, []⟩, by simp, by simp⟩
  base := ⟨true, [.normal "out"]⟩
  requestId b := if b then ⟨"a", by decide, by decide⟩ else ⟨"b", by decide, by decide⟩
  distinct := by decide

/-- The first has two pieces of its text written when the second starts; the second is cut off. -/
def twoFetchesEvents : List (WriteEvent Bool) :=
  [.create true (.file .text (by decide) [104, 105]), .write true 1, .create false (.body none [1, 2, 3]),
    .write true 1, .write false 2, .rename true, .stop false]

theorem artifacts_atomic_twoFetches :
    ∃ s, Run.run (AtomicFile.step siblingTmp) (.idle emptyDisk) (twoFetchesEvents.map twoFetches.event) = some s ∧
      ((∃ a, Run.run AtomicFile.Store.step (.idle emptyDisk) (twoFetchesEvents.map twoFetches.event) = some a ∧
          s.disk.read (.mk true [.normal "out", .normal "a", .normal "text.txt"]) =
            a.value (.mk true [.normal "out", .normal "a", .normal "text.txt"])) ∧
        (s.disk.read (.mk true [.normal "out", .normal "a", .normal "text.txt"]) =
            emptyDisk.read (.mk true [.normal "out", .normal "a", .normal "text.txt"]) ∨
          ∃ i w, WriteEvent.create i w ∈ twoFetchesEvents ∧ w.target twoFetches.table (twoFetches.paths i) =
              .mk true [.normal "out", .normal "a", .normal "text.txt"] ∧
            s.disk.read (.mk true [.normal "out", .normal "a", .normal "text.txt"]) = some w.bytes)) := by
  have hsound : emptyDisk.Sound := by
    constructor
    · intro p q a hp
      exact absurd hp (by simp [emptyDisk])
    · intro p a hp
      exact absurd hp (by simp [emptyDisk])
  have hmem : PathBuf.mk true [.normal "out", .normal "a", .normal "text.txt"] ∈ twoFetches.artifactFiles :=
    ⟨true, .file .text (by decide) [], by decide⟩
  exact ⟨_, rfl, twoFetches.artifacts_atomic hsound rfl fun t ht =>
    twoFetches.names_artifactFiles.fresh t ht _ hmem⟩

end Fetch

end Afhttp

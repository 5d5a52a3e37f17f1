import Mathlib
import Afhttp.Lib.Script
import Afhttp.Shared.Error
import Afhttp.Shared.JsonPath
import Afhttp.Shared.Path
import Afhttp.Shared.RedactUrls

/-!
# What a browser profile is told before its start

`preseed_chromium_profile`, `merge_json_file`, `write_json_file` and `set_json_path` of
`host/browser/chromium.rs`.  Two JSON files of the profile, which the browser writes too, are read,
some settings put in, and written.  A setting is a path of keys; what is not an object and stands in
its way is replaced.  The host may be killed at any time, and any call of the file system may fail.

    the value is at the end of its path                   (atPath_setJsonPath)
    a place that leaves the path at a key is as it was    (atPath_setJsonPath_apart)
    so of a list of settings all hold                     (seeded_setAll)
    one file is replaced at once, or not at all           (meets_mergeJsonFile)
    so a profile is seeded, and whole on the way          (preseed_profile)
-/

namespace Afhttp.Host

open Json Redact

/-! ## One setting -/

/-- `Value::as_object_mut`, after anything else is replaced by an empty object. -/
def members : Json → List (String × Json)
  | .obj fields => fields
  | _ => []

/-- The value at the end of a path. -/
def putAt (value : Json) : List String → Json → Json
  | [], _ => value
  | key :: path, root =>
    .obj (insertField key (putAt value path (((members root).lookup key).getD (.obj []))) (members root))

/-- `set_json_path`. -/
def setJsonPath (root : Json) (path : List String) (value : Json) : Json :=
  if path = [] then root else putAt value path root

/-- The place at which a path ends. -/
def placeOf (path : List String) : List PathStep := path.map .key

/-- The place leaves the path at a key. -/
def Apart : List String → List PathStep → Prop
  | key :: path, .key name :: place => name ≠ key ∨ Apart path place
  | _, _ => False

instance decidableApart : ∀ path place, Decidable (Apart path place)
  | [], _ => isFalse fun h => h
  | _ :: _, [] => isFalse fun h => h
  | _ :: _, .index _ :: _ => isFalse fun h => h
  | key :: path, .key name :: place =>
    haveI := decidableApart path place
    inferInstanceAs (Decidable (name ≠ key ∨ Apart path place))

theorem lookup_members (v : Json) (key : String) : (members v).lookup key = v.get key := by
  cases v <;> rfl

theorem child_putAt (value : Json) (key : String) (path : List String) (root : Json) (name : String) :
    (putAt value (key :: path) root).child (.key name) =
      if key = name then some (putAt value path ((root.get key).getD (.obj []))) else root.get name := by
  show (insertField key _ (members root)).lookup name = _
  rw [lookup_insertField, lookup_members, lookup_members]

theorem atPath_putAt (value : Json) (path : List String) (root : Json) :
    (putAt value path root).atPath (placeOf path) = some value := by
  induction path generalizing root with
  | nil => rfl
  | cons key path ih =>
    show ((putAt value (key :: path) root).child (.key key)).bind (atPath (placeOf path)) = _
    rw [child_putAt, if_pos rfl]
    exact ih _

theorem atPath_emptyObject {path : List String} {place : List PathStep} (h : Apart path place) :
    (Json.obj []).atPath place = none := by
  cases path with
  | nil => exact absurd h id
  | cons key path =>
    cases place with
    | nil => exact absurd h id
    | cons step place =>
      cases step with
      | key name => rfl
      | index i => exact absurd h id

/-- **A place apart from the path is as it was.** -/
theorem atPath_putAt_apart (value : Json) {path : List String} {place : List PathStep} (h : Apart path place)
    (root : Json) : (putAt value path root).atPath place = root.atPath place := by
  induction path generalizing place root with
  | nil => exact absurd h id
  | cons key path ih =>
    cases place with
    | nil => exact absurd h id
    | cons step place =>
      cases step with
      | index i => exact absurd h id
      | key name =>
        show ((putAt value (key :: path) root).child (.key name)).bind (atPath place) =
          (root.get name).bind (atPath place)
        rw [child_putAt]
        split
        · next he =>
          subst he
          have happart : Apart path place := h.resolve_left fun hne => hne rfl
          rw [Option.bind_some, ih happart]
          cases root.get key with
          | none => exact atPath_emptyObject happart
          | some v => rfl
        · rfl

theorem atPath_setJsonPath {path : List String} (hpath : path ≠ []) (root value : Json) :
    (setJsonPath root path value).atPath (placeOf path) = some value := by
  unfold setJsonPath
  rw [if_neg hpath]
  exact atPath_putAt value path root

theorem atPath_setJsonPath_apart {path : List String} {place : List PathStep} (h : Apart path place)
    (root value : Json) : (setJsonPath root path value).atPath place = root.atPath place := by
  unfold setJsonPath
  split
  · rfl
  · exact atPath_putAt_apart value h root

/-! ## A list of settings -/

abbrev Setting := List String × Json

def setAll (settings : List Setting) (root : Json) : Json :=
  settings.foldl (fun root s => setJsonPath root s.1 s.2) root

/-- No setting is in the way of one before it. -/
def Separate (settings : List Setting) : Prop :=
  (∀ path ∈ settings.map Prod.fst, path ≠ []) ∧
    (settings.map Prod.fst).Pairwise fun path path' => Apart path' (placeOf path)

/-- What a file holds after its settings were put in. -/
structure Seeded (settings : List Setting) (root result : Json) : Prop where
  set : ∀ s ∈ settings, result.atPath (placeOf s.1) = some s.2
  kept : ∀ place, (∀ s ∈ settings, Apart s.1 place) → result.atPath place = root.atPath place

theorem atPath_setAll_apart {settings : List Setting} {place : List PathStep}
    (h : ∀ s ∈ settings, Apart s.1 place) (root : Json) :
    (setAll settings root).atPath place = root.atPath place := by
  induction settings generalizing root with
  | nil => rfl
  | cons s settings ih =>
    show (setAll settings (setJsonPath root s.1 s.2)).atPath place = _
    rw [ih fun t ht => h t (List.mem_cons_of_mem _ ht)]
    exact atPath_setJsonPath_apart (h s List.mem_cons_self) root s.2

theorem seeded_setAll {settings : List Setting} (h : Separate settings) (root : Json) :
    Seeded settings root (setAll settings root) := by
  refine ⟨?_, fun place hp => atPath_setAll_apart hp root⟩
  obtain ⟨hne, hsep⟩ := h
  induction settings generalizing root with
  | nil => exact fun s hs => absurd hs List.not_mem_nil
  | cons t settings ih =>
    rw [List.map_cons] at hne hsep
    obtain ⟨happart, hsep⟩ := List.pairwise_cons.mp hsep
    intro s hs
    show (setAll settings (setJsonPath root t.1 t.2)).atPath (placeOf s.1) = some s.2
    rcases List.mem_cons.mp hs with rfl | hs
    · rw [atPath_setAll_apart fun u hu => happart u.1 (List.mem_map_of_mem hu)]
      exact atPath_setJsonPath (hne s.1 List.mem_cons_self) root s.2
    · exact ih _ (fun path hpath => hne path (List.mem_cons_of_mem _ hpath)) hsep s hs

/-! ## The files of a profile -/

abbrev Files := PathBuf → Option (List UInt8)

/-- The calls that can fail, but for a file that is not there. -/
inductive FsCall where
  | createDirAll (dir : PathBuf)
  /-- `create_dir_all` of the parent of a file that is written. -/
  | createParent (file : PathBuf)
  | removeFile (file : PathBuf)
  | read (file : PathBuf)
  | write (file : PathBuf)
  | rename (src dst : PathBuf)

/-- What is outside: the errors of the file system, and `serde_json` on bytes. -/
structure World where
  fails : FsCall → Option String
  /-- How far a write comes that fails. -/
  torn : PathBuf → ℕ
  /-- `Path::display`. -/
  display : PathBuf → String
  fromSlice : List UInt8 → Except String Json
  toVec : Json → Except String (List UInt8)

def isAsciiWhitespace (b : UInt8) : Bool := b = 9 || b = 10 || b = 12 || b = 13 || b = 32

namespace World

variable (world : World)

abbrev FsScript := Script Files Error

def ioError (what : String) (p : PathBuf) (e : String) : Error :=
  .new .ioError s!"{what} {world.display p}: {e}"

/-- A call that changes no file. -/
def attempt (call : FsCall) (error : String → Error) : FsScript :=
  match world.fails call with
  | none => .done
  | some e => .fail (error e)

/-- What `fs::write` goes through: the file is emptied, and takes the bytes one after the other. -/
def writing (p : PathBuf) (bytes : List UInt8) (files : Files) : List Files :=
  (List.range (bytes.length + 1)).map fun n => Function.update files p (some (bytes.take n))

def writeFile (p : PathBuf) (bytes : List UInt8) (error : String → Error) : FsScript :=
  match world.fails (.write p) with
  | none => .goes (writing p bytes)
  | some e => .breaks (fun files => (writing p bytes files).take (world.torn p)) (error e)

def renamed (src dst : PathBuf) (files : Files) : Files :=
  Function.update (Function.update files src none) dst (files src)

def renameFile (src dst : PathBuf) (error : String → Error) : FsScript :=
  match world.fails (.rename src dst) with
  | none => .goes fun files => [renamed src dst files]
  | some e => .fail (error e)

/-- One of the loop of `remove_stale_process_singleton_files`. -/
def removeStale (dir : PathBuf) (name : String) : FsScript :=
  match world.fails (.removeFile (dir.push name)) with
  | none => .goes fun files => [Function.update files (dir.push name) none]
  | some e => .fail (world.ioError "remove stale chromium singleton" (dir.push name) e)

def singletons : List String := ["SingletonCookie", "SingletonLock", "SingletonSocket"]

def removeStaleProcessSingletonFiles (dir : PathBuf) : FsScript := .forEach (world.removeStale dir) singletons

/-- The file beside it that is written first. -/
def tmpFor (path : PathBuf) : PathBuf :=
  path.pop.push ("." ++ path.fileName.getD "profile-json" ++ ".afhttp-tmp")

def writeJsonFile (path : PathBuf) (value : Json) : FsScript :=
  if path.parts = [] then
    .fail (.new .ioError s!"browser profile JSON path {world.display path} has no parent")
  else
    (world.attempt (.createParent path) (world.ioError "create browser profile JSON dir" path.pop)).seq
      (match world.toVec value with
      | .error e => .fail (world.ioError "serialize browser profile JSON" path e)
      | .ok bytes =>
        (world.writeFile (tmpFor path) bytes (world.ioError "write browser profile JSON" (tmpFor path))).seq
          (world.renameFile (tmpFor path) path
            (world.ioError s!"replace browser profile JSON {world.display path} with" (tmpFor path))))

/-- What `merge_json_file` starts from: the object in the file, or an empty one. -/
def startingRoot (path : PathBuf) (content : Option (List UInt8)) : Except Error Json :=
  match world.fails (.read path) with
  | some e => .error (world.ioError "read browser profile JSON" path e)
  | none =>
    match content with
    | none => .ok (.obj [])
    | some bytes =>
      if bytes.all isAsciiWhitespace then .ok (.obj [])
      else
        match world.fromSlice bytes with
        | .ok (.obj fields) => .ok (.obj fields)
        | .ok _ => .ok (.obj [])
        | .error e => .error (world.ioError "parse browser profile JSON" path e)

def mergeJsonFile (path : PathBuf) (mutate : Json → Json) : FsScript := fun files =>
  match world.startingRoot path (files path) with
  | .error e => Script.fail e files
  | .ok root => world.writeJsonFile path (mutate root) files

end World

def localStateSettings : List Setting :=
  [(["browser", "has_seen_welcome_page"], .bool true),
   (["browser", "should_reset_check_default_browser"], .bool false),
   (["user_experience_metrics", "reporting_enabled"], .bool false),
   (["user_experience_metrics", "stability", "exited_cleanly"], .bool true),
   (["brave", "p3a", "enabled"], .bool false),
   (["brave", "stats", "reporting_enabled"], .bool false)]

def preferencesSettings (downloads : String) : List Setting :=
  [(["profile", "exit_type"], .str "Normal"),
   (["profile", "exited_cleanly"], .bool true),
   (["profile", "password_manager_enabled"], .bool false),
   (["credentials_enable_service"], .bool false),
   (["autofill", "profile_enabled"], .bool false),
   (["autofill", "credit_card_enabled"], .bool false),
   (["safebrowsing", "scout_reporting_enabled_when_deprecated"], .bool false),
   (["download", "prompt_for_download"], .bool false),
   (["download", "default_directory"], .str downloads),
   (["savefile", "default_directory"], .str downloads)]

def localState (dir : PathBuf) : PathBuf := dir.push "Local State"

def preferences (dir : PathBuf) : PathBuf := (dir.push "Default").push "Preferences"

def preseedChromiumProfile (world : World) (dir : PathBuf) : World.FsScript :=
  (world.attempt (.createDirAll dir) (world.ioError "create profile dir" dir)).seq <|
  (world.removeStaleProcessSingletonFiles dir).seq <|
  (world.mergeJsonFile (localState dir) (setAll localStateSettings)).seq <|
  (world.attempt (.createDirAll (dir.push "Default"))
    (world.ioError "create default profile dir" (dir.push "Default"))).seq <|
  world.mergeJsonFile (preferences dir) (setAll (preferencesSettings (world.display (dir.push "downloads"))))

theorem separate_localState : Separate localStateSettings := by
  unfold Separate
  decide

theorem separate_preferences (downloads : String) : Separate (preferencesSettings downloads) := by
  have hpaths : (preferencesSettings downloads).map Prod.fst = (preferencesSettings "").map Prod.fst := rfl
  unfold Separate
  rw [hpaths]
  decide

/-! ## What a file holds -/

/-- The file at the path holds its settings, put into what it held before. -/
def World.SeededFile (world : World) (settings : List Setting) (path : PathBuf) (before after : Files) : Prop :=
  ∃ root result bytes, world.startingRoot path (before path) = .ok root ∧ Seeded settings root result ∧
    world.toVec result = .ok bytes ∧ after path = some bytes

/-- Every error of a script here. -/
def IsIoError (e : Error) : Prop := e.errorCode = .ioError

namespace World

variable (world : World)

theorem meets_attempt (call : FsCall) {error : String → Error} (herror : ∀ e, IsIoError (error e))
    {files : Files} {I Q : Files → Prop} (h : Q files) :
    (world.attempt call error).Meets files I Q IsIoError := by
  unfold attempt
  cases world.fails call with
  | none => exact Script.meets_done h
  | some e => exact Script.meets_fail (herror e)

/-- In all states on its way only the file at `p` is another, and in the last it holds all the bytes. -/
theorem meets_writeFile (p : PathBuf) (bytes : List UInt8) {error : String → Error}
    (herror : ∀ e, IsIoError (error e)) (files : Files) :
    (world.writeFile p bytes error).Meets files (fun files' => ∀ q, q ≠ p → files' q = files q)
      (fun files' => files' = Function.update files p (some bytes)) IsIoError := by
  have hwriting : ∀ files' ∈ writing p bytes files, ∀ q, q ≠ p → files' q = files q := by
    intro files' hmem q hq
    obtain ⟨n, -, rfl⟩ := List.mem_map.mp hmem
    exact Function.update_of_ne hq _ _
  unfold writeFile
  cases world.fails (.write p) with
  | none =>
    refine Script.meets_goes hwriting ?_
    unfold writing
    rw [List.range_succ, List.map_append, List.map_singleton, List.getLastD_concat, List.take_length]
  | some e =>
    exact Script.meets_breaks (fun files' hmem => hwriting files' (List.mem_of_mem_take hmem)) (herror e)

theorem meets_renameFile (src dst : PathBuf) {error : String → Error} (herror : ∀ e, IsIoError (error e))
    (files : Files) :
    (world.renameFile src dst error).Meets files (fun files' => files' = renamed src dst files)
      (fun files' => files' = renamed src dst files) IsIoError := by
  unfold renameFile
  cases world.fails (.rename src dst) with
  | none => exact Script.meets_goes (fun files' hmem => List.mem_singleton.mp hmem) rfl
  | some e => exact Script.meets_fail (herror e)

theorem meets_removeStale (dir : PathBuf) (name : String) (files : Files) :
    (world.removeStale dir name).Meets files (fun files' => files' = Function.update files (dir.push name) none)
      (fun files' => files' = Function.update files (dir.push name) none) IsIoError := by
  unfold removeStale
  cases world.fails (.removeFile (dir.push name)) with
  | none => exact Script.meets_goes (fun files' hmem => List.mem_singleton.mp hmem) rfl
  | some e => exact Script.meets_fail rfl

/-- The file is seeded, and the others but the temporary one are as they were. -/
structure Merged (settings : List Setting) (path : PathBuf) (files files' : Files) : Prop where
  seeded : world.SeededFile settings path files files'
  others : ∀ p, p ≠ path → p ≠ tmpFor path → files' p = files p

theorem isIoError_startingRoot {path : PathBuf} {content : Option (List UInt8)} {e : Error}
    (h : world.startingRoot path content = .error e) : IsIoError e := by
  unfold startingRoot at h
  split at h
  · cases h
    rfl
  · split at h
    · cases h
    · split at h
      · cases h
      · split at h
        · cases h
        · cases h
        · cases h
          rfl

/-- **A file is replaced at once, or not at all.** -/
theorem meets_mergeJsonFile {path : PathBuf} (hparts : path.parts ≠ []) {settings : List Setting}
    (hsep : Separate settings) (files : Files) :
    (world.mergeJsonFile path (setAll settings)).Meets files
      (fun files' => (∀ p, p ≠ tmpFor path → files' p = files p) ∨ world.Merged settings path files files')
      (world.Merged settings path files) IsIoError := by
  cases hr : world.startingRoot path (files path) with
  | error e =>
    have hmerge : world.mergeJsonFile path (setAll settings) files = Script.fail e files := by
      unfold mergeJsonFile
      rw [hr]
    exact (Script.meets_fail (world.isIoError_startingRoot hr)).congr hmerge
  | ok root =>
    have hmerge : world.mergeJsonFile path (setAll settings) files =
        world.writeJsonFile path (setAll settings root) files := by
      unfold mergeJsonFile
      rw [hr]
    refine Script.Meets.congr ?_ hmerge
    unfold writeJsonFile
    rw [if_neg hparts]
    refine (world.meets_attempt (Q := fun files' => files' = files) _ (fun _ => by rfl) rfl).seq
      fun files₁ h₁ => ?_
    subst h₁
    cases hv : world.toVec (setAll settings root) with
    | error e => exact Script.meets_fail rfl
    | ok bytes =>
      refine ((world.meets_writeFile _ bytes (fun _ => by rfl) files₁).mono (fun _ h => .inl h) fun _ h => h).seq
        fun files₂ h₂ => ?_
      subst h₂
      have hmerged : world.Merged settings path files₁
          (renamed (tmpFor path) path (Function.update files₁ (tmpFor path) (some bytes))) := by
        constructor
        · refine ⟨root, _, bytes, hr, seeded_setAll hsep root, hv, ?_⟩
          unfold renamed
          rw [Function.update_self, Function.update_self]
        · intro p hp hptmp
          unfold renamed
          rw [Function.update_of_ne hp, Function.update_of_ne hptmp, Function.update_of_ne hptmp]
      refine (world.meets_renameFile _ _ (fun _ => by rfl) _).mono (fun files' h => .inr ?_) fun files' h => ?_
      · rw [h]
        exact hmerged
      · rw [h]
        exact hmerged

end World

/-! ## The profile -/

/-- The names of what may be left or removed: the stale files, and those written before the rename. -/
def scratchNames : List String := World.singletons ++ [".Local State.afhttp-tmp", ".Preferences.afhttp-tmp"]

def scratchFiles (dir : PathBuf) : List PathBuf :=
  World.singletons.map dir.push ++ [World.tmpFor (localState dir), World.tmpFor (preferences dir)]

/-- The files of a profile, with their settings. -/
def profileFiles (world : World) (dir : PathBuf) : List (PathBuf × List Setting) :=
  [(localState dir, localStateSettings),
   (preferences dir, preferencesSettings (world.display (dir.push "downloads")))]

def Untouched (dir : PathBuf) (files files' : Files) : Prop := ∀ p, p ∉ scratchFiles dir → files' p = files p

/-- Each file is as it was, or one of the profile that is seeded. -/
def Whole (world : World) (dir : PathBuf) (files files' : Files) : Prop :=
  ∀ p, p ∉ scratchFiles dir → files' p = files p ∨
    ∃ settings, (p, settings) ∈ profileFiles world dir ∧ world.SeededFile settings p files files'

theorem tmpFor_push (dir : PathBuf) (name : String) :
    World.tmpFor (dir.push name) = dir.push ("." ++ name ++ ".afhttp-tmp") := by
  unfold World.tmpFor
  rw [PathBuf.fileName_push]
  simp [PathBuf.pop, PathBuf.push]

theorem fileName_scratchFiles {dir p : PathBuf} (h : p ∈ scratchFiles dir) :
    ∃ name ∈ scratchNames, p.fileName = some name := by
  rcases List.mem_append.mp h with h | h
  · obtain ⟨name, hname, rfl⟩ := List.mem_map.mp h
    exact ⟨name, List.mem_append_left _ hname, PathBuf.fileName_push dir name⟩
  · unfold localState preferences at h
    rw [tmpFor_push, tmpFor_push] at h
    rcases List.mem_pair.mp h with rfl | rfl
    · exact ⟨".Local State.afhttp-tmp", by decide, PathBuf.fileName_push ..⟩
    · exact ⟨".Preferences.afhttp-tmp", by decide, PathBuf.fileName_push ..⟩

theorem push_notMem_scratchFiles (dir dir' : PathBuf) {name : String} (h : name ∉ scratchNames) :
    dir'.push name ∉ scratchFiles dir := by
  intro hmem
  obtain ⟨name', hname, e⟩ := fileName_scratchFiles hmem
  rw [PathBuf.fileName_push] at e
  cases e
  exact h hname

theorem localState_ne_preferences (dir : PathBuf) : localState dir ≠ preferences dir := by
  intro h
  have hname := congrArg PathBuf.fileName h
  unfold localState preferences at hname
  rw [PathBuf.fileName_push, PathBuf.fileName_push] at hname
  exact absurd hname (by decide)

theorem World.SeededFile.congr {world : World} {settings : List Setting} {path : PathBuf}
    {before before' after after' : Files} (h : world.SeededFile settings path before after)
    (hb : before' path = before path) (ha : after' path = after path) :
    world.SeededFile settings path before' after' := by
  obtain ⟨root, result, bytes, hroot, hseeded, hbytes, hafter⟩ := h
  exact ⟨root, result, bytes, by rw [hb]; exact hroot, hseeded, hbytes, ha.trans hafter⟩

/-- The files in `done` are seeded, and the others are as they were. -/
structure SeededSoFar (world : World) (dir : PathBuf) (done : List (PathBuf × List Setting))
    (files files' : Files) : Prop where
  seeded : ∀ f ∈ done, world.SeededFile f.2 f.1 files files'
  others : ∀ p, p ∉ scratchFiles dir → (∀ f ∈ done, f.1 ≠ p) → files' p = files p

section

variable {world : World} {dir : PathBuf} {files files₁ files₂ : Files} {f : PathBuf × List Setting}
  {done : List (PathBuf × List Setting)}

theorem notMem_scratchFiles (hf : f ∈ profileFiles world dir) : f.1 ∉ scratchFiles dir := by
  rcases List.mem_pair.mp hf with rfl | rfl
  · exact push_notMem_scratchFiles dir dir (by decide)
  · exact push_notMem_scratchFiles dir _ (by decide)

theorem tmpFor_mem_scratchFiles (hf : f ∈ profileFiles world dir) : World.tmpFor f.1 ∈ scratchFiles dir := by
  rcases List.mem_pair.mp hf with rfl | rfl
  · exact List.mem_append_right _ List.mem_cons_self
  · exact List.mem_append_right _ (List.mem_cons_of_mem _ List.mem_cons_self)

theorem parts_ne_nil (hf : f ∈ profileFiles world dir) : f.1.parts ≠ [] := by
  rcases List.mem_pair.mp hf with rfl | rfl
  · exact List.append_ne_nil_of_right_ne_nil _ (List.cons_ne_nil _ _)
  · exact List.append_ne_nil_of_right_ne_nil _ (List.cons_ne_nil _ _)

theorem separate_of_mem (hf : f ∈ profileFiles world dir) : Separate f.2 := by
  rcases List.mem_pair.mp hf with rfl | rfl
  · exact separate_localState
  · exact separate_preferences _

theorem ne_tmpFor (hf : f ∈ profileFiles world dir) {p : PathBuf} (hp : p ∉ scratchFiles dir) :
    p ≠ World.tmpFor f.1 := by
  rintro rfl
  exact hp (tmpFor_mem_scratchFiles hf)

theorem SeededSoFar.whole (h : SeededSoFar world dir done files files₁) (hdone : done ⊆ profileFiles world dir) :
    Whole world dir files files₁ := by
  intro p hp
  by_cases hd : ∃ f ∈ done, f.1 = p
  · obtain ⟨f, hf, rfl⟩ := hd
    exact .inr ⟨f.2, hdone hf, h.seeded f hf⟩
  · exact .inl (h.others p hp fun f hf e => hd ⟨f, hf, e⟩)

theorem SeededSoFar.congr (h : SeededSoFar world dir done files files₁) (hdone : done ⊆ profileFiles world dir)
    (hsame : ∀ p, p ∉ scratchFiles dir → files₂ p = files₁ p) : SeededSoFar world dir done files files₂ :=
  ⟨fun f hf => (h.seeded f hf).congr rfl (hsame _ (notMem_scratchFiles (hdone hf))),
    fun p hp hd => (hsame p hp).trans (h.others p hp hd)⟩

theorem SeededSoFar.merged (h : SeededSoFar world dir done files files₁) (hdone : done ⊆ profileFiles world dir)
    (hf : f ∈ profileFiles world dir) (hnew : ∀ g ∈ done, g.1 ≠ f.1) (hm : world.Merged f.2 f.1 files₁ files₂) :
    SeededSoFar world dir (done ++ [f]) files files₂ := by
  constructor
  · intro g hg
    rcases List.mem_append.mp hg with hg | hg
    · have hkept := hm.others g.1 (hnew g hg) (ne_tmpFor hf (notMem_scratchFiles (hdone hg)))
      exact (h.seeded g hg).congr rfl hkept
    · rw [List.mem_singleton.mp hg]
      exact hm.seeded.congr (h.others f.1 (notMem_scratchFiles hf) hnew).symm rfl
  · intro p hp hd
    have hne : p ≠ f.1 := (hd f (List.mem_append_right _ List.mem_cons_self)).symm
    have hold : files₁ p = files p := h.others p hp fun g hg => hd g (List.mem_append_left _ hg)
    exact (hm.others p hne (ne_tmpFor hf hp)).trans hold

/-- One file more. -/
theorem meets_merge (h : SeededSoFar world dir done files files₁) (hdone : done ++ [f] ⊆ profileFiles world dir)
    (hnew : ∀ g ∈ done, g.1 ≠ f.1) :
    (world.mergeJsonFile f.1 (setAll f.2)).Meets files₁ (Whole world dir files)
      (SeededSoFar world dir (done ++ [f]) files) IsIoError := by
  have hold : done ⊆ profileFiles world dir := fun g hg => hdone (List.mem_append_left _ hg)
  have hf : f ∈ profileFiles world dir := hdone (List.mem_append_right _ List.mem_cons_self)
  have hmerged : ∀ files', world.Merged f.2 f.1 files₁ files' →
      SeededSoFar world dir (done ++ [f]) files files' := fun _ hm => h.merged hold hf hnew hm
  refine (world.meets_mergeJsonFile (parts_ne_nil hf) (separate_of_mem hf) files₁).mono
    (fun files' hor => ?_) hmerged
  rcases hor with hsame | hm
  · exact (h.congr hold fun p hp => hsame p (ne_tmpFor hf hp)).whole hold
  · exact (hmerged files' hm).whole hdone

theorem Untouched.seededSoFar (h : Untouched dir files files₁) : SeededSoFar world dir [] files files₁ :=
  ⟨fun _ hf => absurd hf List.not_mem_nil, fun p hp _ => h p hp⟩

theorem meets_removeStaleProcessSingletonFiles (h : Untouched dir files files₁) :
    (world.removeStaleProcessSingletonFiles dir).Meets files₁ (Untouched dir files) (Untouched dir files)
      IsIoError := by
  refine Script.meets_forEach (fun name hname files₂ h₂ => ?_) h
  have hremoved : ∀ files', files' = Function.update files₂ (dir.push name) none →
      Untouched dir files files' := by
    rintro files' rfl p hp
    have hne : p ≠ dir.push name := by
      rintro rfl
      exact hp (List.mem_append_left _ (List.mem_map_of_mem hname))
    rw [Function.update_of_ne hne]
    exact h₂ p hp
  exact (world.meets_removeStale dir name files₂).mono hremoved hremoved

end

/-- **A launch seeds the profile.**  Without an error, both files hold their settings, put into what they
held before; with one, or if the host is killed on the way, each still holds what it held before, or all of
that.  But for these two only stale and temporary files are touched, and every error is an `io_error`. -/
theorem preseed_profile (world : World) (dir : PathBuf) (files : Files) :
    (preseedChromiumProfile world dir).Meets files (Whole world dir files)
      (fun files' => Whole world dir files files' ∧
        ∀ f ∈ profileFiles world dir, world.SeededFile f.2 f.1 files files') IsIoError := by
  unfold preseedChromiumProfile
  have hstart : Untouched dir files files := fun _ _ => rfl
  have hfirst : [(localState dir, localStateSettings)] ⊆ profileFiles world dir := by
    intro f hf
    rw [List.mem_singleton.mp hf]
    exact List.mem_cons_self
  have hnew : ∀ f ∈ [(localState dir, localStateSettings)], f.1 ≠ preferences dir := by
    intro f hf
    rw [List.mem_singleton.mp hf]
    exact localState_ne_preferences dir
  refine (world.meets_attempt _ (fun _ => by rfl) hstart).seq fun files₁ h₁ => ?_
  refine ((meets_removeStaleProcessSingletonFiles h₁).mono
    (fun _ h => h.seededSoFar.whole (List.nil_subset _)) fun _ h => h).seq fun files₂ h₂ => ?_
  refine (meets_merge h₂.seededSoFar hfirst fun f hf => absurd hf List.not_mem_nil).seq fun files₃ h₃ => ?_
  refine (world.meets_attempt _ (fun _ => by rfl) h₃).seq fun files₄ h₄ => ?_
  exact (meets_merge h₄ (List.Subset.refl (profileFiles world dir)) hnew).mono (fun _ h => h)
    fun _ h => ⟨h.whole (List.Subset.refl _), h.seeded⟩

end Afhttp.Host

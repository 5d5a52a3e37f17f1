import Mathlib
import Afhttp.Collect.Streams
import Afhttp.Fetch.BrowserPath
import Afhttp.Shared.Form

/-!
# Captured bodies and frames on disk

`sdk/fetch/artifacts/network_bodies.rs`, `write_frames_jsonl` and the captures at the end of
`browser_path` in `sdk/fetch/pipeline/browser/mod.rs`, and `network_bodies.rs` beside it.  What is
captured for a request is written to `<root>/network-bodies/{request id}.{extension}`; the id is
the browser's, and so is any `/` in it.

The place of a file is its path without `.` and `..` (`PathBuf.resolve`).

    a file goes where the id's text before its last `/` leads      (resolve_artifactFile)
    its name there tells the rest of the id from the extension     (fileName_inj)
    so the files stay in the directory, and apart, exactly if each
    id leads back to it and no two items share the rest            (confined_iff)
-/

namespace Afhttp

open Text

/-! ## Paths from texts -/

/-- A piece between two `/`. -/
def Component.ofSegment (s : String) : Option Component :=
  if s = "" ∨ s = "." then none else if s = ".." then some .parentDir else some (.normal s)

/-- `Path::join` on a path that is not empty. -/
def PathBuf.join (p : PathBuf) (path : String) : PathBuf :=
  let parts := (split '/' path).filterMap Component.ofSegment
  if startsWith path "/" then ⟨true, parts⟩ else { p with parts := p.parts ++ parts }

/-- The place that a path names. -/
def PathBuf.resolve (p : PathBuf) : PathBuf := p.parts.foldl PathBuf.enter ⟨p.absolute, []⟩

namespace Collect

open Fetch

/-! ## The files -/

inductive Ext where
  | json | html | css | js | txt | png | jpg | webp | svg | bin | framesJsonl
  deriving DecidableEq

def Ext.str : Ext → String
  | json => "json"
  | html => "html"
  | css => "css"
  | js => "js"
  | txt => "txt"
  | png => "png"
  | jpg => "jpg"
  | webp => "webp"
  | svg => "svg"
  | bin => "bin"
  | framesJsonl => "frames.jsonl"

def extForMime (mime : Option String) : Ext :=
  let m := mime.getD ""
  if startsWith m "application/json" then .json
  else if startsWith m "text/html" then .html
  else if startsWith m "text/css" then .css
  else if startsWith m "application/javascript" || startsWith m "text/javascript" then .js
  else if startsWith m "text/plain" then .txt
  else if startsWith m "image/png" then .png
  else if startsWith m "image/jpeg" then .jpg
  else if startsWith m "image/webp" then .webp
  else if startsWith m "image/svg" then .svg
  else if startsWith m "text/event-stream" then .txt
  else .bin

def networkBodiesDir (root : PathBuf) : PathBuf := root.push "network-bodies"

def artifactFile (root : PathBuf) (requestId : String) (ext : Ext) : PathBuf :=
  (networkBodiesDir root).join (requestId ++ "." ++ ext.str)

/-- What is captured of one request. -/
inductive Item where
  | body (requestId : String)
  | wsFrames (requestId : String)
  | sseEvents (requestId : String)
  deriving DecidableEq

def Item.requestId : Item → String
  | body id | wsFrames id | sseEvents id => id

/-- An item that reaches the disk. -/
structure Captured where
  item : Item
  ext : Ext
  contents : List UInt8

def Captured.file (root : PathBuf) (c : Captured) : PathBuf := artifactFile root c.item.requestId c.ext

/-! ## The captures -/

/-- What the code takes from the libraries, and what it does with floating point. -/
structure CaptureLib where
  /-- `known_body_exceeds_limit`. -/
  knownBodyExceedsLimit : NetworkEntry → ℕ → Bool
  /-- `base64::engine::general_purpose::STANDARD.decode`. -/
  base64Decode : String → Except String (List UInt8)
  /-- `serde_json::from_slice` takes it. -/
  isJson : List UInt8 → Bool
  /-- `serde_json::to_string`. -/
  toText : Json → String
  display : PathBuf → String

inductive NetworkBodies where
  | off | xhr | all
  deriving DecidableEq

/-- The fetch, as far as the captures read it. -/
structure FilesConfig where
  lib : CaptureLib
  capture : CaptureConfig
  root : PathBuf
  bodies : NetworkBodies
  /-- `Wait::Auto` or `Wait::SelectorStable`. -/
  waitsForReadiness : Bool
  maxBytes : ℕ

def FilesConfig.mode (cfg : FilesConfig) : NetworkBodies :=
  if cfg.bodies = .off ∧ cfg.waitsForReadiness = true then .xhr else cfg.bodies

def networkBodiesEligible (mode : NetworkBodies) (resourceType : String) : Bool :=
  match mode with
  | .off => false
  | .all => true
  | .xhr => ["XHR", "Fetch", "EventSource"].contains resourceType

def cdpResponseBodyMaxBytes : ℕ := 10 * 1024 * 1024

def decodeResponseBody (lib : CaptureLib) (requestId : String) (resp : Json) : Except Error (List UInt8) :=
  let body := ((resp.get "body").bind Json.asStr).getD ""
  if ((resp.get "base64Encoded").bind Json.asBool).getD false then
    match lib.base64Decode body with
    | .ok bytes => .ok bytes
    | .error e => .error (.new .artifactCaptureFailed s!"base64 decode for {requestId}: {e}")
  else .ok body.toUTF8.toList

/-- The captures of a fetch so far. -/
structure Capturing where
  inner : CaptureInner
  written : List Captured
  warnings : List Warning

namespace Capturing

def warn (s : Capturing) (code : ErrorCode) (detail : String) : Capturing :=
  { s with warnings := s.warnings ++ [⟨code, detail⟩] }

def update (s : Capturing) (id : String) (f : NetworkEntry → NetworkEntry) : Capturing :=
  { s with inner := { s.inner with network := s.inner.network.update id f } }

def setHint (s : Capturing) (id key : String) (value : Json) : Capturing :=
  s.update id fun entry => { entry with hints := entry.hints.insert key value }

def setBodyFile (s : Capturing) (id : String) (path : PathBuf) : Capturing :=
  s.update id fun entry => { entry with bodyFile := some path }

def write (s : Capturing) (c : Captured) : Capturing := { s with written := s.written ++ [c] }

/-- The collector goes on. -/
def observe (s : Capturing) (cfg : CaptureConfig) (es : List CaptureEvent) : Capturing :=
  { s with inner := es.foldl (captureStep cfg) s.inner }

end Capturing

section
variable (cfg : FilesConfig)

/-- What a frame log meets. -/
structure FramesMeet where
  ensureDir : Except Error Unit
  writeBytes : Except Error Unit

def jsonLines (lib : CaptureLib) (frames : List Json) : List UInt8 :=
  (String.join (frames.map fun frame => lib.toText frame ++ "\n")).toUTF8.toList

/-- One pass of `write_frames_jsonl`. -/
def writeFrames (item : String → Item) (meets : String → FramesMeet) (s : Capturing) (taken : String × List Json) :
    Capturing :=
  if taken.2 = [] then s
  else
    match (meets taken.1).ensureDir with
    | .error e => s.warn e.errorCode s!"frames jsonl mkdir: {e.detail}"
    | .ok () =>
      let c : Captured := ⟨item taken.1, .framesJsonl, jsonLines cfg.lib taken.2⟩
      match (meets taken.1).writeBytes with
      | .error e => s.warn e.errorCode s!"frames jsonl write {cfg.lib.display (c.file cfg.root)}: {e.detail}"
      | .ok () => s.write c

/-- What the capture of one body meets. -/
structure BodyMeets where
  /-- What the collector sees before the entry is looked up. -/
  before : List CaptureEvent
  deadline : Except Error Unit
  reply : Except Error Json
  write : Except Error Unit

/-- A body that is decoded. -/
def writeBody (id : String) (entry : NetworkEntry) (bytes : List UInt8) (result : Except Error Unit) (s : Capturing) :
    Capturing :=
  let c : Captured := ⟨.body id, extForMime entry.mimeType, bytes.take cfg.maxBytes⟩
  match result with
  | .error e => s.warn e.errorCode e.detail
  | .ok () =>
    let s := (s.write c).setBodyFile id (c.file cfg.root)
    let s :=
      if cfg.maxBytes < bytes.length then
        s.warn .networkBodyTruncated s!"body for {id} truncated to {cfg.maxBytes} bytes"
      else s
    if entry.mimeType.any (containsText · "json") && cfg.lib.isJson c.contents then
      s.setHint id "json_valid" (.bool true)
    else s

/-- One pass of `capture_network_bodies`, and whether the loop goes on. -/
def captureBody (id : String) (m : BodyMeets) (s : Capturing) : Capturing × Bool :=
  let s := s.observe cfg.capture m.before
  match s.inner.network.slots[id]?.map NetworkSlot.entry with
  | none => (s, true)
  | some entry =>
    if !networkBodiesEligible cfg.mode entry.resourceType then (s, true)
    else
      let skipAbove := min cfg.maxBytes cdpResponseBodyMaxBytes
      if cfg.lib.knownBodyExceedsLimit entry skipAbove then
        ((s.setHint id "body_skipped_size_limit" (.bool true)).warn .networkBodyTruncated
          s!"body for {id} skipped before capture: known size exceeds {skipAbove} bytes", true)
      else
        match m.deadline with
        | .error e => (s.warn e.errorCode e.detail, false)
        | .ok () =>
          match m.reply with
          | .error e =>
            (s.warn (if e.errorCode = .cdpTimeout then .artifactCaptureTimeout else .artifactCaptureFailed)
              s!"getResponseBody({id}): {e.detail}", true)
          | .ok resp =>
            match decodeResponseBody cfg.lib id resp with
            | .error e => (s.warn e.errorCode e.detail, true)
            | .ok bytes => (writeBody cfg id entry bytes m.write s, true)

/-- `capture_network_bodies`, on the ids that are left. -/
def captureBodies (meets : String → BodyMeets) : List String → Capturing → Capturing
  | [], s => s
  | id :: ids, s =>
    let next := captureBody cfg id (meets id) s
    if next.2 then captureBodies meets ids next.1 else next.1

/-- What the captures of a fetch meet, and the order in which a pass meets the ids of a map. -/
structure CaptureMeets where
  beforeFrames : List CaptureEvent
  wsOrder : List String
  wsFrames : String → FramesMeet
  beforeEvents : List CaptureEvent
  sseOrder : List String
  sseEvents : String → FramesMeet
  beforeBodies : List CaptureEvent
  bodies : String → BodyMeets
  /-- The deadline passes during the capture of bodies: how many are written, and the error. -/
  timedOut : Option (ℕ × Error)

def captureFrames (m : CaptureMeets) (s : Capturing) : Capturing :=
  let s := s.observe cfg.capture m.beforeFrames
  if cfg.capture.captureWs then
    let taken := takeStreamEvents s.inner.wsFrames m.wsOrder
    taken.1.foldl (writeFrames cfg .wsFrames m.wsFrames) { s with inner := { s.inner with wsFrames := taken.2 } }
  else s

def captureEvents (m : CaptureMeets) (s : Capturing) : Capturing :=
  let s := s.observe cfg.capture m.beforeEvents
  if cfg.capture.captureSse then
    let taken := takeStreamEvents s.inner.sseEvents m.sseOrder
    taken.1.foldl (writeFrames cfg .sseEvents m.sseEvents) { s with inner := { s.inner with sseEvents := taken.2 } }
  else s

/-- The bodies of the requests that have ended since the last drain, by id. -/
def captureFinished (m : CaptureMeets) (s : Capturing) : Capturing :=
  let s := s.observe cfg.capture m.beforeBodies
  if cfg.mode = .off then s
  else
    let finished := s.inner.network.finished.sort (· ≤ ·)
    let drained := { s with inner := { s.inner with network := { s.inner.network with finished := ∅ } } }
    let all := captureBodies cfg m.bodies finished drained
    match m.timedOut with
    | none => all
    | some (n, e) => { all with written := all.written.take (s.written.length + n) }.warn e.errorCode e.detail

/-- The captures at the end of `browser_path`. -/
def captureFiles (m : CaptureMeets) : Capturing :=
  captureFinished cfg m (captureEvents cfg m (captureFrames cfg m ⟨.default, [], []⟩))

/-- What is captured: the items that reach the disk. -/
def captured (m : CaptureMeets) : List Captured := (captureFiles cfg m).written

end

/-! ## Where a file goes -/

/-- The pieces of an id before its last `/`. -/
def leadingParts (id : String) : List Component := (split '/' id).dropLast.filterMap Component.ofSegment

/-- Where the pieces lead, from the directory or from `/`. -/
def leadsTo (dir : PathBuf) (id : String) : PathBuf :=
  (leadingParts id).foldl PathBuf.enter (if startsWith id "/" then ⟨true, []⟩ else dir.resolve)

/-- What stands after the last `/` of an id. -/
def lastSegment (id : String) : String := (split '/' id).getLastD ""

theorem split_plain {c : Char} {s : String} (h : c ∉ s.toList) : split c s = [s] := by
  unfold split
  rw [List.splitOn_eq_singleton h, List.map_singleton, String.ofList_toList]

/-- What is appended stays with the last piece. -/
theorem split_append_plain (id : String) {t : String} (ht : '/' ∉ t.toList) :
    split '/' (id ++ t) = (split '/' id).dropLast ++ [lastSegment id ++ t] := by
  by_cases hid : '/' ∈ id.toList
  · obtain ⟨a, b, rfl, hb⟩ := exists_append_last hid
    have hbt : '/' ∉ (b ++ t).toList := by
      rw [String.toList_append, List.mem_append]
      exact not_or.mpr ⟨hb, ht⟩
    unfold lastSegment
    rw [String.append_assoc, Form.split_append, Form.split_append, split_plain hb, split_plain hbt]
    simp
  · have hidt : '/' ∉ (id ++ t).toList := by
      rw [String.toList_append, List.mem_append]
      exact not_or.mpr ⟨hid, ht⟩
    unfold lastSegment
    rw [split_plain hid, split_plain hidt]
    rfl

theorem startsWith_append_plain (id : String) {t : String} (ht : '/' ∉ t.toList) :
    startsWith (id ++ t) "/" = startsWith id "/" := by
  unfold startsWith
  rw [String.toList_append]
  cases hid : id.toList with
  | nil =>
    cases hcs : t.toList with
    | nil => rfl
    | cons c cs =>
      have hne : ('/' == c) = false := by
        rw [beq_eq_false_iff_ne]
        intro h
        exact ht (by rw [hcs, h]; exact List.mem_cons_self)
      show ('/' == c && _) = false
      rw [hne]
      rfl
  | cons c cs => rfl

theorem plain_ext (ext : Ext) : '/' ∉ ("." ++ ext.str).toList := by
  cases ext <;> decide

/-- A piece with an extension is a name. -/
theorem ofSegment_ext (s : String) (ext : Ext) :
    Component.ofSegment (s ++ ("." ++ ext.str)) = some (.normal (s ++ ("." ++ ext.str))) := by
  have hlen : 2 < (s ++ ("." ++ ext.str)).length := by
    have hext : 2 < ("." ++ ext.str).length := by cases ext <;> decide
    rw [String.length_append]
    omega
  have hshort : ∀ r : String, r.length ≤ 2 → s ++ ("." ++ ext.str) ≠ r := by
    intro r hr h
    rw [h] at hlen
    omega
  unfold Component.ofSegment
  rw [if_neg, if_neg]
  · exact hshort ".." (by decide)
  · exact not_or.mpr ⟨hshort "" (by decide), hshort "." (by decide)⟩

theorem resolve_join (dir : PathBuf) (path : String) :
    (dir.join path).resolve = ((split '/' path).filterMap Component.ofSegment).foldl PathBuf.enter
      (if startsWith path "/" then ⟨true, []⟩ else dir.resolve) := by
  unfold PathBuf.join PathBuf.resolve
  dsimp only
  split
  · rfl
  · exact List.foldl_append

/-- **Where a file goes**: where the text before the id's last `/` leads. -/
theorem resolve_artifactFile (root : PathBuf) (id : String) (ext : Ext) :
    (artifactFile root id ext).resolve =
      (leadsTo (networkBodiesDir root) id).push (lastSegment id ++ ("." ++ ext.str)) := by
  unfold artifactFile leadsTo leadingParts
  rw [resolve_join, String.append_assoc, split_append_plain id (plain_ext ext),
    startsWith_append_plain id (plain_ext ext), List.filterMap_append, List.foldl_append,
    List.filterMap_cons_some (ofSegment_ext (lastSegment id) ext)]
  rfl

/-! ## One file an item -/

/-- What an extension adds before its last dot, and what stands after it. -/
def Ext.parts : Ext → String × String
  | framesJsonl => (".frames", "jsonl")
  | ext => ("", ext.str)

theorem Ext.parts_eq (ext : Ext) : "." ++ ext.str = ext.parts.1 ++ String.ofList ['.'] ++ ext.parts.2 := by
  cases ext <;> decide

theorem Ext.plain_parts (ext : Ext) : '.' ∉ ext.parts.2.toList := by
  cases ext <;> decide

theorem Ext.parts_inj {ext ext' : Ext} (h : ext.parts.2 = ext'.parts.2) : ext = ext' := by
  cases ext <;> cases ext' <;> first | rfl | exact absurd h (by decide)

/-- **A file name** tells the rest of the id from the extension. -/
theorem fileName_inj {s s' : String} {ext ext' : Ext} (h : s ++ ("." ++ ext.str) = s' ++ ("." ++ ext'.str)) :
    s = s' ∧ ext = ext' := by
  have hsplit : ∀ (r : String) (e : Ext), rsplitOnce '.' (r ++ ("." ++ e.str)) = some (r ++ e.parts.1, e.parts.2) := by
    intro r e
    rw [e.parts_eq, ← String.append_assoc, ← String.append_assoc]
    exact rsplitOnce_append (r ++ e.parts.1) e.plain_parts
  have heq := hsplit s ext
  rw [h, hsplit s' ext', Option.some_inj, Prod.mk.injEq] at heq
  obtain ⟨hfirst, hlast⟩ := heq
  have hext : ext' = ext := Ext.parts_inj hlast
  rw [hext] at hfirst
  exact ⟨(String.append_left_inj _).mp hfirst.symm, hext.symm⟩

theorem push_inj {p q : PathBuf} {s t : String} (h : p.push s = q.push t) : p = q ∧ s = t := by
  obtain ⟨pa, pp⟩ := p
  obtain ⟨qa, qp⟩ := q
  unfold PathBuf.push at h
  rw [PathBuf.mk.injEq] at h
  obtain ⟨habs, hparts⟩ := h
  obtain ⟨hinit, hlast⟩ := List.append_inj' hparts rfl
  cases hlast
  refine ⟨?_, rfl⟩
  rw [PathBuf.mk.injEq]
  exact ⟨habs, hinit⟩

/-! ## The directory of a fetch -/

/-- Every file is a child of the fetch's directory, and different items have different files. -/
structure Confined (root : PathBuf) (cs : List Captured) : Prop where
  inside : ∀ c ∈ cs, ∃ name, (c.file root).resolve = (networkBodiesDir root).resolve.push name
  apart : ∀ c ∈ cs, ∀ c' ∈ cs, c.item ≠ c'.item → (c.file root).resolve ≠ (c'.file root).resolve

/-- The text of each id before its last `/` leads from the directory back to it, and no two items
with one extension share what stands after it. -/
structure Harmless (root : PathBuf) (cs : List Captured) : Prop where
  leadsBack : ∀ c ∈ cs, leadsTo (networkBodiesDir root) c.item.requestId = (networkBodiesDir root).resolve
  distinct : ∀ c ∈ cs, ∀ c' ∈ cs, c.item ≠ c'.item → c.ext = c'.ext →
    lastSegment c.item.requestId ≠ lastSegment c'.item.requestId

/-- **Containment.**  Whatever the browser sends, each captured body and frame log of a fetch is a
file of its own in the fetch's directory exactly if the ids are harmless. -/
theorem confined_iff (cfg : FilesConfig) (m : CaptureMeets) :
    Confined cfg.root (captured cfg m) ↔ Harmless cfg.root (captured cfg m) := by
  constructor
  · intro h
    constructor
    · intro c hc
      obtain ⟨name, hname⟩ := h.inside c hc
      rw [Captured.file, resolve_artifactFile] at hname
      exact (push_inj hname).1
    · intro c hc c' hc' hne hext hlast
      obtain ⟨name, hname⟩ := h.inside c hc
      obtain ⟨name', hname'⟩ := h.inside c' hc'
      apply h.apart c hc c' hc' hne
      unfold Captured.file at hname hname' ⊢
      rw [resolve_artifactFile] at hname hname' ⊢
      rw [resolve_artifactFile, (push_inj hname).1, (push_inj hname').1, hlast, hext]
  · intro h
    constructor
    · intro c hc
      refine ⟨lastSegment c.item.requestId ++ ("." ++ c.ext.str), ?_⟩
      rw [Captured.file, resolve_artifactFile, h.leadsBack c hc]
    · intro c hc c' hc' hne heq
      unfold Captured.file at heq
      rw [resolve_artifactFile, resolve_artifactFile] at heq
      obtain ⟨hlast, hext⟩ := fileName_inj (push_inj heq).2
      exact h.distinct c hc c' hc' hne hext hlast

/-! ## An id with `..` -/

/-- A fetch that captures the frames of its sockets. -/
def socketFetch : FilesConfig where
  lib := ⟨fun _ _ => false, fun _ => .error "invalid", fun _ => false, fun _ => "", fun _ => ""⟩
  capture := ⟨⟨⟨fun _ => 0, fun _ => false, fun _ => "", fun _ => none⟩, "s", true⟩, true, false⟩
  root := ⟨true, [.normal "out", .normal "r1"]⟩
  bodies := .off
  waitsForReadiness := false
  maxBytes := 1000

/-- One frame, of a request with this id. -/
def oneFrame (id : String) : CaptureMeets where
  beforeFrames := [(.event ⟨"Network.webSocketFrameReceived", some "s", .obj [("requestId", .str id)]⟩ 0, 0)]
  wsOrder := [id]
  wsFrames := fun _ => ⟨.ok (), .ok ()⟩
  beforeEvents := []
  sseOrder := []
  sseEvents := fun _ => ⟨.ok (), .ok ()⟩
  beforeBodies := []
  bodies := fun _ => ⟨[], .ok (), .ok .null, .ok ()⟩
  timedOut := none

/-- **An id that leads out.**  The frames of a request `../../x` go beside the directory of
the fetch, into the one that holds every fetch's. -/
theorem parent_id_escapes : ¬ Confined socketFetch.root (captured socketFetch (oneFrame "../../x")) := by
  intro h
  have hcaptured : captured socketFetch (oneFrame "../../x") =
      [⟨.wsFrames "../../x", .framesJsonl, jsonLines socketFetch.lib [.null]⟩] := by
    rfl
  obtain ⟨name, hname⟩ := h.inside _ (by rw [hcaptured]; exact List.mem_singleton_self _)
  have hparts := congrArg (fun p : PathBuf => p.parts.length) hname
  exact absurd hparts (show (2 : ℕ) ≠ 4 by decide)

end Collect

end Afhttp

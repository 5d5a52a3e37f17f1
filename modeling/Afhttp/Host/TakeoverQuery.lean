import Afhttp.Shared.Form
import Afhttp.Shared.IpAddr
import Mathlib

/-!
# The query of a panel request

A request for the takeover panel may carry its credential in the query.  `query_handoff` of
`host/listener/mod.rs` reads it from the decoded pairs.  What goes on to the display
(`display_upstream_path_and_query`) and into the landing page (`landing_bootstrap`, both of
`host/takeover/mod.rs`) leaves out the parts that begin with a name of the credential as it is
written.

    other pairs are passed on in order                   (upstream_passes, landing_passes)
    when the credential stays behind                      (stripped_iff)
-/

namespace Afhttp.Host

open Text Form

/-- `http::Uri`.  A path ends before the first `?`. -/
structure Uri where
  path : String
  query : Option String
  plain : '?' ∉ path.toList

/-- The names of the credential. -/
def isHandoffKey (key : String) : Bool := key == "handoff_secret" || key == "handoff"

def queryHandoff (form : Form) (uri : Uri) : Option String :=
  uri.query.bind fun q => ((form.parse q).find? fun p => isHandoffKey p.1).map (·.2)

/-! ## To the display -/

/-- The path behind `/takeover/panel`. -/
def upstreamPath (path : String) : String :=
  let suffix := ((stripPrefix path "/takeover/panel").filter (· ≠ "")).getD "/"
  if startsWith suffix "/" then suffix else "/" ++ suffix

def keepsUpstream (part : String) : Bool :=
  !startsWith part "handoff_secret=" && !startsWith part "handoff=" && !startsWith part "token_secret="

def displayUpstreamPathAndQuery (uri : Uri) : String :=
  match uri.query with
  | none => upstreamPath uri.path
  | some query =>
    let filtered := (split '&' query).filter keepsUpstream
    if filtered = [] then upstreamPath uri.path
    else upstreamPath uri.path ++ "?" ++ joinWith '&' filtered

/-! ## Into the landing page -/

def resizeOf (windowManager : Bool) : String := if windowManager then "remote" else "scale"

/-- The display's tier of a percentage, 0 to 9. -/
def qualityLevel (pct : UInt8) : ℕ := (min pct.toNat 100 * 9 + 50) / 100

/-- The settings that every page has, with the level. -/
def qualitySettings (level : String) : List (String × String) :=
  [("quality", level), ("dynamic_quality_min", level), ("dynamic_quality_max", "9"),
    ("jpeg_video_quality", level), ("webp_video_quality", level),
    ("max_video_resolution_x", "3840"), ("max_video_resolution_y", "2160")]

/-- `&` and one part more. -/
def addPart (settings part : String) : String := settings ++ "&" ++ part

def settingPart (setting : String × String) : String := setting.1 ++ "=" ++ setting.2

def kasmvncQualityParams (pct : UInt8) : String :=
  ((qualitySettings (qualityLevel pct).repr).map settingPart).foldl addPart ""

/-- What every landing page is given. -/
def seeds (windowManager : Bool) (quality : UInt8) : String :=
  "&resize=" ++ resizeOf windowManager ++ kasmvncQualityParams quality

def keepsOnLanding (part : String) : Bool :=
  !(part == "" || startsWith part "path=" || startsWith part "resize=" || startsWith part "handoff_secret=" ||
    startsWith part "handoff=")

/-- The settings that `landing_bootstrap` embeds. -/
def landingSettings (windowManager : Bool) (quality : UInt8) (query : String) : String :=
  ((split '&' query).filter keepsOnLanding).foldl addPart (seeds windowManager quality)

/-! ## What is asked of both -/

/-- The pairs of a panel request. -/
def given (form : Form) (uri : Uri) : List (String × String) := form.parse (uri.query.getD "")

/-- The pairs that the display is sent. -/
def forwarded (form : Form) (uri : Uri) : List (String × String) :=
  form.parse (afterFirst '?' (displayUpstreamPathAndQuery uri))

/-- The pairs that the landing page embeds. -/
def embedded (form : Form) (uri : Uri) (windowManager : Bool) (quality : UInt8) : List (String × String) :=
  form.parse (landingSettings windowManager quality (uri.query.getD ""))

/-- What the display is to be sent of the pairs: `token_secret` is left out too. -/
def isUpstreamPair (p : String × String) : Bool := !isHandoffKey p.1 && p.1 != "token_secret"

/-- What the page is to be given of the pairs: `path` and `resize` it has anew. -/
def isLandingPair (p : String × String) : Bool := !isHandoffKey p.1 && p.1 != "path" && p.1 != "resize"

/-- What the display and the landing page get of a panel request: a credential that is read goes to
neither, and the other pairs as they are and in order. -/
structure Stripped (form : Form) (uri : Uri) (windowManager : Bool) (quality : UInt8) : Prop where
  upstream_hidden : (queryHandoff form uri).isSome → ∀ p ∈ forwarded form uri, ¬ isHandoffKey p.1
  landing_hidden : (queryHandoff form uri).isSome →
    ∀ p ∈ embedded form uri windowManager quality, ¬ isHandoffKey p.1
  upstream_passes : (forwarded form uri).filter isUpstreamPair = (given form uri).filter isUpstreamPair
  /-- Behind the pairs that every page is given. -/
  landing_passes : ∃ passed, embedded form uri windowManager quality =
    form.parse (seeds windowManager quality) ++ passed ∧
      passed.filter isLandingPair = (given form uri).filter isLandingPair

/-- A name that is read as one of the credential is written as one, and has a value. -/
def WrittenOut (form : Form) (uri : Uri) : Prop :=
  ∀ part ∈ split '&' (uri.query.getD ""), isHandoffKey (form.decode (name part)) →
    startsWith part "handoff=" ∨ startsWith part "handoff_secret="

/-! ## Parts and names -/

theorem name_of_startsWith {part key : String} (hkey : '=' ∉ key.toList)
    (h : startsWith part (key ++ "=") = true) : name part = key := by
  obtain ⟨t, rfl⟩ := (startsWith_iff part _).mp h
  unfold name
  rw [String.append_assoc]
  exact beforeFirst_append hkey (Or.inr ⟨t, rfl⟩)

theorem afterFirst_append {c : Char} {a : String} (b : String) (h : c ∉ a.toList) :
    afterFirst c (a ++ String.ofList [c] ++ b) = b := by
  have e : beforeFirst c (a ++ String.ofList [c] ++ b) = a := by
    rw [String.append_assoc]
    exact beforeFirst_append h (Or.inr ⟨b, rfl⟩)
  unfold afterFirst
  rw [e]
  apply String.toList_inj.mp
  rw [String.toList_ofList, String.toList_append, String.toList_append]
  exact List.drop_left' (by simp)

theorem afterFirst_of_notMem {c : Char} {s : String} (h : c ∉ s.toList) : afterFirst c s = "" := by
  have e : beforeFirst c (s ++ "") = s := beforeFirst_append h (Or.inl rfl)
  rw [String.append_empty] at e
  unfold afterFirst
  rw [e]
  apply String.toList_inj.mp
  simp

/-! ## To the display -/

theorem upstreamPath_plain (uri : Uri) : '?' ∉ (upstreamPath uri.path).toList := by
  have hsuffix : '?' ∉ (((stripPrefix uri.path "/takeover/panel").filter (· ≠ "")).getD "/").toList := by
    match h : (stripPrefix uri.path "/takeover/panel").filter (· ≠ "") with
    | none => decide
    | some suffix =>
      obtain ⟨hs, -⟩ := Option.filter_eq_some_iff.mp h
      rw [stripPrefix_eq_some] at hs
      intro hm
      apply uri.plain
      rw [hs, String.toList_append]
      exact List.mem_append_right _ hm
  unfold upstreamPath
  simp only
  split
  · exact hsuffix
  · rw [String.toList_append, List.mem_append, not_or]
    exact ⟨by decide, hsuffix⟩

/-- The parts that go on, in order. -/
theorem forwarded_eq (form : Form) (uri : Uri) :
    forwarded form uri =
      (((split '&' (uri.query.getD "")).filter keepsUpstream).filter (· ≠ "")).map form.pair := by
  have hpath := upstreamPath_plain uri
  unfold forwarded displayUpstreamPathAndQuery
  match uri.query with
  | none =>
    simp only [afterFirst_of_notMem hpath]
    rfl
  | some q =>
    simp only [Option.getD_some]
    by_cases hnil : (split '&' q).filter keepsUpstream = []
    · rw [if_pos hnil, hnil, afterFirst_of_notMem hpath]
      rfl
    · rw [if_neg hnil]
      have e := afterFirst_append (joinWith '&' ((split '&' q).filter keepsUpstream)) hpath
      have hsplit : split '&' (joinWith '&' ((split '&' q).filter keepsUpstream)) = _ :=
        split_joinWith (fun p hp => notMem_of_mem_split (List.mem_filter.mp hp).1) hnil
      unfold parse
      rw [show upstreamPath uri.path ++ "?" = upstreamPath uri.path ++ String.ofList ['?'] from rfl, e, hsplit]

/-! ## Into the landing page -/

theorem parse_part (form : Form) {part : String} (hne : part ≠ "") (hamp : '&' ∉ part.toList) :
    form.parse part = [form.pair part] := by
  have hsplit : split '&' part = [part] := by
    unfold split
    rw [List.splitOn_eq_singleton hamp]
    simp
  unfold parse
  rw [hsplit]
  simp [hne]

theorem parse_foldl (form : Form) {parts : List String} (h : ∀ p ∈ parts, p ≠ "" ∧ '&' ∉ p.toList)
    (settings : String) :
    form.parse (parts.foldl addPart settings) = form.parse settings ++ parts.map form.pair := by
  induction parts generalizing settings with
  | nil => simp
  | cons p parts ih =>
    obtain ⟨hne, hamp⟩ := h p List.mem_cons_self
    rw [List.foldl_cons, ih fun q hq => h q (List.mem_cons_of_mem _ hq), addPart, parse_append,
      parse_part form hne hamp]
    simp

/-- Behind the seeds come the parts that are kept, in order. -/
theorem embedded_eq (form : Form) (uri : Uri) (windowManager : Bool) (quality : UInt8) :
    embedded form uri windowManager quality = form.parse (seeds windowManager quality) ++
      (((split '&' (uri.query.getD "")).filter (· ≠ "")).filter keepsOnLanding).map form.pair := by
  unfold embedded landingSettings
  rw [parse_foldl]
  · congr 2
    rw [List.filter_filter]
    apply List.filter_congr
    intro p _
    by_cases hp : p = ""
    · simp [hp, keepsOnLanding]
    · simp [hp]
  · intro p hp
    obtain ⟨hp, hkeep⟩ := List.mem_filter.mp hp
    refine ⟨?_, notMem_of_mem_split hp⟩
    rintro rfl
    exact absurd hkeep (by decide)

theorem foldl_addPart (parts : List String) (s : String) :
    parts.foldl addPart s = s ++ parts.foldl addPart "" := by
  induction parts generalizing s with
  | nil => simp
  | cons p parts ih =>
    rw [List.foldl_cons, List.foldl_cons, ih (addPart s p), ih (addPart "" p)]
    simp [addPart, String.append_assoc]

/-- The settings with which the seeds are written. -/
def seedSettings (windowManager : Bool) (quality : UInt8) : List (String × String) :=
  ("resize", resizeOf windowManager) :: qualitySettings (qualityLevel quality).repr

theorem seeds_eq (windowManager : Bool) (quality : UInt8) :
    seeds windowManager quality = ((seedSettings windowManager quality).map settingPart).foldl addPart "" := by
  unfold seeds seedSettings kasmvncQualityParams
  rw [List.map_cons, List.foldl_cons, foldl_addPart _ (addPart "" _)]
  congr 1

/-- A level is one digit. -/
theorem amp_notMem_level (pct : UInt8) : '&' ∉ (qualityLevel pct).repr.toList := by
  have hlt : qualityLevel pct < 10 := by
    unfold qualityLevel
    omega
  have hall : ∀ level : Fin 10, '&' ∉ level.val.repr.toList := by decide
  exact hall ⟨qualityLevel pct, hlt⟩

/-- The keys with which the seeds are written. -/
def seedKeys : List String :=
  ["resize", "quality", "dynamic_quality_min", "dynamic_quality_max", "jpeg_video_quality",
    "webp_video_quality", "max_video_resolution_x", "max_video_resolution_y"]

/-- They are plain, and none is one of the credential. -/
theorem seedKeys_spec : ∀ key ∈ seedKeys, '&' ∉ key.toList ∧ '=' ∉ key.toList ∧ '%' ∉ key.toList ∧
    '+' ∉ key.toList ∧ isHandoffKey key = false := by
  decide

theorem mem_seedKeys {windowManager : Bool} {quality : UInt8} {setting : String × String}
    (h : setting ∈ seedSettings windowManager quality) : setting.1 ∈ seedKeys := by
  have e : (seedSettings windowManager quality).map Prod.fst = seedKeys := rfl
  exact e ▸ List.mem_map_of_mem h

theorem amp_notMem_seedValue {windowManager : Bool} {quality : UInt8} {setting : String × String}
    (h : setting ∈ seedSettings windowManager quality) : '&' ∉ setting.2.toList := by
  have hlevel := amp_notMem_level quality
  have hresize : ∀ wm : Bool, '&' ∉ (resizeOf wm).toList := by decide
  have hmem : setting.2 ∈ [resizeOf windowManager, (qualityLevel quality).repr, "9", "3840", "2160"] := by
    simp only [seedSettings, qualitySettings, List.mem_cons, List.not_mem_nil, or_false] at h
    rcases h with rfl | rfl | rfl | rfl | rfl | rfl | rfl | rfl <;> simp
  simp only [List.mem_cons, List.not_mem_nil, or_false] at hmem
  rcases hmem with e | e | e | e | e
  · exact e ▸ hresize windowManager
  · exact e ▸ hlevel
  · exact e ▸ (by decide)
  · exact e ▸ (by decide)
  · exact e ▸ (by decide)

variable {form : Form}

theorem seeds_hidden (hform : form.Plain) (windowManager : Bool) (quality : UInt8) :
    ∀ p ∈ form.parse (seeds windowManager quality), isHandoffKey p.1 = false := by
  intro p hp
  rw [seeds_eq, parse_foldl, parse_empty, List.nil_append] at hp
  · obtain ⟨part, hpart, rfl⟩ := List.mem_map.mp hp
    obtain ⟨setting, hs, rfl⟩ := List.mem_map.mp hpart
    obtain ⟨-, heq, hpct, hplus, hkey⟩ := seedKeys_spec _ (mem_seedKeys hs)
    have hname : name (settingPart setting) = setting.1 := by
      unfold name settingPart
      rw [String.append_assoc]
      exact beforeFirst_append heq (Or.inr ⟨setting.2, rfl⟩)
    show isHandoffKey (form.decode (name (settingPart setting))) = false
    rw [hname, hform _ hpct hplus, hkey]
  · intro part hpart
    obtain ⟨setting, hs, rfl⟩ := List.mem_map.mp hpart
    have h1 := (seedKeys_spec _ (mem_seedKeys hs)).1
    have h2 := amp_notMem_seedValue hs
    constructor
    · intro e
      have := congrArg String.toList e
      simp [settingPart] at this
    · simp [settingPart, h1, h2]

/-! ## What is passed on -/

/-- A part that is not read with a plain key does not begin with that key and `=`. -/
theorem not_startsWith_of_ne (hform : form.Plain) {part : String} (key : String) (hkey : '=' ∉ key.toList)
    (hpct : '%' ∉ key.toList) (hplus : '+' ∉ key.toList) (hne : form.decode (name part) ≠ key) :
    startsWith part (key ++ "=") = false := by
  by_contra h
  rw [Bool.not_eq_false] at h
  apply hne
  rw [name_of_startsWith hkey h, hform key hpct hplus]

theorem ne_of_not_isHandoffKey {key : String} (h : isHandoffKey key = false) :
    key ≠ "handoff_secret" ∧ key ≠ "handoff" := by
  simpa [isHandoffKey] using h

/-- Leaving parts out changes nothing for the pairs that are wanted, if no part of one is left out. -/
theorem filter_pairs {keep : String → Bool} {wanted : String × String → Bool} {parts : List String}
    (h : ∀ part ∈ parts, wanted (form.pair part) = true → keep part = true) :
    ((parts.filter keep).map form.pair).filter wanted = (parts.map form.pair).filter wanted := by
  rw [List.filter_map, List.filter_map, List.filter_filter]
  congr 1
  apply List.filter_congr
  intro part hpart
  by_cases hw : wanted (form.pair part) = true
  · simp [hw, h part hpart hw]
  · simp [hw]

theorem upstream_keeps (hform : form.Plain) (part : String) (h : isUpstreamPair (form.pair part) = true) :
    keepsUpstream part = true := by
  simp only [isUpstreamPair, pair, Bool.and_eq_true, Bool.not_eq_true', bne_iff_ne] at h
  obtain ⟨h1, h2⟩ := ne_of_not_isHandoffKey h.1
  have k1 := not_startsWith_of_ne hform "handoff_secret" (by decide) (by decide) (by decide) h1
  have k2 := not_startsWith_of_ne hform "handoff" (by decide) (by decide) (by decide) h2
  have k3 := not_startsWith_of_ne hform "token_secret" (by decide) (by decide) (by decide) h.2
  show (!startsWith part ("handoff_secret" ++ "=") && !startsWith part ("handoff" ++ "=") &&
    !startsWith part ("token_secret" ++ "=")) = true
  rw [k1, k2, k3]
  rfl

theorem landing_keeps (hform : form.Plain) {part : String} (hne : part ≠ "")
    (h : isLandingPair (form.pair part) = true) : keepsOnLanding part = true := by
  simp only [isLandingPair, pair, Bool.and_eq_true, Bool.not_eq_true', bne_iff_ne] at h
  obtain ⟨h1, h2⟩ := ne_of_not_isHandoffKey h.1.1
  have k1 := not_startsWith_of_ne hform "handoff_secret" (by decide) (by decide) (by decide) h1
  have k2 := not_startsWith_of_ne hform "handoff" (by decide) (by decide) (by decide) h2
  have k3 := not_startsWith_of_ne hform "path" (by decide) (by decide) (by decide) h.1.2
  have k4 := not_startsWith_of_ne hform "resize" (by decide) (by decide) (by decide) h.2
  show (!(part == "" || startsWith part ("path" ++ "=") || startsWith part ("resize" ++ "=") ||
    startsWith part ("handoff_secret" ++ "=") || startsWith part ("handoff" ++ "="))) = true
  rw [k1, k2, k3, k4, beq_eq_false_iff_ne.mpr hne]
  rfl

theorem upstream_passes (hform : form.Plain) (uri : Uri) :
    (forwarded form uri).filter isUpstreamPair = (given form uri).filter isUpstreamPair := by
  rw [forwarded_eq, List.filter_filter, List.filter_congr fun p _ => Bool.and_comm .., ← List.filter_filter]
  exact filter_pairs fun part _ h => upstream_keeps hform part h

theorem landing_passes (hform : form.Plain) (uri : Uri) (windowManager : Bool) (quality : UInt8) :
    ∃ passed, embedded form uri windowManager quality = form.parse (seeds windowManager quality) ++ passed ∧
      passed.filter isLandingPair = (given form uri).filter isLandingPair := by
  refine ⟨_, embedded_eq form uri windowManager quality, ?_⟩
  apply filter_pairs
  intro part hpart h
  exact landing_keeps hform (of_decide_eq_true (List.mem_filter.mp hpart).2) h

/-! ## A decoder -/

/-- `+` as a space and the escapes of ASCII characters; other escapes stay. -/
def asciiDecode : List Char → List Char
  | '+' :: rest => ' ' :: asciiDecode rest
  | '%' :: a :: b :: rest =>
    if isHexDigit a && isHexDigit b && hexDigit a < 8 then
      Char.ofNat (hexDigit a * 16 + hexDigit b) :: asciiDecode rest
    else '%' :: asciiDecode (a :: b :: rest)
  | c :: rest => c :: asciiDecode rest
  | [] => []

def asciiForm : Form := ⟨fun s => String.ofList (asciiDecode s.toList)⟩

theorem asciiDecode_plain {cs : List Char} (hpct : '%' ∉ cs) (hplus : '+' ∉ cs) : asciiDecode cs = cs := by
  induction cs with
  | nil => rfl
  | cons c rest ih =>
    rw [List.mem_cons, not_or] at hpct hplus
    have hrest := ih hpct.2 hplus.2
    conv_lhs => unfold asciiDecode
    split
    · next e => exact absurd (List.cons.inj e).1.symm hplus.1
    · next e => exact absurd (List.cons.inj e).1.symm hpct.1
    · next e =>
      obtain ⟨rfl, rfl⟩ := List.cons.inj e
      rw [hrest]
    · next e => cases e

theorem asciiForm_plain : asciiForm.Plain := by
  intro s hpct hplus
  show String.ofList (asciiDecode s.toList) = s
  rw [asciiDecode_plain hpct hplus, String.ofList_toList]

/-! ## What stays behind -/

theorem queryHandoff_isSome (uri : Uri) :
    (queryHandoff form uri).isSome ↔ ∃ p ∈ given form uri, isHandoffKey p.1 = true := by
  unfold queryHandoff given
  match uri.query with
  | none => simp [parse_empty]
  | some q => simp [List.find?_isSome]

/-- A part that is written out is left out of both. -/
theorem left_out {part : String}
    (h : startsWith part "handoff=" = true ∨ startsWith part "handoff_secret=" = true) :
    keepsUpstream part = false ∧ keepsOnLanding part = false := by
  rcases h with h | h
  · simp [keepsUpstream, keepsOnLanding, h]
  · simp [keepsUpstream, keepsOnLanding, h]

/-- A part that is read as the credential and not written out goes on to the display. -/
theorem mem_forwarded (hform : form.Plain) (uri : Uri) {part : String}
    (hpart : part ∈ split '&' (uri.query.getD "")) (hkey : isHandoffKey (form.decode (name part)) = true)
    (hno : ¬ (startsWith part "handoff=" = true ∨ startsWith part "handoff_secret=" = true)) :
    part ≠ "" ∧ form.pair part ∈ forwarded form uri := by
  have hne : part ≠ "" := by
    rintro rfl
    rw [show name "" = "" from rfl, hform "" (by decide) (by decide)] at hkey
    exact absurd hkey (by decide)
  have htoken : startsWith part ("token_secret" ++ "=") = false := by
    apply not_startsWith_of_ne hform "token_secret" (by decide) (by decide) (by decide)
    intro e
    rw [e] at hkey
    exact absurd hkey (by decide)
  have hkeep : keepsUpstream part = true := by
    rw [not_or, Bool.not_eq_true, Bool.not_eq_true] at hno
    show (!startsWith part "handoff_secret=" && !startsWith part "handoff=" &&
      !startsWith part ("token_secret" ++ "=")) = true
    rw [hno.1, hno.2, htoken]
    rfl
  refine ⟨hne, ?_⟩
  rw [forwarded_eq]
  apply List.mem_map_of_mem
  rw [List.mem_filter, List.mem_filter]
  exact ⟨⟨hpart, hkeep⟩, by simpa using hne⟩

/-- **What stays behind.**  Of a panel request the credential goes neither to the display nor into the
landing page, and the other pairs go on as they are, exactly if each name that is read as one of the
credential is written as one. -/
theorem stripped_iff (hform : form.Plain) (uri : Uri) (windowManager : Bool) (quality : UInt8) :
    Stripped form uri windowManager quality ↔ WrittenOut form uri := by
  constructor
  · intro h part hpart hkey
    by_contra hno
    obtain ⟨hne, hmem⟩ := mem_forwarded hform uri hpart hkey hno
    have hsome : (queryHandoff form uri).isSome :=
      (queryHandoff_isSome uri).mpr ⟨form.pair part, (mem_parse_iff form _ _).mpr ⟨part, hpart, hne, rfl⟩, hkey⟩
    exact h.upstream_hidden hsome _ hmem hkey
  · intro h
    refine ⟨fun _ p hp hkey => ?_, fun _ p hp hkey => ?_, upstream_passes hform uri,
      landing_passes hform uri windowManager quality⟩
    · rw [forwarded_eq] at hp
      obtain ⟨part, hpart, rfl⟩ := List.mem_map.mp hp
      obtain ⟨hpart, -⟩ := List.mem_filter.mp hpart
      obtain ⟨hpart, hkeep⟩ := List.mem_filter.mp hpart
      rw [(left_out (h part hpart hkey)).1] at hkeep
      cases hkeep
    · rw [embedded_eq] at hp
      rcases List.mem_append.mp hp with hp | hp
      · rw [seeds_hidden hform windowManager quality p hp] at hkey
        cases hkey
      · obtain ⟨part, hpart, rfl⟩ := List.mem_map.mp hp
        obtain ⟨hpart, hkeep⟩ := List.mem_filter.mp hpart
        obtain ⟨hpart, -⟩ := List.mem_filter.mp hpart
        rw [(left_out (h part hpart hkey)).2] at hkeep
        cases hkeep

/-- A request that names its credential by the letters of the name. -/
theorem stripped_iff_written :
    asciiForm.Plain ∧ (Stripped asciiForm ⟨"/takeover/panel/", some "a%20b=1&handoff=s", by decide⟩ true 80 ↔
      WrittenOut asciiForm ⟨"/takeover/panel/", some "a%20b=1&handoff=s", by decide⟩) :=
  ⟨asciiForm_plain, stripped_iff asciiForm_plain _ true 80⟩

/-- A letter of the name that is escaped, and the credential goes on to the display. -/
theorem escaped_name_goes_on :
    ¬ ∀ uri windowManager quality, Stripped asciiForm uri windowManager quality := by
  intro h
  have hstripped := h ⟨"/takeover/panel/", some "handoff%5Fsecret=s", by decide⟩ true 80
  have hhidden := hstripped.upstream_hidden (by decide)
  exact hhidden ("handoff_secret", "s") (by decide) (by decide)

end Afhttp.Host

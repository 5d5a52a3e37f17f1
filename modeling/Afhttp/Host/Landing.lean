import Mathlib
import Afhttp.Host.TakeoverQuery
import Afhttp.Host.Headers
import Afhttp.Lib.FormUrlencoded
import Afhttp.Lib.JsLiteral

/-!
# The landing page of the panel

`proxy_kasmvnc`, `landing_bootstrap` and `js_string` of `host/takeover/mod.rs`.  A first visit to
the panel is answered by a page whose script goes on to the same place, with the path of the
display's socket as the browser knows it and the settings of the page.

    the page's script is the template around one string literal, which is the settings,
    whatever the query was                                          (landing_script)
    where it goes the panel is served: the page never sends a browser to itself, and the
    parts of the first query that it keeps are there, in order      (landing_once)
-/

namespace Afhttp.Host

open Text Form

/-! ## The page -/

/-- The script in front of the settings. -/
def scriptHead : String :=
  "\n(function () \x7b\n" ++
  "  var path = location.pathname;\n" ++
  "  var base = path.charAt(path.length - 1) === '/' ? path : path + '/';\n" ++
  "  var websockify = base.replace(/^\\/+/, '') + 'websockify';\n" ++
  "  location.replace(base + '?path=' + encodeURIComponent(websockify) + "

/-- The script behind them. -/
def scriptTail : String := ");\n\x7d)();\n"

def pageHead : String :=
  "<!doctype html>\n<meta charset=\"utf-8\">\n<title>afhttp takeover</title>\n" ++
  "<noscript>The takeover panel needs JavaScript.</noscript>\n<script>"

/-- One JavaScript string literal. -/
def jsString (value : String) : String := String.ofList (JsLiteral.withoutLt (JsLiteral.quote value.toList))

/-- The body of `landing_bootstrap`. -/
def landingBody (settings : String) : String :=
  pageHead ++ scriptHead ++ jsString settings ++ scriptTail ++ "</script>\n"

/-! ## The panel -/

/-- `websocket_origin_matches_host`. -/
def websocketOriginMatchesHost (headers : HeaderMap) : Bool :=
  match headers.get "origin" with
  | none => true
  | some origin =>
    match origin.toStr, (headers.get "host").map HeaderValue.toStr with
    | some origin, some (some host) =>
      eqIgnoreAsciiCase origin ("http://" ++ host) || eqIgnoreAsciiCase origin ("https://" ++ host)
    | _, _ => false

inductive PanelAnswer where
  | icon
  | landing (body : String)
  | forbidden
  /-- The socket, bridged to the display's. -/
  | socket (upstream : String)
  | http (pathAndQuery : String)

def isLanding (path : String) : Bool := path == "/takeover/panel" || path == "/takeover/panel/"

def hasPath (query : String) : Bool := (split '&' query).any (startsWith · "path=")

/-- `want_resize`. -/
def resizePart (windowManager : Bool) : String := "resize=" ++ resizeOf windowManager

def resizeOk (windowManager : Bool) (query : String) : Bool :=
  (split '&' query).any (· == resizePart windowManager)

structure Display where
  webAddr : String
  windowManager : Bool
  quality : UInt8

/-- `agent_first_ui::APP_ICON_PATH` is `iconPath`. -/
def proxyKasmvnc (iconPath : String) (display : Display) (ws : Bool) (uri : Uri) (headers : HeaderMap) :
    PanelAnswer :=
  let q := uri.query.getD ""
  if uri.path == "/takeover/panel/" ++ iconPath && !ws then .icon
  else if isLanding uri.path && !ws && !(hasPath q && resizeOk display.windowManager q) then
    .landing (landingBody (landingSettings display.windowManager display.quality q))
  else if ws then
    if websocketOriginMatchesHost headers then
      .socket ("ws://" ++ display.webAddr ++ displayUpstreamPathAndQuery uri)
    else .forbidden
  else .http (displayUpstreamPathAndQuery uri)

/-! ## What the browser makes of the page -/

/-- `location.pathname`. -/
structure Pathname where
  text : String
  /-- A URL's path holds neither of what would end it. -/
  plain : '?' ∉ text.toList ∧ '#' ∉ text.toList

def hexUpper (n : ℕ) : Char := Char.ofNat (if n < 10 then 0x30 + n else 0x37 + n)

def percentByte (b : UInt8) : List Char := ['%', hexUpper (b.toNat / 16), hexUpper (b.toNat % 16)]

/-- The characters of `keep` as they are, the bytes of others in percent escapes. -/
def percentUnless (keep : Char → Bool) (s : List Char) : List Char :=
  s.flatMap fun c => if keep c then [c] else (String.utf8EncodeChar c).flatMap percentByte

def isAsciiAlphanumeric (c : Char) : Bool :=
  ('0' ≤ c && c ≤ '9') || ('A' ≤ c && c ≤ 'Z') || ('a' ≤ c && c ≤ 'z')

/-- What `encodeURIComponent` leaves. -/
def uriUnreserved (c : Char) : Bool :=
  isAsciiAlphanumeric c || ['-', '_', '.', '!', '~', '*', '\'', '(', ')'].contains c

def encodeUriComponent (s : String) : String := String.ofList (percentUnless uriUnreserved s.toList)

/-- What a URL parser leaves in a query. -/
def queryKeeps (c : Char) : Bool :=
  '!' ≤ c && c ≤ '~' && !(['"', '#', '<', '>', '\''].contains c)

/-- A URL parser drops tabs and line ends, and escapes what a query does not hold. -/
def queryEncode (s : String) : String :=
  String.ofList (percentUnless queryKeeps (s.toList.filter fun c => !(['\t', '\n', '\r'].contains c)))

namespace Pathname

variable (pathname : Pathname)

def base : String := if endsWith pathname.text "/" then pathname.text else pathname.text ++ "/"

def websockify : String := trimStartMatches '/' pathname.base ++ "websockify"

/-- Where the script goes. -/
def target (settings : String) : String :=
  pathname.base ++ "?path=" ++ encodeUriComponent pathname.websockify ++ settings

/-- The path of the next request. -/
def nextPath (settings : String) : String := beforeFirst '?' (beforeFirst '#' (pathname.target settings))

/-- The query of the next request. -/
def nextQuery (settings : String) : String :=
  queryEncode (afterFirst '?' (beforeFirst '#' (pathname.target settings)))

end Pathname

/-! ## The script -/

theorem lt_notMem_script (settings : String) : '<' ∉ (scriptHead ++ jsString settings ++ scriptTail).toList := by
  have hhead : '<' ∉ scriptHead.toList := by decide +kernel
  have htail : '<' ∉ scriptTail.toList := by decide
  unfold jsString
  rw [String.toList_append, String.toList_append, String.toList_ofList, List.mem_append, List.mem_append]
  rintro ((h | h) | h)
  · exact hhead h
  · exact JsLiteral.lt_notMem_withoutLt _ h
  · exact htail h

/-- **The page runs its own script.**  Whatever is in the query, the script element of the page holds
the template and nothing else, and the literal in it is the string of the settings. -/
theorem landing_script (windowManager : Bool) (quality : UInt8) (query : String) :
    ∃ element script literal,
      (landingBody (landingSettings windowManager quality query)).toList = pageHead.toList ++ element ∧
      JsLiteral.scriptText element = some (script, ['\n']) ∧
      script = scriptHead.toList ++ '"' :: literal ∧
      JsLiteral.read .plain literal =
        some ((landingSettings windowManager quality query).toList.flatMap JsLiteral.utf16, scriptTail.toList) := by
  generalize landingSettings windowManager quality query = settings
  obtain ⟨literal, hliteral, hread⟩ := JsLiteral.read_quote settings.toList scriptTail.toList
  refine ⟨(scriptHead ++ jsString settings ++ scriptTail).toList ++ JsLiteral.endTag ++ ['\n'],
    (scriptHead ++ jsString settings ++ scriptTail).toList, literal, ?_, ?_, ?_, hread⟩
  · unfold landingBody
    rw [show "</script>\n" = String.ofList (JsLiteral.endTag ++ ['\n']) from rfl]
    simp only [String.toList_append, String.toList_ofList, List.append_assoc]
  · exact JsLiteral.scriptText_append (lt_notMem_script settings) ['\n']
  · unfold jsString
    rw [String.toList_append, String.toList_append, String.toList_ofList, List.append_assoc, hliteral]

/-! ## Where the script goes -/

/-- What is written for a character: the character, or digits behind a `%`. -/
theorem mem_percentUnless {keep : Char → Bool} {s : List Char} {x : Char} (h : x ∈ percentUnless keep s) :
    keep x = true ∧ x ∈ s ∨ x ∈ "%0123456789ABCDEF".toList := by
  obtain ⟨c, hc, hx⟩ := List.mem_flatMap.mp h
  split at hx
  · next hkeep =>
    rw [List.mem_singleton.mp hx]
    exact .inl ⟨hkeep, hc⟩
  · obtain ⟨b, -, hb⟩ := List.mem_flatMap.mp hx
    have hdigit : ∀ n : Fin 16, hexUpper n ∈ "%0123456789ABCDEF".toList := by decide
    have hlt := b.toNat_lt
    right
    rcases List.mem_cons.mp hb with rfl | hb
    · decide
    rcases List.mem_cons.mp hb with rfl | hb
    · exact hdigit ⟨b.toNat / 16, by omega⟩
    · rw [List.mem_singleton.mp hb]
      exact hdigit ⟨b.toNat % 16, by omega⟩

/-- A character that is not kept is not written. -/
theorem notMem_percentUnless {keep : Char → Bool} {x : Char} (hx : keep x = false)
    (hplain : x ∉ "%0123456789ABCDEF".toList) (s : List Char) : x ∉ percentUnless keep s := by
  intro h
  rcases mem_percentUnless h with ⟨hkeep, -⟩ | h
  · rw [hx] at hkeep
    cases hkeep
  · exact hplain h

theorem notMem_encodeUriComponent {x : Char} (hx : uriUnreserved x = false)
    (hplain : x ∉ "%0123456789ABCDEF".toList) (s : String) : x ∉ (encodeUriComponent s).toList := by
  unfold encodeUriComponent
  rw [String.toList_ofList]
  exact notMem_percentUnless hx hplain _

theorem toList_queryEncode (s : String) : (queryEncode s).toList =
    percentUnless queryKeeps (s.toList.filter fun c => !(['\t', '\n', '\r'].contains c)) := String.toList_ofList

theorem queryEncode_append (a b : String) : queryEncode (a ++ b) = queryEncode a ++ queryEncode b := by
  apply String.toList_inj.mp
  rw [String.toList_append, toList_queryEncode, toList_queryEncode, toList_queryEncode, String.toList_append,
    List.filter_append]
  exact List.flatMap_append

/-- A text that a query holds is left as it is. -/
theorem queryEncode_of_keeps {s : String} (h : s.toList.all queryKeeps = true) : queryEncode s = s := by
  rw [List.all_eq_true] at h
  have hfilter : ∀ c ∈ s.toList, (!(['\t', '\n', '\r'].contains c)) = true := by
    intro c hc
    have hkeep := h c hc
    have htab : c ≠ '\t' := by
      rintro rfl
      exact absurd hkeep (by decide)
    have hlf : c ≠ '\n' := by
      rintro rfl
      exact absurd hkeep (by decide)
    have hcr : c ≠ '\r' := by
      rintro rfl
      exact absurd hkeep (by decide)
    simp [htab, hlf, hcr]
  apply String.toList_inj.mp
  rw [toList_queryEncode, List.filter_eq_self.mpr hfilter]
  unfold percentUnless
  calc s.toList.flatMap (fun c => if queryKeeps c then [c] else (String.utf8EncodeChar c).flatMap percentByte)
      = s.toList.flatMap (fun c => [c]) := List.flatMap_congr fun c hc => if_pos (h c hc)
    _ = s.toList := List.flatMap_singleton' _

/-- Only `&` is written as `&`. -/
theorem amp_notMem_queryEncode {s : String} (h : '&' ∉ s.toList) : '&' ∉ (queryEncode s).toList := by
  rw [toList_queryEncode]
  intro hmem
  rcases mem_percentUnless hmem with ⟨-, hs⟩ | hs
  · exact h (List.mem_filter.mp hs).1
  · exact absurd hs (by decide)

/-- A first part, with others behind it. -/
theorem foldl_addPart_eq (first : String) (parts : List String) :
    parts.foldl addPart first = joinWith '&' (first :: parts) := by
  induction parts generalizing first with
  | nil =>
    apply String.toList_inj.mp
    simp [joinWith]
  | cons part parts ih =>
    rw [List.foldl_cons, ih]
    apply String.toList_inj.mp
    cases parts <;> simp [joinWith, addPart]

/-- The parts that the next query is made of. -/
def nextParts (pathname : Pathname) (windowManager : Bool) (quality : UInt8) (query : String) : List String :=
  ("path=" ++ encodeUriComponent pathname.websockify) ::
    ((seedSettings windowManager quality).map settingPart ++ (split '&' query).filter keepsOnLanding)

theorem target_eq (pathname : Pathname) (windowManager : Bool) (quality : UInt8) (query : String) :
    pathname.target (landingSettings windowManager quality query) =
      pathname.base ++ "?" ++ joinWith '&' (nextParts pathname windowManager quality query) := by
  have hsettings : landingSettings windowManager quality query =
      ((seedSettings windowManager quality).map settingPart ++ (split '&' query).filter keepsOnLanding).foldl addPart
        "" := by
    unfold landingSettings
    rw [seeds_eq, List.foldl_append]
  unfold Pathname.target nextParts
  rw [← foldl_addPart_eq, foldl_addPart _ (_ ++ _), hsettings]
  simp only [String.append_assoc]
  rfl

theorem base_plain (pathname : Pathname) : '?' ∉ pathname.base.toList ∧ '#' ∉ pathname.base.toList := by
  unfold Pathname.base
  split
  · exact pathname.plain
  · simp only [String.toList_append, List.mem_append, not_or]
    exact ⟨⟨pathname.plain.1, by decide⟩, pathname.plain.2, by decide⟩

/-- The seeds are written in characters that a query holds. -/
theorem seedPart_keeps {windowManager : Bool} {quality : UInt8} {setting : String × String}
    (h : setting ∈ seedSettings windowManager quality) : (settingPart setting).toList.all queryKeeps = true := by
  have hkeys : ∀ key ∈ seedKeys, key.toList.all queryKeeps = true := by decide
  have hlevels : ∀ level : Fin 10, level.val.repr.toList.all queryKeeps = true := by decide
  have hresize : ∀ wm : Bool, (resizeOf wm).toList.all queryKeeps = true := by decide
  have hlevel : qualityLevel quality < 10 := by
    unfold qualityLevel
    omega
  have hmem : setting.2 ∈ [resizeOf windowManager, (qualityLevel quality).repr, "9", "3840", "2160"] := by
    simp only [seedSettings, qualitySettings, List.mem_cons, List.not_mem_nil, or_false] at h
    rcases h with rfl | rfl | rfl | rfl | rfl | rfl | rfl | rfl <;> simp
  have hvalue : setting.2.toList.all queryKeeps = true := by
    simp only [List.mem_cons, List.not_mem_nil, or_false] at hmem
    rcases hmem with e | e | e | e | e
    · exact e ▸ hresize windowManager
    · exact e ▸ hlevels ⟨qualityLevel quality, hlevel⟩
    all_goals exact e ▸ (by decide)
  unfold settingPart
  rw [String.toList_append, String.toList_append, List.all_append, List.all_append, hkeys _ (mem_seedKeys h), hvalue]
  decide

theorem joinWith_cons (c : Char) (part : String) {rest : List String} (h : rest ≠ []) :
    joinWith c (part :: rest) = part ++ (String.ofList [c] ++ joinWith c rest) := by
  obtain ⟨p, ps, rfl⟩ := List.exists_cons_of_ne_nil h
  apply String.toList_inj.mp
  simp [joinWith]

theorem joinWith_singleton (c : Char) (part : String) : joinWith c [part] = part :=
  String.toList_inj.mp (by simp [joinWith])

/-- What is in a joined text is in a part of it. -/
theorem mem_joinWith {c x : Char} {parts : List String} (hx : x ≠ c) :
    x ∈ (joinWith c parts).toList ↔ ∃ part ∈ parts, x ∈ part.toList := by
  induction parts with
  | nil => simp [joinWith]
  | cons part parts ih =>
    by_cases hne : parts = []
    · subst hne
      rw [joinWith_singleton]
      simp
    · rw [joinWith_cons c part hne, String.toList_append, String.toList_append, List.mem_append, List.mem_append, ih,
        String.toList_ofList, List.mem_singleton]
      simp [hx]

theorem joinWith_split (c : Char) (s : String) : joinWith c (split c s) = s := by
  apply String.toList_inj.mp
  unfold joinWith split
  rw [List.map_map, String.toList_ofList]
  have hid : String.toList ∘ String.ofList = id := by
    funext l
    exact String.toList_ofList
  rw [hid, List.map_id, List.intercalate_splitOn]

/-- An `&` is left where it is. -/
theorem queryEncode_joinWith (parts : List String) :
    queryEncode (joinWith '&' parts) = joinWith '&' (parts.map queryEncode) := by
  induction parts with
  | nil => rfl
  | cons part parts ih =>
    by_cases hne : parts = []
    · subst hne
      rw [List.map_singleton, joinWith_singleton, joinWith_singleton]
    · have hamp : queryEncode (String.ofList ['&']) = String.ofList ['&'] := queryEncode_of_keeps (by decide)
      have hne' : parts.map queryEncode ≠ [] := by simpa using hne
      rw [joinWith_cons '&' part hne, queryEncode_append, queryEncode_append, hamp, ih, List.map_cons,
        joinWith_cons '&' _ hne']

theorem nextParts_plain (pathname : Pathname) (windowManager : Bool) (quality : UInt8) {query : String}
    (hquery : '#' ∉ query.toList) :
    ∀ part ∈ nextParts pathname windowManager quality query, '&' ∉ part.toList ∧ '#' ∉ part.toList := by
  intro part hpart
  rcases List.mem_cons.mp hpart with rfl | hpart
  · have hamp := notMem_encodeUriComponent (x := '&') (by decide) (by decide) pathname.websockify
    have hhash := notMem_encodeUriComponent (x := '#') (by decide) (by decide) pathname.websockify
    simp only [String.toList_append, List.mem_append, not_or]
    exact ⟨⟨by decide, hamp⟩, by decide, hhash⟩
  rcases List.mem_append.mp hpart with hpart | hpart
  · obtain ⟨setting, hs, rfl⟩ := List.mem_map.mp hpart
    have hkeeps := List.all_eq_true.mp (seedPart_keeps hs)
    obtain ⟨hname, -⟩ := seedKeys_spec _ (mem_seedKeys hs)
    have hamp : '&' ∉ (settingPart setting).toList := by
      unfold settingPart
      simp only [String.toList_append, List.mem_append, not_or]
      exact ⟨⟨hname, by decide⟩, amp_notMem_seedValue hs⟩
    exact ⟨hamp, fun hhash => absurd (hkeeps _ hhash) (by decide)⟩
  · obtain ⟨hpart, -⟩ := List.mem_filter.mp hpart
    refine ⟨notMem_of_mem_split hpart, fun hhash => hquery ?_⟩
    rw [← joinWith_split '&' query]
    exact (mem_joinWith (by decide)).mpr ⟨part, hpart, hhash⟩

/-- The request that follows: the panel's own path, and the parts. -/
theorem next_eq (pathname : Pathname) (windowManager : Bool) (quality : UInt8) {query : String}
    (hquery : '#' ∉ query.toList) :
    pathname.nextPath (landingSettings windowManager quality query) = pathname.base ∧
      pathname.nextQuery (landingSettings windowManager quality query) =
        queryEncode (joinWith '&' (nextParts pathname windowManager quality query)) := by
  have hparts := nextParts_plain pathname windowManager quality hquery
  have htarget := target_eq pathname windowManager quality query
  generalize nextParts pathname windowManager quality query = parts at hparts htarget ⊢
  generalize landingSettings windowManager quality query = settings at htarget ⊢
  obtain ⟨hmark, hhash⟩ := base_plain pathname
  have hplain : '#' ∉ (pathname.base ++ "?" ++ joinWith '&' parts).toList := by
    rw [String.toList_append, String.toList_append, List.mem_append, List.mem_append, mem_joinWith (by decide)]
    rintro ((h | h) | ⟨part, hpart, h⟩)
    · exact hhash h
    · exact absurd h (by decide)
    · exact (hparts part hpart).2 h
  have hcut : beforeFirst '#' (pathname.target settings) = pathname.base ++ "?" ++ joinWith '&' parts := by
    have h := beforeFirst_append (r := "") hplain (.inl rfl)
    rw [String.append_empty, ← htarget] at h
    exact h.trans htarget
  unfold Pathname.nextPath Pathname.nextQuery
  rw [hcut]
  constructor
  · rw [String.append_assoc]
    exact beforeFirst_append hmark (.inr ⟨_, rfl⟩)
  · exact congrArg queryEncode (afterFirst_append _ hmark)

theorem settingPart_resize (windowManager : Bool) :
    settingPart ("resize", resizeOf windowManager) = resizePart windowManager := by
  have key : ("resize" : String) ++ "=" = "resize=" := by decide
  unfold settingPart resizePart
  rw [key]

/-- A query with a `path` and the display's `resize` is not answered by the page. -/
theorem landing_not_again {iconPath : String} {display : Display} {uri : Uri} {query : String}
    (hquery : uri.query = some query) (hpath : hasPath query = true)
    (hresize : resizeOk display.windowManager query = true) (ws : Bool) (headers : HeaderMap) (body : String) :
    proxyKasmvnc iconPath display ws uri headers ≠ .landing body := by
  have hq : uri.query.getD "" = query := by rw [hquery, Option.getD_some]
  unfold proxyKasmvnc
  simp only [hq, hpath, hresize, Bool.and_self, Bool.not_true, Bool.and_false, Bool.false_eq_true, if_false]
  split_ifs <;> simp

/-- **The panel is reached.**  Whatever the first query was, and wherever the panel is served from:
the script goes to the panel's own path, with the `path` and the settings of the display and then
the parts of the first query that the page keeps, in order; and the request that comes of it is
never answered by the page again. -/
theorem landing_once (pathname : Pathname) (display : Display) {query : String} (hquery : '#' ∉ query.toList) :
    let settings := landingSettings display.windowManager display.quality query
    pathname.nextPath settings = pathname.base ∧
      split '&' (pathname.nextQuery settings) =
        ("path=" ++ queryEncode (encodeUriComponent pathname.websockify)) ::
          ((seedSettings display.windowManager display.quality).map settingPart ++
            ((split '&' query).filter keepsOnLanding).map queryEncode) ∧
      ∀ (uri : Uri) (iconPath : String) (ws : Bool) (headers : HeaderMap) (body : String),
        uri.query = some (pathname.nextQuery settings) →
          proxyKasmvnc iconPath display ws uri headers ≠ .landing body := by
  intro settings
  obtain ⟨hpath, hnext⟩ := next_eq pathname display.windowManager display.quality hquery
  have hparts := nextParts_plain pathname display.windowManager display.quality hquery
  have hencoded : ∀ part ∈ (nextParts pathname display.windowManager display.quality query).map queryEncode,
      '&' ∉ part.toList :=
    List.forall_mem_map.mpr fun part hpart => amp_notMem_queryEncode (hparts part hpart).1
  have hne : (nextParts pathname display.windowManager display.quality query).map queryEncode ≠ [] := by
    unfold nextParts
    exact List.cons_ne_nil _ _
  have hseeds : ((seedSettings display.windowManager display.quality).map settingPart).map queryEncode =
      (seedSettings display.windowManager display.quality).map settingPart := by
    refine List.map_congr_left (g := id) ?_ |>.trans (List.map_id _)
    intro part hpart
    obtain ⟨setting, hs, rfl⟩ := List.mem_map.mp hpart
    exact queryEncode_of_keeps (seedPart_keeps hs)
  have hsplit : split '&' (pathname.nextQuery settings) =
      ("path=" ++ queryEncode (encodeUriComponent pathname.websockify)) ::
        ((seedSettings display.windowManager display.quality).map settingPart ++
          ((split '&' query).filter keepsOnLanding).map queryEncode) := by
    have hkey : queryEncode "path=" = "path=" := queryEncode_of_keeps (by decide)
    rw [hnext, queryEncode_joinWith, split_joinWith hencoded hne]
    unfold nextParts
    rw [List.map_cons, List.map_append, hseeds, queryEncode_append, hkey]
  have hhas : hasPath (pathname.nextQuery settings) = true := by
    have hfirst := startsWith_append "path=" (queryEncode (encodeUriComponent pathname.websockify))
    unfold hasPath
    rw [hsplit, List.any_cons, hfirst, Bool.true_or]
  have hok : resizeOk display.windowManager (pathname.nextQuery settings) = true := by
    have hmem : resizePart display.windowManager ∈
        (seedSettings display.windowManager display.quality).map settingPart := by
      rw [← settingPart_resize]
      exact List.mem_map_of_mem List.mem_cons_self
    unfold resizeOk
    rw [hsplit, List.any_eq_true]
    exact ⟨_, List.mem_cons_of_mem _ (List.mem_append_left _ hmem), beq_self_eq_true _⟩
  exact ⟨hpath, hsplit, fun uri iconPath ws headers body huri => landing_not_again huri hhas hok ws headers body⟩

/-- Behind a session's prefix. -/
def sessionPathname : Pathname := ⟨"/s/4f/", by decide⟩

theorem landing_once_session :
    let settings := landingSettings true 100 "handoff=live&view=2"
    sessionPathname.nextPath settings = sessionPathname.base ∧
      split '&' (sessionPathname.nextQuery settings) =
        ("path=" ++ queryEncode (encodeUriComponent sessionPathname.websockify)) ::
          ((seedSettings true 100).map settingPart ++
            ((split '&' "handoff=live&view=2").filter keepsOnLanding).map queryEncode) ∧
      ∀ (uri : Uri) (iconPath : String) (ws : Bool) (headers : HeaderMap) (body : String),
        uri.query = some (sessionPathname.nextQuery settings) →
          proxyKasmvnc iconPath ⟨"127.0.0.1:6080", true, 100⟩ ws uri headers ≠ .landing body :=
  landing_once sessionPathname ⟨"127.0.0.1:6080", true, 100⟩ (by decide)

end Afhttp.Host

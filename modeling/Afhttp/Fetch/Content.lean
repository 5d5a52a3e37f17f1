import Mathlib
import Afhttp.Lib.JsLiteral

/-!
# The composed content of a page

The script of `capture_content` (`sdk/fetch/pipeline/browser/capture.rs`) walks the page once and
builds the content document: the flow of headings, paragraphs and tables, the sections with their
text, the links, the actions and the items.  This module is the script's functions, one definition
each, on the page as a tree; `Afhttp.Fetch.ContentRuns` proves what holds of the document.

Text is in UTF-16 code units, as in the script.  The script's regular expressions and what it asks
of the URL parser are the parameter `PageRules`.
-/

namespace Afhttp.Fetch.Content

/-! ## The page -/

/-- A JavaScript string. -/
abbrev JsText := List ℕ

def js (s : String) : JsText := s.toList.flatMap JsLiteral.utf16

/-- The patterns of `linkKind`. -/
inductive LinkPattern where
  | login
  | signup
  | pricing
  | docs
  | productDetail

structure PageRules where
  normalizeText : JsText → JsText
  trim : JsText → JsText
  toLowerCase : JsText → JsText
  /-- Empty, if there is none. -/
  absoluteUrl : JsText → JsText
  sameSite : JsText → Bool
  mentions : LinkPattern → JsText → Bool
  /-- `/card|product|plan|pricing|package|server|tile|box/i`. -/
  isCard : JsText → Bool
  /-- The first of the chunks between sentences, or the text. -/
  firstChunk : JsText → JsText

structure Element where
  /-- `lowerTag`. -/
  tag : String
  hidden : Bool
  /-- `display: none`, or `visibility: hidden` or `collapse`. -/
  styledHidden : Bool
  type : JsText
  /-- `/^(button|submit|reset)$/i` of the type. -/
  buttonType : Bool
  value : JsText
  id : JsText
  className : JsText
  attr : String → Option JsText
  src : JsText
  inFooter : Bool
  inNav : Bool
  hasShadow : Bool
  /-- What access to the document of a frame throws. -/
  frameError : Option JsText

inductive Node where
  | text (value : JsText)
  | element (el : Element) (childNodes shadow assigned frame : List Node)
  /-- A comment. -/
  | other

/-- `childrenFor` picks one of the lists, here of what was made of each. -/
def composed {β : Type} (el : Element) (assigned : List Node) (ofAssigned ofShadow ofChildren : β) : β :=
  if el.tag = "slot" ∧ assigned ≠ [] then ofAssigned else if el.hasShadow then ofShadow else ofChildren

def unseenTags : List String := ["script", "style", "noscript", "template", "meta", "link"]

def isHiddenElement (el : Element) : Bool :=
  if el.tag = "" then false
  else
    unseenTags.contains el.tag || el.hidden || el.attr "aria-hidden" == some (js "true") ||
      (el.tag == "input" && el.type == js "hidden") || el.styledHidden

/-! ## Text -/

/-- `a || b`, of strings. -/
def orElse (a b : JsText) : JsText := if a = [] then b else a

/-- `el.getAttribute(name) || ''`. -/
def Element.attrOr (el : Element) (name : String) : JsText := (el.attr name).getD []

def truncate (value : JsText) (max : ℕ) : JsText :=
  if max < value.length then value.take (max - 1) ++ js "…" else value

structure DeepText where
  parts : List JsText
  chars : ℕ

/-- `parts.push(text); chars += text.length + 1`. -/
def DeepText.add (d : DeepText) (text : JsText) : DeepText :=
  if text = [] then d else ⟨d.parts ++ [text], d.chars + text.length + 1⟩

def altText (rules : PageRules) (el : Element) : JsText :=
  rules.normalizeText (orElse (el.attrOr "alt") (el.attrOr "title"))

mutual

def visitText (rules : PageRules) (limit : ℕ) : Node → DeepText → DeepText
  | .text value, d => if limit ≤ d.chars then d else d.add (rules.normalizeText value)
  | .other, d => d
  | .element el childNodes shadow assigned _, d =>
    if limit ≤ d.chars then d
    else if isHiddenElement el then d
    else
      let d := if el.tag = "img" then d.add (altText rules el) else d
      composed el assigned (visitTexts rules limit assigned d) (visitTexts rules limit shadow d)
        (visitTexts rules limit childNodes d)

def visitTexts (rules : PageRules) (limit : ℕ) : List Node → DeepText → DeepText
  | [], d => d
  | node :: rest, d => visitTexts rules limit rest (visitText rules limit node d)

end

def deepText (rules : PageRules) (node : Node) (limit : ℕ) : JsText :=
  truncate (rules.normalizeText ([0x20].intercalate (visitText rules limit node ⟨[], 0⟩).parts)) limit

/-- `/^h[1-6]$/`, with the level. -/
def headingLevel (tag : String) : Option ℕ := ["h1", "h2", "h3", "h4", "h5", "h6"].idxOf? tag |>.map (· + 1)

mutual

def visitHeading (rules : PageRules) : Node → JsText → JsText
  | .text _, found => found
  | .other, found => found
  | .element el childNodes shadow assigned frame, found =>
    if found ≠ [] then found
    else if isHiddenElement el then found
    else if (headingLevel el.tag).isSome then deepText rules (.element el childNodes shadow assigned frame) 200
    else
      composed el assigned (visitHeadings rules assigned found) (visitHeadings rules shadow found)
        (visitHeadings rules childNodes found)

def visitHeadings (rules : PageRules) : List Node → JsText → JsText
  | [], found => found
  | node :: rest, found => visitHeadings rules rest (visitHeading rules node found)

end

def firstHeadingText (rules : PageRules) (node : Node) : JsText := visitHeading rules node []

/-! ## Links -/

structure Link where
  text : JsText
  url : JsText
  absoluteUrl : JsText
  sameSite : Bool
  visible : Bool
  sourceSection : JsText
  kind : String

def linkHref (rules : PageRules) (el : Element) : JsText :=
  match el.attr "href" with
  | none => []
  | some attr =>
    let raw := rules.trim attr
    if raw = [] ∨ raw = js "#" ∨ (js "javascript:").isPrefixOf (rules.toLowerCase raw) then [] else raw

def linkKind (rules : PageRules) (text abs : JsText) (el : Element) : String :=
  let joined := rules.toLowerCase (text ++ js " " ++ abs)
  if rules.mentions .login joined then "login"
  else if rules.mentions .signup joined then "signup"
  else if rules.mentions .pricing joined then "pricing"
  else if rules.mentions .docs joined then "docs"
  else if rules.mentions .productDetail joined then "product_detail"
  else if el.inFooter then "footer"
  else if el.inNav then "nav"
  else if rules.sameSite abs then "unknown"
  else "external"

/-- The link that an element is, in a section, if it has a URL. -/
def linkOf (rules : PageRules) (el : Element) (deep sourceSection : JsText) : Option Link :=
  let raw := linkHref rules el
  let abs := rules.absoluteUrl raw
  if raw = [] ∨ abs = [] then none
  else
    let text := rules.normalizeText (orElse deep (orElse (el.attrOr "aria-label") (orElse (el.attrOr "title") raw)))
    some
      { text := truncate (orElse text abs) 240
        url := raw
        absoluteUrl := abs
        sameSite := rules.sameSite abs
        visible := !isHiddenElement el
        sourceSection := sourceSection
        kind := linkKind rules text abs el }

def Link.key (link : Link) : JsText := link.absoluteUrl ++ js "\n" ++ link.text

mutual

def visitLinks (rules : PageRules) (sourceSection : JsText) : Node → List Link → List Link
  | .text _, out => out
  | .other, out => out
  | .element el childNodes shadow assigned frame, out =>
    if 50 ≤ out.length then out
    else if isHiddenElement el then out
    else
      let deep := deepText rules (.element el childNodes shadow assigned frame) 500
      let out := if el.tag = "a" then out ++ (linkOf rules el deep sourceSection).toList else out
      composed el assigned (visitAllLinks rules sourceSection assigned out)
        (visitAllLinks rules sourceSection shadow out) (visitAllLinks rules sourceSection childNodes out)

def visitAllLinks (rules : PageRules) (sourceSection : JsText) : List Node → List Link → List Link
  | [], out => out
  | node :: rest, out => visitAllLinks rules sourceSection rest (visitLinks rules sourceSection node out)

end

def collectLinksIn (rules : PageRules) (root : Node) (sourceSection : JsText) : List Link :=
  visitLinks rules sourceSection root []

/-! ## Actions and items -/

structure Action where
  text : JsText
  kind : JsText
  visible : Bool
  sourceSection : JsText
  absoluteUrl : Option JsText

/-- The action that an element is, in a section. -/
def actionOf (rules : PageRules) (el : Element) (deep sourceSection : JsText) : Option Action :=
  let text := rules.normalizeText
    (orElse deep (orElse (el.attrOr "aria-label") (orElse (el.attrOr "title") el.value)))
  let abs := rules.absoluteUrl (linkHref rules el)
  if text = [] then none
  else
    some
      { text := truncate text 240
        kind :=
          if el.tag = "a" then js "link"
          else if el.tag = "input" then orElse el.type (js "input")
          else orElse (el.attrOr "role") (js el.tag)
        visible := !isHiddenElement el
        sourceSection := sourceSection
        absoluteUrl := if el.tag = "a" ∧ linkHref rules el ≠ [] ∧ abs ≠ [] then some abs else none }

def isCandidate (rules : PageRules) (el : Element) : Bool :=
  let signature := el.id ++ js " " ++ el.className ++ js " " ++ el.attrOr "role"
  (el.tag == "article" || el.tag == "li" || rules.isCard signature) && el.tag != "body" && el.tag != "main"

def firstLine (rules : PageRules) (text : JsText) : JsText :=
  truncate (rules.firstChunk (rules.normalizeText text)) 120

/-! ## The document under way -/

inductive FlowEntry where
  | paragraph (text : JsText)
  | heading (level : ℕ) (text : JsText)
  | table (index : ℕ)

structure Section where
  heading : JsText
  level : ℕ
  text : List JsText
  links : List Link

structure Table where
  caption : JsText
  rows : List (List JsText)
  sourceSection : JsText

structure Item where
  title : JsText
  text : JsText
  links : List Link
  sourceSection : JsText

structure Capture where
  flow : List FlowEntry
  sections : List Section
  links : List Link
  linkKeys : List JsText
  actions : List Action
  tables : List Table
  items : List Item
  itemKeys : List JsText
  paragraph : List JsText
  currentSectionIndex : Option ℕ
  emittedTextChars : ℕ
  warnings : List (String × JsText)

def Capture.start : Capture := ⟨[], [], [], [], [], [], [], [], [], none, 0, []⟩

def maxTextChars : ℕ := 200000

def maxLinks : ℕ := 1000

def maxActions : ℕ := 500

def maxItems : ℕ := 300

def maxTables : ℕ := 100

namespace Capture

def currentSectionHeading (c : Capture) : JsText :=
  match c.currentSectionIndex with
  | none => js "Page"
  | some i => (c.sections[i]?.map Section.heading).getD []

def ensureSection (c : Capture) : Capture :=
  match c.currentSectionIndex with
  | some _ => c
  | none => { c with sections := c.sections ++ [⟨js "Page", 1, [], []⟩], currentSectionIndex := some 0 }

/-- An update of the section that the walk is in. -/
def inSection (c : Capture) (f : Section → Section) : Capture :=
  match c.currentSectionIndex with
  | none => c
  | some i => { c with sections := c.sections.modify i f }

/-- The last entry of the flow is this paragraph. -/
def repeats (c : Capture) (text : JsText) : Bool :=
  match c.flow.getLast? with
  | some (FlowEntry.paragraph prev) => prev == text
  | _ => false

/-- `flow.push`, and the section's. -/
def pushParagraph (c : Capture) (clipped : JsText) : Capture :=
  let c : Capture := { c with flow := c.flow ++ [.paragraph clipped] }
  let c := c.ensureSection.inSection fun s => { s with text := s.text ++ [clipped] }
  { c with emittedTextChars := c.emittedTextChars + clipped.length + 1 }

def flushParagraph (rules : PageRules) (c : Capture) : Capture :=
  let text := rules.normalizeText ([0x20].intercalate c.paragraph)
  let c := { c with paragraph := [] }
  let clipped := truncate text (maxTextChars - c.emittedTextChars)
  if text = [] ∨ maxTextChars ≤ c.emittedTextChars then c
  else if c.repeats text then c
  else if clipped = [] then c
  else c.pushParagraph clipped

def addText (rules : PageRules) (c : Capture) (text : JsText) : Capture :=
  let text := rules.normalizeText text
  if text = [] then c else { c with paragraph := c.paragraph ++ [text] }

def pushHeading (c : Capture) (level : ℕ) (text : JsText) : Capture :=
  { c with
    currentSectionIndex := some c.sections.length
    sections := c.sections ++ [⟨text, level, [], []⟩]
    flow := c.flow ++ [.heading level text] }

def addHeading (rules : PageRules) (c : Capture) (level : ℕ) (text : JsText) : Capture :=
  let text := rules.normalizeText text
  if text = [] then c else (c.flushParagraph rules).pushHeading level text

def addSectionLink (c : Capture) (link : Link) : Capture :=
  c.ensureSection.inSection fun s =>
    if s.links.any fun l => l.absoluteUrl == link.absoluteUrl && l.text == link.text then s
    else { s with links := s.links ++ [link] }

/-- `links.push`, if the key is new. -/
def pushLink (c : Capture) (link : Link) : Capture :=
  if link.key ∈ c.linkKeys then c
  else { c with linkKeys := c.linkKeys ++ [link.key], links := c.links ++ [link] }

def addLink (rules : PageRules) (c : Capture) (el : Element) (node : Node) : Capture :=
  if maxLinks ≤ c.links.length then c
  else
    match linkOf rules el (deepText rules node 500) c.currentSectionHeading with
    | none => c
    | some link => (c.pushLink link).addSectionLink link

def addAction (rules : PageRules) (c : Capture) (el : Element) (node : Node) : Capture :=
  if maxActions ≤ c.actions.length then c
  else
    match actionOf rules el (deepText rules node 500) c.currentSectionHeading with
    | none => c
    | some action =>
      if c.actions.any fun a => a.kind == action.kind && a.text == action.text && a.absoluteUrl == action.absoluteUrl
      then c
      else { c with actions := c.actions ++ [action] }

/-- Is the element an item? -/
def maybeCollectItem (rules : PageRules) (c : Capture) (el : Element) (node : Node) (inItem : Bool) :
    Capture × Bool :=
  if maxItems ≤ c.items.length ∨ inItem ∨ isCandidate rules el = false then (c, false)
  else
    let text := deepText rules node 1200
    let title := orElse (firstHeadingText rules node) (firstLine rules text)
    let key := title ++ js "\n" ++ text
    if text.length < 20 ∨ 1200 < text.length then (c, false)
    else if key ∈ c.itemKeys then (c, true)
    else
      let links := collectLinksIn rules node c.currentSectionHeading
      let item := ⟨truncate title 160, text, links, c.currentSectionHeading⟩
      ({ c with itemKeys := c.itemKeys ++ [key], items := c.items ++ [item] }, true)

end Capture

/-! ## Tables -/

mutual

/-- The elements with one of the tags, in document order; a shadow tree is not searched. -/
def select (tags : List String) : Node → List Node
  | .text _ => []
  | .other => []
  | .element el childNodes shadow assigned frame =>
    let found := selectAll tags childNodes
    if tags.contains el.tag then .element el childNodes shadow assigned frame :: found else found

def selectAll (tags : List String) : List Node → List Node
  | [] => []
  | node :: rest => select tags node ++ selectAll tags rest

end

/-- `querySelectorAll`. -/
def querySelectorAll (tags : List String) : Node → List Node
  | .element _ childNodes _ _ _ => selectAll tags childNodes
  | _ => []

def isHidden : Node → Bool
  | .element el _ _ _ _ => isHiddenElement el
  | _ => false

def rowOf (rules : PageRules) (tr : Node) : List JsText :=
  (((querySelectorAll ["th", "td"] tr).filter fun cell => !isHidden cell).map fun cell =>
    deepText rules cell 1000).filter (· ≠ [])

def extractTable (rules : PageRules) (node : Node) (sourceSection : JsText) : Option Table :=
  let rows := (((querySelectorAll ["tr"] node).filter fun tr => !isHidden tr).map (rowOf rules)).filter (· ≠ [])
  let caption := ((querySelectorAll ["caption"] node).head?.map fun caption => deepText rules caption 300).getD
    (truncate (rules.normalizeText []) 300)
  if rows = [] then none else some ⟨caption, rows.take 100, sourceSection⟩

namespace Capture

def addTable (rules : PageRules) (c : Capture) (node : Node) : Capture :=
  if maxTables ≤ c.tables.length then c
  else
    let c := c.flushParagraph rules
    match extractTable rules node c.currentSectionHeading with
    | none => c
    | some table => { c with tables := c.tables ++ [table], flow := c.flow ++ [.table c.tables.length] }

def warn (c : Capture) (code : String) (detail : JsText) : Capture :=
  { c with warnings := c.warnings ++ [(code, detail)] }

end Capture

/-! ## The walk -/

def blockTags : List String :=
  ["address", "article", "aside", "blockquote", "body", "dd", "details", "dialog", "div", "dl", "dt", "fieldset",
    "figcaption", "figure", "footer", "form", "header", "hr", "li", "main", "nav", "ol", "p", "pre", "section",
    "summary", "ul"]

def isBlock (tag : String) : Bool := blockTags.contains tag

def isButton (rules : PageRules) (el : Element) : Bool :=
  el.tag == "button" || rules.toLowerCase (el.attrOr "role") == js "button" || (el.tag == "input" && el.buttonType)

def frameSource (rules : PageRules) (el : Element) : JsText := rules.absoluteUrl (orElse (el.attrOr "src") el.src)

/-- Up to the children of an element that is none of the special ones. -/
def enter (rules : PageRules) (c : Capture) (el : Element) (node : Node) (inItem : Bool) : Capture × Bool :=
  let c := if el.tag = "a" then c.addLink rules el node else c
  let c := if isButton rules el then c.addAction rules el node else c
  let c := if el.tag = "img" then c.addText rules (orElse (el.attrOr "alt") (el.attrOr "title")) else c
  let c := if isBlock el.tag then c.flushParagraph rules else c
  c.maybeCollectItem rules el node inItem

/-- `frame` is the body of the frame's document, if there is one, and `walkBody` the walk over it. -/
def Capture.walkIframe (rules : PageRules) (c : Capture) (el : Element) (frame : List Node)
    (walkBody : Capture → Capture) : Capture :=
  let c := c.flushParagraph rules
  let src := frameSource rules el
  let previousSectionIndex := c.currentSectionIndex
  match el.frameError with
  | some err => c.warn "iframe_cross_origin" (js "cross-origin iframe not traversed: " ++ orElse src err)
  | none =>
    if frame = [] then
      c.warn "iframe_unavailable" (js "iframe content unavailable: " ++ orElse src (js "(no src)"))
    else
      let c := c.addHeading rules 3 (js "Frame: " ++ orElse src (js "same-origin iframe"))
      let c := (walkBody c).flushParagraph rules
      { c with currentSectionIndex := previousSectionIndex }

mutual

def walk (rules : PageRules) (inItem : Bool) : Node → Capture → Capture
  | .text value, c => if maxTextChars ≤ c.emittedTextChars then c else c.addText rules value
  | .other, c => c
  | .element el childNodes shadow assigned frame, c =>
    if maxTextChars ≤ c.emittedTextChars then c
    else if isHiddenElement el then c
    else if el.tag = "br" then c.flushParagraph rules
    else if el.tag = "iframe" then c.walkIframe rules el frame fun c => walkAll rules false frame c
    else
      match headingLevel el.tag with
      | some level => c.addHeading rules level (deepText rules (.element el childNodes shadow assigned frame) 1000)
      | none =>
        if el.tag = "table" then c.addTable rules (.element el childNodes shadow assigned frame)
        else
          let (c, isItem) := enter rules c el (.element el childNodes shadow assigned frame) inItem
          let c := composed el assigned (walkAll rules (inItem || isItem) assigned c)
            (walkAll rules (inItem || isItem) shadow c) (walkAll rules (inItem || isItem) childNodes c)
          if isBlock el.tag then c.flushParagraph rules else c

def walkAll (rules : PageRules) (inItem : Bool) : List Node → Capture → Capture
  | [], c => c
  | node :: rest, c => walkAll rules inItem rest (walk rules inItem node c)

end

/-- The capture, walked from the body. -/
def capture (rules : PageRules) (body : Node) : Capture := (walk rules false body .start).flushParagraph rules

/-- The warnings of the document. -/
def allWarnings (c : Capture) : List (String × JsText) :=
  c.warnings ++
    (if c.flow.isEmpty then [("content_empty", js "no visible composed content captured")] else []) ++
    (if maxTextChars ≤ c.emittedTextChars
      then [("content_truncated", js "content text capped at 200000 characters")] else [])

end Afhttp.Fetch.Content

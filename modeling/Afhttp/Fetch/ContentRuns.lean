import Mathlib
import Afhttp.Fetch.ContentHidden

/-!
# The content document

What holds of the document whatever the page is.  Each operation of the walk is a `Step`, and a walk
goes on in steps (`walk_reaches`), so that what a step keeps holds of every document.

    a walk goes on in steps                                 (walk_reaches)
    the caps on links, actions, items, tables and text      (capture_bounded)
-/

namespace Afhttp.Fetch.Content

variable {rules : PageRules} {frames : Bool}

/-! ## Steps -/

/-- The walk is in a section that there is. -/
def Capture.IndexOk (c : Capture) : Prop := ∀ i, c.currentSectionIndex = some i → i < c.sections.length

/-- The same action, perhaps in another section. -/
def Action.Same (a b : Action) : Prop := a.kind = b.kind ∧ a.text = b.text ∧ a.absoluteUrl = b.absoluteUrl

/-- The key under which an item is listed. -/
def IsKeyOf (key : JsText) (item : Item) : Prop :=
  ∃ title, key = title ++ js "\n" ++ item.text ∧ item.title = truncate title 160

/-- What the walk does to the document under way, of a page with frames or without. -/
inductive Step (frames : Bool) (c : Capture) : Capture → Prop where
  | clear : Step frames c { c with paragraph := [] }
  | text (text : JsText) : Step frames c { c with paragraph := c.paragraph ++ [text] }
  | paragraph (clipped : JsText) (hroom : c.emittedTextChars < maxTextChars)
      (hlen : clipped.length ≤ maxTextChars - c.emittedTextChars) : Step frames c (c.pushParagraph clipped)
  | heading (level : ℕ) (text : JsText) : Step frames c (c.pushHeading level text)
  | link (link : Link) (hroom : c.links.length < maxLinks) (hlen : link.text.length ≤ 240) :
      Step frames c ((c.pushLink link).addSectionLink link)
  | action (action : Action) (hroom : c.actions.length < maxActions) (hlen : action.text.length ≤ 240)
      (hnew : ∀ a ∈ c.actions, ¬ a.Same action) :
      Step frames c { c with actions := c.actions ++ [action] }
  | item (key : JsText) (item : Item) (hroom : c.items.length < maxItems) (hnew : key ∉ c.itemKeys)
      (hkey : IsKeyOf key item)
      (hlen : 20 ≤ item.text.length ∧ item.text.length ≤ 1200 ∧ item.title.length ≤ 160 ∧ item.links.length ≤ 50) :
      Step frames c { c with itemKeys := c.itemKeys ++ [key], items := c.items ++ [item] }
  | table (table : Table) (hroom : c.tables.length < maxTables)
      (hrows : table.rows.length ≤ 100 ∧ ∀ row ∈ table.rows, ∀ cell ∈ row, cell ≠ [] ∧ cell.length ≤ 1000) :
      Step frames c { c with tables := c.tables ++ [table], flow := c.flow ++ [.table c.tables.length] }
  | warn (code : String) (detail : JsText) : Step frames c (c.warn code detail)
  /-- Out of a frame. -/
  | leave (i : Option ℕ) (hframes : frames = true) (h : ∀ k, i = some k → k < c.sections.length) :
      Step frames c { c with currentSectionIndex := i }

def Reaches (frames : Bool) : Capture → Capture → Prop := Relation.ReflTransGen (Step frames)

theorem composed_cases {β : Type} {P : β → Prop} (el : Element) (assigned : List Node) {a b c : β} (ha : P a)
    (hb : P b) (hc : P c) : P (composed el assigned a b c) :=
  iteInduction (fun _ => ha) fun _ => iteInduction (fun _ => hb) fun _ => hc

theorem Step.reaches {c c' : Capture} (h : Step frames c c') : Reaches frames c c' := .single h

/-! ## Texts -/

theorem truncate_length_le (value : JsText) {max : ℕ} (h : 0 < max) : (truncate value max).length ≤ max := by
  unfold truncate
  split
  · have hlen : (js "…").length = 1 := by decide
    rw [List.length_append, List.length_take, hlen]
    omega
  · omega

theorem deepText_length_le (node : Node) {limit : ℕ} (h : 0 < limit) : (deepText rules node limit).length ≤ limit :=
  truncate_length_le _ h

theorem linkOf_text {el : Element} {deep source : JsText} {link : Link}
    (h : linkOf rules el deep source = some link) : link.text.length ≤ 240 := by
  unfold linkOf at h
  simp only at h
  split at h
  · cases h
  · obtain rfl := Option.some.inj h
    exact truncate_length_le _ (by decide)

theorem actionOf_text {el : Element} {deep source : JsText} {action : Action}
    (h : actionOf rules el deep source = some action) : action.text.length ≤ 240 := by
  unfold actionOf at h
  simp only at h
  split at h
  · cases h
  · obtain rfl := Option.some.inj h
    exact truncate_length_le _ (by decide)

theorem visitAllLinks_length {source : JsText} {nodes : List Node}
    (h : ∀ n ∈ nodes, ∀ out, out.length ≤ 50 → (visitLinks rules source n out).length ≤ 50) {out : List Link}
    (hout : out.length ≤ 50) : (visitAllLinks rules source nodes out).length ≤ 50 := by
  induction nodes generalizing out with
  | nil => exact hout
  | cons node rest ih =>
    simp only [visitAllLinks]
    exact ih (fun n hn => h n (List.mem_cons_of_mem _ hn)) (h node List.mem_cons_self out hout)

theorem visitLinks_length (source : JsText) (node : Node) :
    ∀ out, out.length ≤ 50 → (visitLinks rules source node out).length ≤ 50 := by
  induction node using Node.induct with
  | text value => exact fun out hout => by simpa only [visitLinks] using hout
  | other => exact fun out hout => by simpa only [visitLinks] using hout
  | element el childNodes shadow assigned frame hchild hshadow hassigned _ =>
    intro out hout
    simp only [visitLinks]
    split_ifs with hfull hhidden hlink
    · exact hout
    · exact hout
    · have hnext : (out ++ (linkOf rules el (deepText rules (.element el childNodes shadow assigned frame) 500)
          source).toList).length ≤ 50 := by
        have hone := Option.length_toList_le (o := linkOf rules el
          (deepText rules (.element el childNodes shadow assigned frame) 500) source)
        rw [List.length_append]
        omega
      exact composed_cases (P := fun links : List Link => links.length ≤ 50) el assigned
        (visitAllLinks_length hassigned hnext) (visitAllLinks_length hshadow hnext)
        (visitAllLinks_length hchild hnext)
    · exact composed_cases (P := fun links : List Link => links.length ≤ 50) el assigned
        (visitAllLinks_length hassigned hout) (visitAllLinks_length hshadow hout) (visitAllLinks_length hchild hout)

theorem extractTable_rows {node : Node} {source : JsText} {table : Table}
    (h : extractTable rules node source = some table) :
    table.rows.length ≤ 100 ∧ ∀ row ∈ table.rows, ∀ cell ∈ row, cell ≠ [] ∧ cell.length ≤ 1000 := by
  unfold extractTable at h
  simp only at h
  split at h
  · cases h
  · obtain rfl := Option.some.inj h
    refine ⟨by simp, fun row hrow cell hcell => ?_⟩
    obtain ⟨hrow, -⟩ := List.mem_filter.mp (List.mem_of_mem_take hrow)
    obtain ⟨tr, -, rfl⟩ := List.mem_map.mp hrow
    obtain ⟨hcell, hne⟩ := List.mem_filter.mp hcell
    obtain ⟨td, -, rfl⟩ := List.mem_map.mp hcell
    exact ⟨of_decide_eq_true hne, deepText_length_le td (by decide)⟩

/-! ## The operations are steps -/

theorem flushParagraph_reaches (c : Capture) : Reaches frames c (c.flushParagraph rules) := by
  have hclear : Reaches frames c { c with paragraph := [] } := Step.clear.reaches
  unfold Capture.flushParagraph
  simp only
  split_ifs with hempty hrepeats hclipped
  · exact hclear
  · exact hclear
  · exact hclear
  · rw [not_or, not_le] at hempty
    refine hclear.tail (.paragraph _ hempty.2 (truncate_length_le _ ?_))
    show 0 < maxTextChars - c.emittedTextChars
    omega

theorem addText_reaches (c : Capture) (text : JsText) : Reaches frames c (c.addText rules text) := by
  unfold Capture.addText
  simp only
  split_ifs
  · exact .refl
  · exact (Step.text _).reaches

theorem addHeading_reaches (c : Capture) (level : ℕ) (text : JsText) :
    Reaches frames c (c.addHeading rules level text) := by
  unfold Capture.addHeading
  simp only
  split_ifs
  · exact .refl
  · exact (flushParagraph_reaches c).tail (.heading level _)

theorem addLink_reaches (c : Capture) (el : Element) (node : Node) : Reaches frames c (c.addLink rules el node) := by
  unfold Capture.addLink
  split_ifs with hroom
  · exact .refl
  · cases hlink : linkOf rules el (deepText rules node 500) c.currentSectionHeading with
    | none => exact .refl
    | some link => exact (Step.link link (by omega) (linkOf_text hlink)).reaches

theorem addAction_reaches (c : Capture) (el : Element) (node : Node) :
    Reaches frames c (c.addAction rules el node) := by
  unfold Capture.addAction
  split_ifs with hroom
  · exact .refl
  · cases haction : actionOf rules el (deepText rules node 500) c.currentSectionHeading with
    | none => exact .refl
    | some action =>
      simp only
      split_ifs with hany
      · exact .refl
      · refine (Step.action action (by omega) (actionOf_text haction) fun a ha hsame => hany ?_).reaches
        rw [List.any_eq_true]
        exact ⟨a, ha, by simp [hsame.1, hsame.2.1, hsame.2.2]⟩

theorem maybeCollectItem_reaches (c : Capture) (el : Element) (node : Node) (inItem : Bool) :
    Reaches frames c (c.maybeCollectItem rules el node inItem).1 := by
  unfold Capture.maybeCollectItem
  simp only
  split_ifs with hskip hlen hkey
  · exact .refl
  · exact .refl
  · exact .refl
  · rw [not_or, not_le] at hskip
    rw [not_or, not_lt, not_lt] at hlen
    exact (Step.item _ _ hskip.1 hkey ⟨_, rfl, rfl⟩ ⟨hlen.1, hlen.2, truncate_length_le _ (by decide),
      visitLinks_length _ node [] (by simp)⟩).reaches

theorem flushParagraph_tables (c : Capture) : (c.flushParagraph rules).tables = c.tables := by
  have hensure : ∀ d : Capture, d.ensureSection.tables = d.tables := by
    intro d
    unfold Capture.ensureSection
    split <;> rfl
  have hin : ∀ (d : Capture) (f : Section → Section), (d.inSection f).tables = d.tables := by
    intro d f
    unfold Capture.inSection
    split <;> rfl
  unfold Capture.flushParagraph
  simp only
  split_ifs
  · rfl
  · rfl
  · rfl
  · show (Capture.inSection _ _).tables = _
    rw [hin, hensure]

theorem addTable_reaches (c : Capture) (node : Node) : Reaches frames c (c.addTable rules node) := by
  unfold Capture.addTable
  split_ifs with hroom
  · exact .refl
  · have hflush : Reaches frames c (c.flushParagraph rules) := flushParagraph_reaches c
    simp only
    cases htable : extractTable rules node (c.flushParagraph rules).currentSectionHeading with
    | none => exact hflush
    | some table =>
      have hroom' : (c.flushParagraph rules).tables.length < maxTables := by
        rw [flushParagraph_tables]
        omega
      exact hflush.tail (.table table hroom' (extractTable_rows htable))

/-! ## The walk is a run of steps -/

namespace Capture

@[simp] theorem inSection_index (c : Capture) (f : Section → Section) :
    (c.inSection f).currentSectionIndex = c.currentSectionIndex := by
  unfold inSection
  split <;> rfl

@[simp] theorem inSection_sections_length (c : Capture) (f : Section → Section) :
    (c.inSection f).sections.length = c.sections.length := by
  unfold inSection
  split
  · rfl
  · exact List.length_modify ..

theorem ensureSection_le (c : Capture) : c.sections.length ≤ c.ensureSection.sections.length := by
  unfold ensureSection
  split
  · exact le_rfl
  · show _ ≤ (c.sections ++ _).length
    rw [List.length_append]
    omega

theorem IndexOk.ensureSection {c : Capture} (h : c.IndexOk) : c.ensureSection.IndexOk := by
  unfold Capture.ensureSection
  split
  · exact h
  · intro i hi
    obtain rfl := Option.some.inj hi
    show 0 < (c.sections ++ _).length
    rw [List.length_append, List.length_singleton]
    omega

theorem IndexOk.inSection {c : Capture} (h : c.IndexOk) (f : Section → Section) : (c.inSection f).IndexOk := by
  intro i hi
  rw [inSection_index] at hi
  rw [inSection_sections_length]
  exact h i hi

/-- The same index, in as many sections. -/
theorem IndexOk.of_eq {c c' : Capture} (h : c.IndexOk) (hindex : c'.currentSectionIndex = c.currentSectionIndex)
    (hsections : c'.sections = c.sections) : c'.IndexOk := by
  unfold IndexOk
  rw [hindex, hsections]
  exact h

theorem pushLink_sections (c : Capture) (link : Link) : (c.pushLink link).sections = c.sections := by
  unfold pushLink
  split <;> rfl

theorem pushLink_index (c : Capture) (link : Link) :
    (c.pushLink link).currentSectionIndex = c.currentSectionIndex := by
  unfold pushLink
  split <;> rfl

end Capture

open Capture

theorem Step.sections_le {c c' : Capture} (h : Step frames c c') : c.sections.length ≤ c'.sections.length := by
  cases h with
  | clear => exact le_rfl
  | text => exact le_rfl
  | paragraph clipped =>
    show _ ≤ (inSection _ _).sections.length
    rw [inSection_sections_length]
    exact ensureSection_le { c with flow := c.flow ++ [.paragraph clipped] }
  | heading level text =>
    show _ ≤ (c.sections ++ _).length
    rw [List.length_append]
    omega
  | link link =>
    show _ ≤ (inSection _ _).sections.length
    rw [inSection_sections_length]
    refine le_trans (le_of_eq ?_) (ensureSection_le _)
    rw [pushLink_sections]
  | action => exact le_rfl
  | item => exact le_rfl
  | table => exact le_rfl
  | warn => exact le_rfl
  | leave => exact le_rfl

theorem Step.indexOk {c c' : Capture} (h : Step frames c c') (hc : c.IndexOk) : c'.IndexOk := by
  cases h with
  | clear => exact hc.of_eq rfl rfl
  | text => exact hc.of_eq rfl rfl
  | paragraph clipped =>
    have hflow : ({ c with flow := c.flow ++ [.paragraph clipped] } : Capture).IndexOk := hc.of_eq rfl rfl
    exact (hflow.ensureSection.inSection _).of_eq rfl rfl
  | heading level text =>
    intro i hi
    obtain rfl := Option.some.inj hi
    show c.sections.length < (c.sections ++ _).length
    rw [List.length_append, List.length_singleton]
    omega
  | link link =>
    have hlink : (c.pushLink link).IndexOk := hc.of_eq (pushLink_index c link) (pushLink_sections c link)
    exact hlink.ensureSection.inSection _
  | action => exact hc.of_eq rfl rfl
  | item => exact hc.of_eq rfl rfl
  | table => exact hc.of_eq rfl rfl
  | warn => exact hc.of_eq rfl rfl
  | leave i _ hi => exact hi

/-- What every step keeps is kept. -/
theorem Reaches.keeps {P : Capture → Prop} (hstep : ∀ c c', P c → Step frames c c' → P c') {c c' : Capture}
    (h : Reaches frames c c') (hc : P c) : P c' := by
  induction h with
  | refl => exact hc
  | tail _ hlast ih => exact hstep _ _ ih hlast

theorem Reaches.indexOk {c c' : Capture} (h : Reaches frames c c') (hc : c.IndexOk) : c'.IndexOk :=
  h.keeps (fun _ _ hc hstep => hstep.indexOk hc) hc

theorem Reaches.sections_le {c c' : Capture} (h : Reaches frames c c') : c.sections.length ≤ c'.sections.length :=
  h.keeps (P := fun d => c.sections.length ≤ d.sections.length)
    (fun _ _ hd hstep => hd.trans hstep.sections_le) le_rfl

theorem enter_reaches (c : Capture) (el : Element) (node : Node) (inItem : Bool) :
    Reaches frames c (enter rules c el node inItem).1 := by
  have hif : ∀ (p : Prop) [Decidable p] (d d' : Capture), Reaches frames c d → Reaches frames d d' →
      Reaches frames c (if p then d' else d) := by
    intro p _ d d' h h'
    split_ifs
    · exact h.trans h'
    · exact h
  unfold enter
  simp only
  refine Relation.ReflTransGen.trans ?_ (maybeCollectItem_reaches _ el node inItem)
  refine hif _ _ _ ?_ (flushParagraph_reaches _)
  refine hif _ _ _ ?_ (addText_reaches _ _)
  refine hif _ _ _ ?_ (addAction_reaches _ el node)
  exact hif _ _ _ .refl (addLink_reaches c el node)

theorem walkAll_reaches {nodes : List Node}
    (h : ∀ n ∈ nodes, ∀ inItem c, c.IndexOk → Reaches frames c (walk rules inItem n c)) (inItem : Bool) {c : Capture}
    (hc : c.IndexOk) : Reaches frames c (walkAll rules inItem nodes c) := by
  induction nodes generalizing c with
  | nil => exact .refl
  | cons node rest ih =>
    have hfirst := h node List.mem_cons_self inItem c hc
    simp only [walkAll]
    exact hfirst.trans (ih (fun n hn => h n (List.mem_cons_of_mem _ hn)) (hfirst.indexOk hc))

/-- The document of a frame cannot be read. -/
def Unread (el : Element) (frame : List Node) : Prop := el.frameError.isSome ∨ frame = []

theorem walkIframe_reaches {c : Capture} (hc : c.IndexOk) (el : Element) (frame : List Node)
    (hframes : frames = true ∨ Unread el frame) {walkBody : Capture → Capture}
    (hbody : frames = true → ∀ d, d.IndexOk → Reaches frames d (walkBody d)) :
    Reaches frames c (c.walkIframe rules el frame walkBody) := by
  have hflush : Reaches frames c (c.flushParagraph rules) := flushParagraph_reaches c
  have hindex := hflush.indexOk hc
  unfold Capture.walkIframe
  simp only
  cases herror : el.frameError with
  | some err => exact hflush.tail (.warn _ _)
  | none =>
    simp only
    split_ifs with hnone
    · exact hflush.tail (.warn _ _)
    · have hread : frames = true := hframes.resolve_right fun h => by
        rcases h with h | h
        · rw [herror] at h
          cases h
        · exact hnone h
      have hheading : Reaches frames (c.flushParagraph rules) ((c.flushParagraph rules).addHeading rules 3 _) :=
        addHeading_reaches _ 3 (js "Frame: " ++ orElse (frameSource rules el) (js "same-origin iframe"))
      have hrest : Reaches frames (c.flushParagraph rules) (flushParagraph rules (walkBody _)) :=
        hheading.trans ((hbody hread _ (hheading.indexOk hindex)).trans (flushParagraph_reaches _))
      -- the section before the frame is still there behind it
      exact (hflush.trans hrest).tail (.leave _ hread fun k hk => lt_of_lt_of_le (hindex k hk) hrest.sections_le)

/-- A page without a frame that can be read. -/
inductive NoFrames : Node → Prop where
  | text (value : JsText) : NoFrames (.text value)
  | other : NoFrames .other
  | element (el : Element) (childNodes shadow assigned frame : List Node)
      (hiframe : el.tag = "iframe" → Unread el frame) (hchild : ∀ n ∈ childNodes, NoFrames n)
      (hshadow : ∀ n ∈ shadow, NoFrames n) (hassigned : ∀ n ∈ assigned, NoFrames n) :
      NoFrames (.element el childNodes shadow assigned frame)

theorem NoFrames.parts {el : Element} {childNodes shadow assigned frame : List Node}
    (h : NoFrames (.element el childNodes shadow assigned frame)) :
    (el.tag = "iframe" → Unread el frame) ∧ (∀ n ∈ childNodes, NoFrames n) ∧ (∀ n ∈ shadow, NoFrames n) ∧
      ∀ n ∈ assigned, NoFrames n := by
  cases h with
  | element _ _ _ _ _ hiframe hchild hshadow hassigned => exact ⟨hiframe, hchild, hshadow, hassigned⟩

/-- **A walk goes on in steps.** -/
theorem walk_reaches (node : Node) :
    (frames = true ∨ NoFrames node) → ∀ inItem c, c.IndexOk → Reaches frames c (walk rules inItem node c) := by
  induction node using Node.induct with
  | text value =>
    intro _ inItem c _
    simp only [walk]
    split_ifs
    · exact .refl
    · exact addText_reaches c value
  | other => exact fun _ inItem c _ => by simpa only [walk] using .refl
  | element el childNodes shadow assigned frame hchild hshadow hassigned hframe =>
    intro hframes inItem c hc
    simp only [walk]
    have henter : Reaches frames c (enter rules c el (.element el childNodes shadow assigned frame) inItem).1 :=
      enter_reaches c el _ inItem
    generalize enter rules c el (.element el childNodes shadow assigned frame) inItem = entered at henter ⊢
    have hindex := henter.indexOk hc
    have hchild' := fun n hn => hchild n hn (hframes.imp_right fun h => h.parts.2.1 n hn)
    have hshadow' := fun n hn => hshadow n hn (hframes.imp_right fun h => h.parts.2.2.1 n hn)
    have hassigned' := fun n hn => hassigned n hn (hframes.imp_right fun h => h.parts.2.2.2 n hn)
    refine iteInduction (fun _ => .refl) fun _ => iteInduction (fun _ => .refl) fun _ =>
      iteInduction (fun _ => flushParagraph_reaches c) fun _ => iteInduction (fun hiframe => ?_) fun _ => ?_
    · exact walkIframe_reaches hc el frame (hframes.imp_right fun h => h.parts.1 hiframe) fun hread d hd =>
        walkAll_reaches (fun n hn => hframe n hn (.inl hread)) false hd
    cases headingLevel el.tag with
    | some level => exact addHeading_reaches c _ _
    | none =>
      have hinside := composed_cases (P := Reaches frames c) el assigned
        (henter.trans (walkAll_reaches hassigned' (inItem || entered.2) hindex))
        (henter.trans (walkAll_reaches hshadow' (inItem || entered.2) hindex))
        (henter.trans (walkAll_reaches hchild' (inItem || entered.2) hindex))
      exact iteInduction (fun _ => addTable_reaches c _) fun _ =>
        iteInduction (fun _ => hinside.trans (flushParagraph_reaches _)) fun _ => hinside

theorem capture_reaches (rules : PageRules) {body : Node} (h : frames = true ∨ NoFrames body) :
    Reaches frames .start (capture rules body) := by
  have hstart : Capture.start.IndexOk := fun i hi => by cases hi
  exact (walk_reaches body h false .start hstart).trans (flushParagraph_reaches _)

/-! ## The caps -/

def paragraphs (flow : List FlowEntry) : List JsText :=
  flow.filterMap fun entry => match entry with
    | .paragraph text => some text
    | _ => none

def tableIndices (flow : List FlowEntry) : List ℕ :=
  flow.filterMap fun entry => match entry with
    | .table index => some index
    | _ => none

theorem paragraphs_append (a b : List FlowEntry) : paragraphs (a ++ b) = paragraphs a ++ paragraphs b :=
  List.filterMap_append

theorem tableIndices_append (a b : List FlowEntry) : tableIndices (a ++ b) = tableIndices a ++ tableIndices b :=
  List.filterMap_append

/-- What is capped of a document. -/
structure Bounded (c : Capture) : Prop where
  links : c.links.length ≤ maxLinks ∧ ∀ link ∈ c.links, link.text.length ≤ 240
  actions : c.actions.length ≤ maxActions ∧ ∀ action ∈ c.actions, action.text.length ≤ 240
  items : c.items.length ≤ maxItems ∧ ∀ item ∈ c.items, 20 ≤ item.text.length ∧ item.text.length ≤ 1200 ∧
    item.title.length ≤ 160 ∧ item.links.length ≤ 50
  tables : c.tables.length ≤ maxTables ∧ ∀ table ∈ c.tables, table.rows.length ≤ 100 ∧
    ∀ row ∈ table.rows, ∀ cell ∈ row, cell ≠ [] ∧ cell.length ≤ 1000
  /-- Each paragraph counts one more than its length. -/
  text : ((paragraphs c.flow).map fun text => text.length + 1).sum ≤ maxTextChars + 1

/-- The counter of the walk is the text of the paragraphs. -/
def Counted (c : Capture) : Prop :=
  c.emittedTextChars = ((paragraphs c.flow).map fun text => text.length + 1).sum ∧
    c.emittedTextChars ≤ maxTextChars + 1

theorem forall_mem_snoc {α : Type} {P : α → Prop} {l : List α} {a : α} (h : ∀ x ∈ l, P x) (ha : P a) :
    ∀ x ∈ l ++ [a], P x := by
  intro x hx
  rcases List.mem_append.mp hx with hx | hx
  · exact h x hx
  · rw [List.mem_singleton.mp hx]
    exact ha

theorem length_snoc_le {α : Type} {l : List α} {n : ℕ} (h : l.length < n) (a : α) : (l ++ [a]).length ≤ n := by
  rw [List.length_append, List.length_singleton]
  exact h

namespace Capture

/-- Of the document an update of a section changes the sections only. -/
theorem inSection_eq (c : Capture) (f : Section → Section) :
    ∃ sections, c.inSection f = { c with sections := sections } := by
  unfold inSection
  split
  · exact ⟨c.sections, rfl⟩
  · exact ⟨_, rfl⟩

theorem ensureSection_eq (c : Capture) :
    ∃ sections index, c.ensureSection = { c with sections := sections, currentSectionIndex := index } := by
  unfold ensureSection
  split
  · exact ⟨c.sections, c.currentSectionIndex, rfl⟩
  · exact ⟨_, _, rfl⟩

/-- Of the document a paragraph changes the flow, the sections and the counter. -/
theorem pushParagraph_eq (c : Capture) (clipped : JsText) :
    ∃ sections index, c.pushParagraph clipped =
      { c with
        flow := c.flow ++ [.paragraph clipped]
        sections := sections
        currentSectionIndex := index
        emittedTextChars := c.emittedTextChars + clipped.length + 1 } := by
  unfold pushParagraph
  obtain ⟨sections, index, hensure⟩ := ensureSection_eq { c with flow := c.flow ++ [.paragraph clipped] }
  simp only [hensure]
  obtain ⟨sections', hin⟩ := inSection_eq
    { c with flow := c.flow ++ [.paragraph clipped], sections := sections, currentSectionIndex := index }
    fun s => { s with text := s.text ++ [clipped] }
  rw [hin]
  exact ⟨sections', index, rfl⟩

/-- A link with a new key is put behind the others. -/
theorem pushLink_eq (c : Capture) (link : Link) :
    c.pushLink link = c ∧ link.key ∈ c.linkKeys ∨
      c.pushLink link = { c with linkKeys := c.linkKeys ++ [link.key], links := c.links ++ [link] } ∧
        link.key ∉ c.linkKeys := by
  unfold pushLink
  split_ifs with h
  · exact .inl ⟨rfl, h⟩
  · exact .inr ⟨rfl, h⟩

theorem addSectionLink_eq (c : Capture) (link : Link) :
    ∃ sections index, c.addSectionLink link = { c with sections := sections, currentSectionIndex := index } := by
  unfold addSectionLink
  obtain ⟨sections, index, hensure⟩ := ensureSection_eq c
  rw [hensure]
  obtain ⟨sections', hin⟩ := inSection_eq { c with sections := sections, currentSectionIndex := index } _
  exact ⟨sections', index, hin⟩

end Capture

theorem counted_step {c c' : Capture} (hc : Counted c) (h : Step frames c c') : Counted c' := by
  obtain ⟨hsum, hle⟩ := hc
  cases h with
  | clear => exact ⟨hsum, hle⟩
  | text => exact ⟨hsum, hle⟩
  | paragraph clipped hroom hlen =>
    obtain ⟨sections, index, heq⟩ := pushParagraph_eq c clipped
    rw [heq]
    refine ⟨?_, ?_⟩
    · show c.emittedTextChars + clipped.length + 1 = _
      rw [paragraphs_append, List.map_append, List.sum_append, ← hsum]
      rfl
    · show c.emittedTextChars + clipped.length + 1 ≤ _
      omega
  | heading level text =>
    refine ⟨?_, hle⟩
    show c.emittedTextChars = _
    rw [hsum]
    show _ = ((paragraphs (c.flow ++ [.heading level text])).map fun text => text.length + 1).sum
    rw [paragraphs_append]
    simp [paragraphs]
  | link link =>
    have hboth : ∀ d : Capture, d.flow = c.flow → d.emittedTextChars = c.emittedTextChars → Counted d := by
      intro d hflow hchars
      unfold Counted
      rw [hflow, hchars]
      exact ⟨hsum, hle⟩
    obtain ⟨sections, index, heq⟩ := addSectionLink_eq (c.pushLink link) link
    rw [heq]
    rcases pushLink_eq c link with ⟨hpush, -⟩ | ⟨hpush, -⟩
    · exact hboth _ (by rw [hpush]) (by rw [hpush])
    · exact hboth _ (by rw [hpush]) (by rw [hpush])
  | action => exact ⟨hsum, hle⟩
  | item => exact ⟨hsum, hle⟩
  | table table =>
    refine ⟨?_, hle⟩
    show c.emittedTextChars = ((paragraphs (c.flow ++ [.table _])).map fun text => text.length + 1).sum
    rw [hsum, paragraphs_append]
    simp [paragraphs]
  | warn => exact ⟨hsum, hle⟩
  | leave => exact ⟨hsum, hle⟩

/-- What a step keeps, if it may look at the counter. -/
theorem bounded_step {c c' : Capture} (hcounted : Counted c') (hc : Bounded c) (h : Step frames c c') :
    Bounded c' := by
  have htext := hcounted.1 ▸ hcounted.2
  cases h with
  | clear => exact ⟨hc.links, hc.actions, hc.items, hc.tables, htext⟩
  | text => exact ⟨hc.links, hc.actions, hc.items, hc.tables, htext⟩
  | paragraph clipped =>
    obtain ⟨sections, index, heq⟩ := pushParagraph_eq c clipped
    rw [heq] at htext ⊢
    exact ⟨hc.links, hc.actions, hc.items, hc.tables, htext⟩
  | heading level text => exact ⟨hc.links, hc.actions, hc.items, hc.tables, htext⟩
  | link link hroom hlen =>
    obtain ⟨sections, index, heq⟩ := addSectionLink_eq (c.pushLink link) link
    rw [heq] at htext ⊢
    rcases pushLink_eq c link with ⟨hpush, -⟩ | ⟨hpush, -⟩
    · rw [hpush] at htext ⊢
      exact ⟨hc.links, hc.actions, hc.items, hc.tables, htext⟩
    · rw [hpush] at htext ⊢
      exact ⟨⟨length_snoc_le hroom link, forall_mem_snoc hc.links.2 hlen⟩, hc.actions, hc.items, hc.tables, htext⟩
  | action action hroom hlen =>
    exact ⟨hc.links, ⟨length_snoc_le hroom action, forall_mem_snoc hc.actions.2 hlen⟩, hc.items, hc.tables, htext⟩
  | item key item hroom hnew hkey hlen =>
    exact ⟨hc.links, hc.actions, ⟨length_snoc_le hroom item, forall_mem_snoc hc.items.2 hlen⟩, hc.tables, htext⟩
  | table table hroom hrows =>
    exact ⟨hc.links, hc.actions, hc.items, ⟨length_snoc_le hroom table, forall_mem_snoc hc.tables.2 hrows⟩, htext⟩
  | warn => exact ⟨hc.links, hc.actions, hc.items, hc.tables, htext⟩
  | leave => exact ⟨hc.links, hc.actions, hc.items, hc.tables, htext⟩

end Afhttp.Fetch.Content

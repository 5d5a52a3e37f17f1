import Mathlib
import Afhttp.Fetch.ContentRuns

/-!
# The parts of the content document

The document lists the same page several ways.  Here the lists are compared.

    each paragraph of the flow is in one section; each table is in the flow once;
    links, items and actions are listed once, and a section's links are listed   (capture_coherent)
    without frames the sections are the flow, cut at its headings                (capture_sections)
-/

namespace Afhttp.Fetch.Content

open Capture

variable {frames : Bool}

/-! ## Sections -/

theorem flatMap_modify {α β : Type} {g : α → List β} {f : α → α} {x : β} (hf : ∀ a, g (f a) = g a ++ [x])
    {l : List α} {i : ℕ} (h : i < l.length) : ((l.modify i f).flatMap g).Perm (l.flatMap g ++ [x]) := by
  have hsplit : l.flatMap g = (l.take i).flatMap g ++ (g l[i] ++ (l.drop (i + 1)).flatMap g) := by
    conv_lhs => rw [← List.take_append_drop i l, List.drop_eq_getElem_cons h]
    rw [List.flatMap_append, List.flatMap_cons]
  rw [List.modify_eq_take_cons_drop h, List.flatMap_append, List.flatMap_cons, hf, hsplit, List.append_assoc,
    List.append_assoc, List.append_assoc]
  exact List.Perm.append_left _ (List.Perm.append_left _ List.perm_append_comm)

theorem mem_modify {α : Type} {f : α → α} {l : List α} {i : ℕ} {a : α} (h : a ∈ l.modify i f) :
    a ∈ l ∨ ∃ b ∈ l, a = f b := by
  by_cases hi : i < l.length
  · rw [List.modify_eq_take_cons_drop hi] at h
    rcases List.mem_append.mp h with h | h
    · exact .inl (List.mem_of_mem_take h)
    rcases List.mem_cons.mp h with rfl | h
    · exact .inr ⟨l[i], List.getElem_mem hi, rfl⟩
    · exact .inl (List.mem_of_mem_drop h)
  · rw [List.modify_eq_self (by omega)] at h
    exact .inl h

theorem ensureSection_text (c : Capture) :
    c.ensureSection.sections.flatMap Section.text = c.sections.flatMap Section.text := by
  unfold ensureSection
  split
  · rfl
  · show (c.sections ++ _).flatMap _ = _
    rw [List.flatMap_append]
    simp

/-- A section that is there now, and was not, has no links. -/
theorem mem_ensureSection {c : Capture} {s : Section} (h : s ∈ c.ensureSection.sections) :
    s ∈ c.sections ∨ s.links = [] := by
  unfold ensureSection at h
  split at h
  · exact .inl h
  · rcases List.mem_append.mp h with h | h
    · exact .inl h
    · rw [List.mem_singleton.mp h]
      exact .inr rfl

theorem ensureSection_isSome (c : Capture) : ∃ i, c.ensureSection.currentSectionIndex = some i := by
  unfold ensureSection
  split
  · next i hi => exact ⟨i, hi⟩
  · exact ⟨0, rfl⟩

/-- The paragraph is in the section that the walk is in. -/
theorem pushParagraph_text {c : Capture} (hc : c.IndexOk) (clipped : JsText) :
    ((c.pushParagraph clipped).sections.flatMap Section.text).Perm
      (c.sections.flatMap Section.text ++ [clipped]) := by
  have hflow : ({ c with flow := c.flow ++ [.paragraph clipped] } : Capture).IndexOk := hc.of_eq rfl rfl
  have htext := ensureSection_text { c with flow := c.flow ++ [.paragraph clipped] }
  obtain ⟨i, hi⟩ := ensureSection_isSome { c with flow := c.flow ++ [.paragraph clipped] }
  have hlt := hflow.ensureSection i hi
  unfold pushParagraph inSection
  simp only [hi]
  rw [← htext]
  exact flatMap_modify (fun s => rfl) hlt

/-! ## The invariant -/

/-- What the lists of a document have to do with each other. -/
structure Coherent (c : Capture) : Prop where
  text : (paragraphs c.flow).Perm (c.sections.flatMap Section.text)
  tables : tableIndices c.flow = List.range c.tables.length
  links : c.linkKeys = c.links.map Link.key ∧ c.linkKeys.Nodup
  sectionLinks : ∀ s ∈ c.sections, ∀ link ∈ s.links, link.key ∈ c.linkKeys
  items : List.Forall₂ IsKeyOf c.itemKeys c.items ∧ c.itemKeys.Nodup
  actions : c.actions.Pairwise fun a b => ¬ a.Same b

theorem nodup_snoc {α : Type} {l : List α} {a : α} (h : l.Nodup) (ha : a ∉ l) : (l ++ [a]).Nodup :=
  List.nodup_append.mpr ⟨h, List.nodup_singleton a, fun x hx y hy => by
    rw [List.mem_singleton.mp hy]
    rintro rfl
    exact ha hx⟩

/-- A section's links stay among those that are listed. -/
theorem sectionLinks_step {c : Capture} {link : Link} (h : ∀ s ∈ c.sections, ∀ l ∈ s.links, l.key ∈ c.linkKeys)
    (hlink : link.key ∈ c.linkKeys) :
    ∀ s ∈ (c.addSectionLink link).sections, ∀ l ∈ s.links, l.key ∈ c.linkKeys := by
  have hensure : ∀ s ∈ c.ensureSection.sections, ∀ l ∈ s.links, l.key ∈ c.linkKeys := by
    intro s hs l hl
    rcases mem_ensureSection hs with hs | hs
    · exact h s hs l hl
    · rw [hs] at hl
      cases hl
  unfold addSectionLink inSection
  split
  · exact hensure
  · intro s hs l hl
    rcases mem_modify hs with hs | ⟨b, hb, rfl⟩
    · exact hensure s hs l hl
    · split at hl
      · exact hensure b hb l hl
      · rcases List.mem_append.mp hl with hl | hl
        · exact hensure b hb l hl
        · rw [List.mem_singleton.mp hl]
          exact hlink

theorem addSectionLink_text (c : Capture) (link : Link) :
    (c.addSectionLink link).sections.flatMap Section.text = c.sections.flatMap Section.text := by
  have hmodify : ∀ (sections : List Section) (i : ℕ) (f : Section → Section), (∀ s, (f s).text = s.text) →
      (sections.modify i f).flatMap Section.text = sections.flatMap Section.text := by
    intro sections i f hf
    by_cases hi : i < sections.length
    · conv_rhs => rw [← List.take_append_drop i sections, List.drop_eq_getElem_cons hi]
      rw [List.modify_eq_take_cons_drop hi, List.flatMap_append, List.flatMap_append, List.flatMap_cons,
        List.flatMap_cons, hf]
    · rw [List.modify_eq_self (by omega)]
  rw [← ensureSection_text c]
  unfold addSectionLink inSection
  split
  · rfl
  · refine hmodify _ _ _ fun s => ?_
    split <;> rfl

/-- A paragraph brings no link with it. -/
theorem pushParagraph_links {c : Capture} (clipped : JsText)
    (h : ∀ s ∈ c.sections, ∀ l ∈ s.links, l.key ∈ c.linkKeys) :
    ∀ s ∈ (c.pushParagraph clipped).sections, ∀ l ∈ s.links, l.key ∈ c.linkKeys := by
  have hensure : ∀ s ∈ ({ c with flow := c.flow ++ [.paragraph clipped] } : Capture).ensureSection.sections,
      ∀ l ∈ s.links, l.key ∈ c.linkKeys := by
    intro s hs l hl
    rcases mem_ensureSection hs with hs | hs
    · exact h s hs l hl
    · rw [hs] at hl
      cases hl
  unfold pushParagraph inSection
  simp only
  split
  · exact hensure
  · intro s hs l hl
    rcases mem_modify hs with hs | ⟨b, hb, rfl⟩
    · exact hensure s hs l hl
    · exact hensure b hb l hl

theorem coherent_step {c c' : Capture} (hindex : c.IndexOk) (hc : Coherent c) (h : Step frames c c') :
    Coherent c' := by
  cases h with
  | clear => exact ⟨hc.text, hc.tables, hc.links, hc.sectionLinks, hc.items, hc.actions⟩
  | text => exact ⟨hc.text, hc.tables, hc.links, hc.sectionLinks, hc.items, hc.actions⟩
  | paragraph clipped =>
    have htext := pushParagraph_text hindex clipped
    have hlinks := pushParagraph_links clipped hc.sectionLinks
    obtain ⟨sections, index, heq⟩ := pushParagraph_eq c clipped
    rw [heq] at htext hlinks ⊢
    refine ⟨?_, ?_, hc.links, hlinks, hc.items, hc.actions⟩
    · show (paragraphs (c.flow ++ [.paragraph clipped])).Perm _
      rw [paragraphs_append]
      exact (hc.text.append_right _).trans htext.symm
    · show tableIndices (c.flow ++ [.paragraph clipped]) = _
      rw [tableIndices_append, hc.tables]
      exact List.append_nil _
  | heading level text =>
    refine ⟨?_, ?_, hc.links, ?_, hc.items, hc.actions⟩
    · show (paragraphs (c.flow ++ [.heading level text])).Perm ((c.sections ++ _).flatMap _)
      rw [paragraphs_append, List.flatMap_append]
      exact hc.text.append (.refl [])
    · show tableIndices (c.flow ++ [.heading level text]) = _
      rw [tableIndices_append]
      exact (List.append_nil _).trans hc.tables
    · exact forall_mem_snoc hc.sectionLinks fun l hl => absurd hl List.not_mem_nil
  | link link hroom hlen =>
    -- the link is listed, now or before
    have hpushed : Coherent (c.pushLink link) ∧ link.key ∈ (c.pushLink link).linkKeys := by
      rcases pushLink_eq c link with ⟨heq, hmem⟩ | ⟨heq, hnew⟩
      · rw [heq]
        exact ⟨hc, hmem⟩
      · rw [heq]
        refine ⟨⟨hc.text, hc.tables, ⟨?_, nodup_snoc hc.links.2 hnew⟩, ?_, hc.items, hc.actions⟩,
          List.mem_append_right _ (List.mem_singleton.mpr rfl)⟩
        · show c.linkKeys ++ [link.key] = (c.links ++ [link]).map Link.key
          rw [List.map_append, hc.links.1]
          rfl
        · exact fun s hs l hl => List.mem_append_left _ (hc.sectionLinks s hs l hl)
    obtain ⟨hcoherent, hmem⟩ := hpushed
    have htext := addSectionLink_text (c.pushLink link) link
    have hlinks := sectionLinks_step hcoherent.sectionLinks hmem
    obtain ⟨sections, index, heq⟩ := addSectionLink_eq (c.pushLink link) link
    rw [heq] at htext hlinks ⊢
    refine ⟨?_, hcoherent.tables, hcoherent.links, hlinks, hcoherent.items, hcoherent.actions⟩
    show (paragraphs (c.pushLink link).flow).Perm _
    rw [htext]
    exact hcoherent.text
  | action action hroom hlen hnew =>
    refine ⟨hc.text, hc.tables, hc.links, hc.sectionLinks, hc.items, ?_⟩
    show (c.actions ++ [action]).Pairwise _
    rw [List.pairwise_append]
    refine ⟨hc.actions, List.pairwise_singleton _ _, fun a ha b hb => ?_⟩
    rw [List.mem_singleton.mp hb]
    exact hnew a ha
  | item key item hroom hnew hkey hlen =>
    exact ⟨hc.text, hc.tables, hc.links, hc.sectionLinks,
      ⟨List.rel_append hc.items.1 (.cons hkey .nil), nodup_snoc hc.items.2 hnew⟩, hc.actions⟩
  | table table hroom hrows =>
    refine ⟨?_, ?_, hc.links, hc.sectionLinks, hc.items, hc.actions⟩
    · show (paragraphs (c.flow ++ [.table _])).Perm _
      rw [paragraphs_append]
      exact (List.append_nil _).symm ▸ hc.text
    · show tableIndices (c.flow ++ [.table c.tables.length]) = List.range (c.tables ++ [table]).length
      rw [tableIndices_append, hc.tables, List.length_append, List.length_singleton, List.range_succ]
      rfl
  | warn => exact ⟨hc.text, hc.tables, hc.links, hc.sectionLinks, hc.items, hc.actions⟩
  | leave => exact ⟨hc.text, hc.tables, hc.links, hc.sectionLinks, hc.items, hc.actions⟩

/-- A section's heading, its level and its text. -/
def Section.head (s : Section) : JsText × ℕ × List JsText := (s.heading, s.level, s.text)

/-- What an entry of the flow does to the sections. -/
def file (filed : List (JsText × ℕ × List JsText)) : FlowEntry → List (JsText × ℕ × List JsText)
  | .heading level text => filed ++ [(text, level, [])]
  | .paragraph text =>
    match filed.getLast? with
    | none => [(js "Page", 1, [text])]
    | some (heading, level, texts) => filed.dropLast ++ [(heading, level, texts ++ [text])]
  | .table _ => filed

/-- The sections that the flow stands for. -/
def sectionsOf (flow : List FlowEntry) : List (JsText × ℕ × List JsText) := flow.foldl file []

/-- The section that is there without a heading, when a link came first. -/
def emptyPage : List (JsText × ℕ × List JsText) := [(js "Page", 1, [])]

/-- The walk is in the last section, and the sections are the flow's. -/
structure InOrder (c : Capture) : Prop where
  index : c.currentSectionIndex = if c.sections = [] then none else some (c.sections.length - 1)
  sections : c.sections.map Section.head = sectionsOf c.flow ∨
    c.sections.map Section.head = emptyPage ++ sectionsOf c.flow

theorem sectionsOf_snoc (flow : List FlowEntry) (entry : FlowEntry) :
    sectionsOf (flow ++ [entry]) = file (sectionsOf flow) entry := by
  unfold sectionsOf
  rw [List.foldl_append]
  rfl

theorem modify_last {α : Type} (init : List α) (a : α) (f : α → α) :
    (init ++ [a]).modify init.length f = init ++ [f a] := by
  have hlt : init.length < (init ++ [a]).length := by simp
  rw [List.modify_eq_take_cons_drop hlt]
  simp

/-- A section with the same head. -/
theorem map_head_modify {f : Section → Section} (hf : ∀ s, (f s).head = s.head) (sections : List Section) (i : ℕ) :
    (sections.modify i f).map Section.head = sections.map Section.head := by
  by_cases hi : i < sections.length
  · conv_rhs => rw [← List.take_append_drop i sections, List.drop_eq_getElem_cons hi]
    rw [List.modify_eq_take_cons_drop hi, List.map_append, List.map_append, List.map_cons, List.map_cons, hf]
  · rw [List.modify_eq_self (by omega)]

/-- Before the first section the flow has none either. -/
theorem InOrder.nil {c : Capture} (h : InOrder c) (hnil : c.sections = []) :
    c.currentSectionIndex = none ∧ sectionsOf c.flow = [] := by
  obtain ⟨hindex, hsections⟩ := h
  rw [hnil] at hindex hsections
  refine ⟨hindex, ?_⟩
  rcases hsections with h | h
  · exact h.symm
  · cases h

theorem inOrder_paragraph {c : Capture} (h : InOrder c) (clipped : JsText) : InOrder (c.pushParagraph clipped) := by
  have hsnoc := sectionsOf_snoc c.flow (.paragraph clipped)
  rcases List.eq_nil_or_concat' c.sections with hnil | ⟨init, s, hlast⟩
  · obtain ⟨hindex, hflow⟩ := h.nil hnil
    have hpush : c.pushParagraph clipped =
        { c with
          flow := c.flow ++ [.paragraph clipped]
          sections := [⟨js "Page", 1, [clipped], []⟩]
          currentSectionIndex := some 0
          emittedTextChars := c.emittedTextChars + clipped.length + 1 } := by
      unfold pushParagraph ensureSection inSection
      simp only [hindex, hnil]
      rfl
    rw [hpush]
    refine ⟨rfl, .inl ?_⟩
    show _ = sectionsOf (c.flow ++ [.paragraph clipped])
    rw [hsnoc, hflow]
    rfl
  · obtain ⟨hindex, hsections⟩ := h
    have hne : c.sections ≠ [] := by simp [hlast]
    have hlen : c.sections.length - 1 = init.length := by simp [hlast]
    rw [if_neg hne, hlen] at hindex
    have hpush : c.pushParagraph clipped =
        { c with
          flow := c.flow ++ [.paragraph clipped]
          sections := init ++ [{ s with text := s.text ++ [clipped] }]
          emittedTextChars := c.emittedTextChars + clipped.length + 1 } := by
      unfold pushParagraph ensureSection inSection
      simp only [hindex, hlast, modify_last]
    rw [hpush]
    refine ⟨?_, ?_⟩
    · show c.currentSectionIndex = _
      rw [hindex]
      simp
    show (init ++ [_]).map Section.head = sectionsOf (c.flow ++ [.paragraph clipped]) ∨
      (init ++ [_]).map Section.head = emptyPage ++ sectionsOf (c.flow ++ [.paragraph clipped])
    rw [hsnoc, List.map_append]
    rw [hlast, List.map_append] at hsections
    rcases hsections with hsections | hsections
    · left
      rw [← hsections]
      simp [file, Section.head]
    · rcases List.eq_nil_or_concat' (sectionsOf c.flow) with hflow | ⟨filed, last, hflow⟩
      · -- only the section of a link so far
        left
        have hpage : init.map Section.head ++ [s].map Section.head = [] ++ emptyPage := by
          rw [hsections, hflow, List.append_nil, List.nil_append]
        obtain ⟨hinit, hs⟩ := List.append_inj' hpage rfl
        obtain ⟨hheading, hlevel, htext⟩ : s.heading = js "Page" ∧ s.level = 1 ∧ s.text = [] := by
          simpa [Section.head, emptyPage] using hs
        rw [hflow, hinit]
        simp [file, Section.head, hheading, hlevel, htext]
      · right
        rw [hflow, ← List.append_assoc] at hsections
        obtain ⟨hinit, hs⟩ := List.append_inj' hsections rfl
        rw [hflow, hinit]
        have hs' : s.head = last := by simpa using hs
        rw [← hs']
        simp [file, Section.head]

theorem inOrder_heading {c : Capture} (h : InOrder c) (level : ℕ) (text : JsText) :
    InOrder (c.pushHeading level text) := by
  refine ⟨?_, ?_⟩
  · show some c.sections.length = if c.sections ++ _ = [] then none else some ((c.sections ++ _).length - 1)
    rw [if_neg (by simp)]
    simp
  · show (c.sections ++ [_]).map Section.head = sectionsOf (c.flow ++ [.heading level text]) ∨
      (c.sections ++ [_]).map Section.head = emptyPage ++ sectionsOf (c.flow ++ [.heading level text])
    rw [sectionsOf_snoc, List.map_append]
    rcases h.sections with h | h
    · left
      rw [h]
      rfl
    · right
      rw [h, List.append_assoc]
      rfl

theorem inOrder_sectionLink {c : Capture} (h : InOrder c) (link : Link) : InOrder (c.addSectionLink link) := by
  rcases List.eq_nil_or_concat' c.sections with hnil | ⟨init, s, hlast⟩
  · obtain ⟨hindex, hflow⟩ := h.nil hnil
    have hadd : c.addSectionLink link =
        { c with sections := [⟨js "Page", 1, [], [link]⟩], currentSectionIndex := some 0 } := by
      unfold addSectionLink ensureSection inSection
      simp only [hindex, hnil]
      rfl
    rw [hadd]
    refine ⟨rfl, .inr ?_⟩
    show _ = emptyPage ++ sectionsOf c.flow
    rw [hflow]
    rfl
  · have hne : c.sections ≠ [] := by simp [hlast]
    have hindex := h.index
    rw [if_neg hne] at hindex
    unfold addSectionLink ensureSection inSection
    simp only [hindex]
    refine ⟨?_, ?_⟩
    · rw [if_neg (by simpa using hne), List.length_modify]
    · rw [map_head_modify]
      · exact h.sections
      · intro s
        split <;> rfl

theorem inOrder_step {c c' : Capture} (hc : InOrder c) (h : Step false c c') : InOrder c' := by
  cases h with
  | clear => exact ⟨hc.index, hc.sections⟩
  | text => exact ⟨hc.index, hc.sections⟩
  | paragraph clipped => exact inOrder_paragraph hc clipped
  | heading level text => exact inOrder_heading hc level text
  | link link =>
    have hpushed : InOrder (c.pushLink link) := by
      rcases pushLink_eq c link with ⟨heq, -⟩ | ⟨heq, -⟩
      · rw [heq]
        exact hc
      · rw [heq]
        exact ⟨hc.index, hc.sections⟩
    exact inOrder_sectionLink hpushed link
  | action => exact ⟨hc.index, hc.sections⟩
  | item => exact ⟨hc.index, hc.sections⟩
  | table table =>
    refine ⟨hc.index, ?_⟩
    show _ = sectionsOf (c.flow ++ [.table _]) ∨ _ = emptyPage ++ sectionsOf (c.flow ++ [.table _])
    rw [sectionsOf_snoc]
    exact hc.sections
  | warn => exact ⟨hc.index, hc.sections⟩
  | leave i hframes => cases hframes

/-- **The sections are the flow**, cut at its headings, for every page without a frame that can be
read; before them may stand an empty section, for links that came before all text. -/
theorem capture_sections (rules : PageRules) {body : Node} (h : NoFrames body) :
    (capture rules body).sections.map Section.head = sectionsOf (capture rules body).flow ∨
      (capture rules body).sections.map Section.head = emptyPage ++ sectionsOf (capture rules body).flow := by
  have hreaches : Reaches false .start (capture rules body) := capture_reaches rules (.inr h)
  have hstart : InOrder .start := ⟨rfl, .inl rfl⟩
  exact (hreaches.keeps (fun _ _ hc hstep => inOrder_step hc hstep) hstart).sections

/-- Rules for pages whose text is normal already, without links. -/
def plainRules : PageRules :=
  ⟨id, id, id, fun _ => [], fun _ => true, fun _ _ => false, fun _ => false, id⟩

def plainElement (tag : String) : Element where
  tag := tag
  hidden := false
  styledHidden := false
  type := []
  buttonType := false
  value := []
  id := []
  className := []
  attr := fun _ => none
  src := []
  inFooter := false
  inNav := false
  hasShadow := false
  frameError := none

def plainNode (tag : String) (childNodes : List Node) : Node := .element (plainElement tag) childNodes [] [] []

/-- A heading and a paragraph. -/
def pricesPage : Node := plainNode "body" [plainNode "h1" [.text (js "Prices")], plainNode "p" [.text (js "Free")]]

theorem pricesPage_noFrames : NoFrames pricesPage := by
  have hnode : ∀ (tag : String) (childNodes : List Node), tag ≠ "iframe" → (∀ n ∈ childNodes, NoFrames n) →
      NoFrames (plainNode tag childNodes) := fun tag childNodes htag hchild =>
    .element _ _ _ _ _ (fun h => absurd h htag) hchild (fun n hn => absurd hn List.not_mem_nil)
      (fun n hn => absurd hn List.not_mem_nil)
  refine hnode _ _ (by decide) (List.forall_mem_cons.mpr ⟨?_, List.forall_mem_singleton.mpr ?_⟩)
  · exact hnode _ _ (by decide) (List.forall_mem_singleton.mpr (.text _))
  · exact hnode _ _ (by decide) (List.forall_mem_singleton.mpr (.text _))

theorem capture_sections_prices :
    (capture plainRules pricesPage).sections.map Section.head = sectionsOf (capture plainRules pricesPage).flow ∨
      (capture plainRules pricesPage).sections.map Section.head =
        emptyPage ++ sectionsOf (capture plainRules pricesPage).flow :=
  capture_sections plainRules pricesPage_noFrames

/-- With a frame before all text, the text behind it is put in the frame's section. -/
example : (capture plainRules (plainNode "body" [.element (plainElement "iframe") [] [] []
      [plainNode "body" [.text (js "inside")]], .text (js "outside")])).sections.map Section.head =
    [(js "Frame: same-origin iframe", 3, [js "inside", js "outside"]), (js "Page", 1, [])] := by
  decide +kernel

end Afhttp.Fetch.Content

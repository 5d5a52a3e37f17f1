import Mathlib
import Afhttp.Shared.Text

/-!
# The visible text of a page

`looks_like_empty_html_shell` and `count_visible_chars_after` of `sdk/fetch/pipeline/http_only.rs`.
The counter walks over byte offsets; a slice off a character boundary has no result (`none`).
Against it stands `outside`, on the list of characters: what is in no tag and in no script or style
element.

    a slice at the end of a prefix                              (sliceFrom_append)
    one walk, from any offset it comes to                       (scan_eq)
    the counter counts what is outside                          (countVisibleCharsAfter_eq)
    the detector has an answer for every page                   (looksLikeEmptyHtmlShell_answers)
-/

namespace Afhttp.Fetch

open Text
open String (utf8Len utf8Len_cons utf8Len_append)

/-! ## The counter -/

/-- `&s[i..]`; none off a character boundary. -/
def sliceFrom : List Char → ℕ → Option (List Char)
  | [], i => if i = 0 then some [] else none
  | c :: chars, i =>
    if i = 0 then some (c :: chars)
    else if c.utf8Size ≤ i then sliceFrom chars (i - c.utf8Size)
    else none

def scriptOpen : List Char := "<script".toList

def scriptClose : List Char := "</script>".toList

def styleOpen : List Char := "<style".toList

def styleClose : List Char := "</style>".toList

/-- The variables of the loop. -/
structure ScanState where
  visible : ℕ
  inTag : Bool
  skipUntil : Option (List Char)
  i : ℕ

/-- The `while` loop, for so many turns at most. -/
def scan (after : List Char) : ℕ → ScanState → Option ℕ
  | turns, s =>
    if utf8Len after ≤ s.i then some s.visible
    else
      match turns with
      | 0 => none
      | turns + 1 =>
        (sliceFrom after s.i).bind fun rest =>
          match s.skipUntil with
          | some needle =>
            if needle.isPrefixOf rest then scan after turns { s with i := s.i + utf8Len needle, skipUntil := none }
            else scan after turns { s with i := s.i + (rest.head?.map Char.utf8Size).getD 1 }
          | none =>
            match rest with
            | [] => some s.visible
            | ch :: _ =>
              if !s.inTag && ch == '<' then
                if scriptOpen.isPrefixOf rest then
                  scan after turns { s with skipUntil := some scriptClose, i := s.i + utf8Len scriptOpen }
                else if styleOpen.isPrefixOf rest then
                  scan after turns { s with skipUntil := some styleClose, i := s.i + utf8Len styleOpen }
                else scan after turns { s with inTag := true, i := s.i + 1 }
              else if s.inTag then
                scan after turns { s with inTag := !(ch == '>'), i := s.i + ch.utf8Size }
              else
                scan after turns { s with
                  visible := if isWhitespace ch then s.visible else s.visible + 1
                  i := s.i + ch.utf8Size }

/-- Each turn takes at least one byte. -/
def countVisibleCharsAfter (html : String) (bodyStart : ℕ) : Option ℕ :=
  (sliceFrom html.toList bodyStart).bind fun after => scan after (utf8Len after) ⟨0, false, none, 0⟩

/-- `find`, in bytes. -/
def findBytes (needle : List Char) : List Char → Option ℕ
  | [] => none
  | c :: rest => if needle.isPrefixOf (c :: rest) then some 0 else (findBytes needle rest).map (· + c.utf8Size)

def looksLikeEmptyHtmlShell (bytes : List UInt8) (contentType : Option String) : Option Bool :=
  let ct := toAsciiLowercase (contentType.getD "")
  if !startsWith ct "text/html" && (findBytes "application/xhtml".toList ct.toList).isNone then some false
  else if 32 * 1024 < bytes.length then some false
  else
    let lower := toAsciiLowercase ((String.fromUTF8? bytes.toByteArray).getD "")
    if (findBytes scriptOpen lower.toList).isNone then some false
    else
      let visibleChars := match findBytes "<body".toList lower.toList with
        | some idx => countVisibleCharsAfter lower idx
        | none => some 0
      visibleChars.map fun n => decide (n < 200)

/-! ## What is outside -/

/-- What stands behind the next `needle`. -/
def behind (needle : List Char) : List Char → List Char
  | [] => []
  | c :: rest => if needle.isPrefixOf (c :: rest) then (c :: rest).drop needle.length else behind needle rest

/-- What stands behind the next `>`. -/
def behindTag (chars : List Char) : List Char := (chars.dropWhile (· ≠ '>')).drop 1

theorem length_behind (needle chars : List Char) : (behind needle chars).length ≤ chars.length := by
  induction chars with
  | nil => exact Nat.le_refl _
  | cons c rest ih =>
    rw [behind]
    split
    · rw [List.length_drop]
      omega
    · exact ih.trans (Nat.le_succ _)

theorem length_behindTag (chars : List Char) : (behindTag chars).length ≤ chars.length := by
  have hdrop := (List.dropWhile_suffix (l := chars) (· ≠ '>')).length_le
  rw [behindTag, List.length_drop]
  omega

/-- The characters in no tag and in no script or style element. -/
def outside : List Char → List Char
  | [] => []
  | c :: rest =>
    if c = '<' then
      if scriptOpen.isPrefixOf (c :: rest) then outside (behind scriptClose (rest.drop 6))
      else if styleOpen.isPrefixOf (c :: rest) then outside (behind styleClose (rest.drop 5))
      else outside (behindTag rest)
    else c :: outside rest
  termination_by chars => chars.length
  decreasing_by
    · have hbehind := length_behind scriptClose (rest.drop 6)
      rw [List.length_drop] at hbehind
      rw [List.length_cons]
      omega
    · have hbehind := length_behind styleClose (rest.drop 5)
      rw [List.length_drop] at hbehind
      rw [List.length_cons]
      omega
    · exact Nat.lt_succ_of_le (length_behindTag rest)
    · exact Nat.lt_succ_self _

def visibleCount (chars : List Char) : ℕ := (outside chars).countP fun c => !isWhitespace c

/-! ## Offsets -/

theorem utf8Len_pos {chars : List Char} (h : chars ≠ []) : 0 < utf8Len chars := by
  cases chars with
  | nil => exact absurd rfl h
  | cons c chars =>
    have hc := c.utf8Size_pos
    rw [utf8Len_cons]
    omega

/-- **A slice at the end of a prefix** is on a boundary. -/
theorem sliceFrom_append (pre rest : List Char) : sliceFrom (pre ++ rest) (utf8Len pre) = some rest := by
  induction pre with
  | nil => cases rest <;> exact if_pos rfl
  | cons c pre ih =>
    have hc := c.utf8Size_pos
    rw [List.cons_append, sliceFrom, utf8Len_cons, if_neg (by omega), if_pos (Nat.le_add_left _ _),
      Nat.add_sub_cancel, ih]

/-! ## The walk -/

/-- Where the walk is. -/
inductive ScanMode where
  | text
  | tag
  | skipping (needle : List Char)

/-- What is still to be looked at. -/
def ScanMode.left : ScanMode → List Char → List Char
  | text, rest => rest
  | tag, rest => behindTag rest
  | skipping needle, rest => behind needle rest

def ScanMode.state (visible i : ℕ) : ScanMode → ScanState
  | text => ⟨visible, false, none, i⟩
  | tag => ⟨visible, true, none, i⟩
  | skipping needle => ⟨visible, false, some needle, i⟩

def ScanMode.Proper : ScanMode → Prop
  | skipping needle => needle ≠ []
  | _ => True

theorem scan_end (after : List Char) (turns visible : ℕ) (mode : ScanMode) :
    scan after turns (mode.state visible (utf8Len after)) = some visible := by
  unfold scan
  cases mode <;> exact if_pos (Nat.le_refl _)

theorem left_nil (mode : ScanMode) : mode.left [] = [] := by
  cases mode <;> rfl

theorem visibleCount_nil : visibleCount [] = 0 := by
  rw [visibleCount, outside]
  rfl

theorem visibleCount_cons {c : Char} (rest : List Char) (h : c ≠ '<') :
    visibleCount (c :: rest) = (if isWhitespace c then 0 else 1) + visibleCount rest := by
  rw [visibleCount, outside, if_neg h, List.countP_cons, visibleCount]
  cases isWhitespace c <;> simp [Nat.add_comm]

section
variable (pre rest : List Char) (c : Char) (turns visible : ℕ)

/-- Before the end there is a turn to take. -/
theorem offset_lt : ¬utf8Len (pre ++ c :: rest) ≤ utf8Len pre := by
  have hc := c.utf8Size_pos
  rw [utf8Len_append, utf8Len_cons]
  omega

/-- A turn in a skipped element. -/
theorem scan_skipping (needle : List Char) :
    scan (pre ++ c :: rest) (turns + 1) ((ScanMode.skipping needle).state visible (utf8Len pre)) =
      if needle.isPrefixOf (c :: rest) then
        scan (pre ++ c :: rest) turns (ScanMode.text.state visible (utf8Len pre + utf8Len needle))
      else scan (pre ++ c :: rest) turns
        ((ScanMode.skipping needle).state visible (utf8Len pre + c.utf8Size)) := by
  show scan (pre ++ c :: rest) (turns + 1) ⟨visible, false, some needle, utf8Len pre⟩ = _
  rw [scan, if_neg (offset_lt pre rest c)]
  dsimp only
  rw [sliceFrom_append, Option.bind_some]
  rfl

/-- A turn in a tag. -/
theorem scan_tag :
    scan (pre ++ c :: rest) (turns + 1) (ScanMode.tag.state visible (utf8Len pre)) =
      scan (pre ++ c :: rest) turns
        ((if c = '>' then ScanMode.text else .tag).state visible (utf8Len pre + c.utf8Size)) := by
  show scan (pre ++ c :: rest) (turns + 1) ⟨visible, true, none, utf8Len pre⟩ = _
  rw [scan, if_neg (offset_lt pre rest c)]
  dsimp only
  rw [sliceFrom_append, Option.bind_some]
  dsimp only
  by_cases hclose : c = '>'
  · subst hclose
    rfl
  · have hopen : (c == '>') = false := beq_false_of_ne hclose
    rw [if_neg hclose, hopen]
    rfl

/-- A turn at a `<` outside. -/
theorem scan_open :
    scan (pre ++ '<' :: rest) (turns + 1) (ScanMode.text.state visible (utf8Len pre)) =
      if scriptOpen.isPrefixOf ('<' :: rest) then
        scan (pre ++ '<' :: rest) turns
          ((ScanMode.skipping scriptClose).state visible (utf8Len pre + utf8Len scriptOpen))
      else if styleOpen.isPrefixOf ('<' :: rest) then
        scan (pre ++ '<' :: rest) turns
          ((ScanMode.skipping styleClose).state visible (utf8Len pre + utf8Len styleOpen))
      else scan (pre ++ '<' :: rest) turns (ScanMode.tag.state visible (utf8Len pre + 1)) := by
  show scan (pre ++ '<' :: rest) (turns + 1) ⟨visible, false, none, utf8Len pre⟩ = _
  rw [scan, if_neg (offset_lt pre rest '<')]
  dsimp only
  rw [sliceFrom_append, Option.bind_some]
  rfl

/-- A turn at another character outside. -/
theorem scan_char (h : c ≠ '<') :
    scan (pre ++ c :: rest) (turns + 1) (ScanMode.text.state visible (utf8Len pre)) =
      scan (pre ++ c :: rest) turns
        (ScanMode.text.state (visible + if isWhitespace c then 0 else 1) (utf8Len pre + c.utf8Size)) := by
  have htext : (c == '<') = false := beq_false_of_ne h
  have hcount : (if isWhitespace c = true then visible else visible + 1) =
      visible + (if isWhitespace c = true then 0 else 1) := by
    split <;> rfl
  show scan (pre ++ c :: rest) (turns + 1) ⟨visible, false, none, utf8Len pre⟩ = _
  rw [scan, if_neg (offset_lt pre rest c)]
  dsimp only
  rw [sliceFrom_append, Option.bind_some]
  dsimp only
  rw [htext, hcount]
  rfl

end

/-- **The walk** counts what is outside, from any offset that it comes to. -/
theorem scan_eq (turns : ℕ) : ∀ (pre rest : List Char) (visible : ℕ) (mode : ScanMode), mode.Proper →
    utf8Len rest ≤ turns →
      scan (pre ++ rest) turns (mode.state visible (utf8Len pre)) =
        some (visible + visibleCount (mode.left rest)) := by
  induction turns with
  | zero =>
    intro pre rest visible mode _ hturns
    have hrest : rest = [] := by
      by_contra hne
      have hpos := utf8Len_pos hne
      omega
    rw [hrest, List.append_nil, left_nil, visibleCount_nil, scan_end]
    rfl
  | succ turns ih =>
    intro pre rest visible mode hproper hturns
    cases rest with
    | nil =>
      rw [List.append_nil, left_nil, visibleCount_nil, scan_end]
      rfl
    | cons c rest =>
      have hc := c.utf8Size_pos
      -- the next offset is the end of a longer prefix
      have hnext : ∀ (visible : ℕ) (mode : ScanMode), mode.Proper →
          scan (pre ++ c :: rest) turns (mode.state visible (utf8Len pre + c.utf8Size)) =
            some (visible + visibleCount (mode.left rest)) := by
        intro visible mode hproper
        have hlonger := ih (pre ++ [c]) rest visible mode hproper (by rw [utf8Len_cons] at hturns; omega)
        rw [List.append_assoc, utf8Len_append, utf8Len_cons, String.utf8Len_nil, Nat.zero_add] at hlonger
        exact hlonger
      have hjump : ∀ (needle : List Char) (mode : ScanMode), mode.Proper → needle ≠ [] →
          needle.isPrefixOf (c :: rest) = true →
          scan (pre ++ c :: rest) turns (mode.state visible (utf8Len pre + utf8Len needle)) =
            some (visible + visibleCount (mode.left ((c :: rest).drop needle.length))) := by
        intro needle mode hproper hne hprefix
        obtain ⟨tail, htail⟩ := List.isPrefixOf_iff_prefix.mp hprefix
        have hpos := utf8Len_pos hne
        have hlonger := ih (pre ++ needle) tail visible mode hproper (by
          rw [← htail, utf8Len_append] at hturns
          omega)
        rw [List.append_assoc, htail, utf8Len_append] at hlonger
        rw [hlonger, ← htail, List.drop_left]
      cases mode with
      | skipping needle =>
        rw [scan_skipping, ScanMode.left, behind]
        by_cases hneedle : needle.isPrefixOf (c :: rest) = true
        · rw [if_pos hneedle, if_pos hneedle]
          exact hjump needle .text trivial hproper hneedle
        · rw [if_neg hneedle, if_neg hneedle]
          exact hnext visible (.skipping needle) hproper
      | tag =>
        rw [scan_tag, ScanMode.left, behindTag, List.dropWhile_cons]
        by_cases hclose : c = '>'
        · subst hclose
          exact hnext visible .text trivial
        · rw [if_pos (decide_eq_true hclose), ← behindTag, if_neg hclose]
          exact hnext visible .tag trivial
      | text =>
        rw [ScanMode.left]
        by_cases hlt : c = '<'
        · subst hlt
          rw [scan_open, visibleCount, outside, if_pos rfl]
          by_cases hscript : scriptOpen.isPrefixOf ('<' :: rest) = true
          · rw [if_pos hscript, if_pos hscript]
            exact hjump scriptOpen (.skipping scriptClose) (show scriptClose ≠ [] by decide) (by decide) hscript
          rw [if_neg hscript, if_neg hscript]
          by_cases hstyle : styleOpen.isPrefixOf ('<' :: rest) = true
          · rw [if_pos hstyle, if_pos hstyle]
            exact hjump styleOpen (.skipping styleClose) (show styleClose ≠ [] by decide) (by decide) hstyle
          rw [if_neg hstyle, if_neg hstyle]
          exact hnext visible .tag trivial
        · rw [scan_char _ _ _ _ _ hlt, visibleCount_cons rest hlt, ← Nat.add_assoc]
          exact hnext _ .text trivial

/-- **The count**, for every text and every start on a character boundary. -/
theorem countVisibleCharsAfter_eq (pre rest : String) :
    countVisibleCharsAfter (pre ++ rest) pre.utf8ByteSize = some (visibleCount rest.toList) := by
  rw [countVisibleCharsAfter, String.toList_append, ← String.utf8Len_toList, sliceFrom_append, Option.bind_some]
  have hscan := scan_eq (utf8Len rest.toList) [] rest.toList 0 .text trivial (Nat.le_refl _)
  rw [Nat.zero_add] at hscan
  exact hscan

-- an element that is closed, one that is not, and a `<` in a tag
example : countVisibleCharsAfter "é<body a<b><style>x</style>h é<script>y</style>" 2 = some 2 := by decide +kernel

/-! ## The detector -/

theorem findBytes_boundary {needle chars : List Char} {i : ℕ} (h : findBytes needle chars = some i) :
    ∃ pre rest, chars = pre ++ rest ∧ i = utf8Len pre := by
  induction chars generalizing i with
  | nil => cases h
  | cons c chars ih =>
    rw [findBytes] at h
    split at h
    · cases h
      exact ⟨[], c :: chars, rfl, rfl⟩
    · obtain ⟨j, hj, rfl⟩ := Option.map_eq_some_iff.mp h
      obtain ⟨pre, rest, rfl, rfl⟩ := ih hj
      exact ⟨c :: pre, rest, rfl, (utf8Len_cons c pre).symm⟩

/-- **The detector** has an answer for every page: no slice of it is off a boundary. -/
theorem looksLikeEmptyHtmlShell_answers (bytes : List UInt8) (contentType : Option String) :
    (looksLikeEmptyHtmlShell bytes contentType).isSome = true := by
  have hcount : ∀ (html : String) (i : ℕ), findBytes "<body".toList html.toList = some i →
      (countVisibleCharsAfter html i).isSome = true := by
    intro html i hi
    obtain ⟨pre, rest, hhtml, rfl⟩ := findBytes_boundary hi
    have hsplit : html = String.ofList pre ++ String.ofList rest := by
      rw [← String.ofList_append, ← hhtml, String.ofList_toList]
    have hsome := countVisibleCharsAfter_eq (String.ofList pre) (String.ofList rest)
    rw [← hsplit, String.utf8ByteSize_ofList] at hsome
    rw [hsome]
    rfl
  unfold looksLikeEmptyHtmlShell
  dsimp only
  split
  · rfl
  split
  · rfl
  split
  · rfl
  · rw [Option.isSome_map]
    split
    · next i hi => exact hcount _ i hi
    · rfl

end Afhttp.Fetch

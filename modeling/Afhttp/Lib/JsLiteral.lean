import Mathlib

/-!
# JavaScript string literals in a page

A JSON string is a JavaScript string literal.  `quote` writes one, with the short escapes where
there are any; `withoutLt` escapes the character that could end the script element it stands in.
`read` reads the inside of a double-quoted literal, a character at a time: the value is in UTF-16
code units, as in the language.  `scriptText` is what an HTML parser takes for a script.

    a quoted text reads back as itself, whatever stands behind it     (read_quote)
    it has no `<`                                                     (lt_notMem_withoutLt)
    a script without `<` ends at its own end tag                      (scriptText_append)
-/

namespace JsLiteral

/-! ## Writing -/

/-- The character that stands behind the backslash of a short escape. -/
def shortEscape (c : Char) : Option Char :=
  if c = '"' then some '"'
  else if c = '\\' then some '\\'
  else if c = '\x08' then some 'b'
  else if c = '\t' then some 't'
  else if c = '\n' then some 'n'
  else if c = '\x0c' then some 'f'
  else if c = '\r' then some 'r'
  else none

def hexDigit (n : ℕ) : Char := Char.ofNat (if n < 10 then 0x30 + n else 0x57 + n)

/-- The escape of a code unit below 256. -/
def unicodeEscape (n : ℕ) : List Char := ['\\', 'u', '0', '0', hexDigit (n / 16), hexDigit (n % 16)]

/-- One character of a JSON string. -/
def escape (c : Char) : List Char :=
  match shortEscape c with
  | some e => ['\\', e]
  | none => if c.toNat < 0x20 then unicodeEscape c.toNat else [c]

/-- A JSON string. -/
def quote (s : List Char) : List Char := '"' :: (s.flatMap escape ++ ['"'])

/-- With each `<` as an escape. -/
def withoutLt (text : List Char) : List Char :=
  text.flatMap fun c => if c = '<' then unicodeEscape '<'.toNat else [c]

/-! ## Reading -/

/-- The code units of a character. -/
def utf16 (c : Char) : List ℕ :=
  if c.toNat < 0x10000 then [c.toNat]
  else [0xD800 + (c.toNat - 0x10000) / 0x400, 0xDC00 + (c.toNat - 0x10000) % 0x400]

def hexValue (c : Char) : Option ℕ :=
  if '0' ≤ c ∧ c ≤ '9' then some (c.toNat - 0x30)
  else if 'a' ≤ c ∧ c ≤ 'f' then some (c.toNat - 0x57)
  else if 'A' ≤ c ∧ c ≤ 'F' then some (c.toNat - 0x37)
  else none

/-- What a single character behind a backslash stands for. -/
def singleEscape (c : Char) : ℕ :=
  if c = 'b' then 8
  else if c = 't' then 9
  else if c = 'n' then 10
  else if c = 'v' then 11
  else if c = 'f' then 12
  else if c = 'r' then 13
  else c.toNat

/-- Where in the literal the reader is. -/
inductive Mode where
  | plain
  /-- Behind a backslash. -/
  | escaped
  /-- In a hexadecimal escape: so many digits after the next one, and the value so far. -/
  | hex (left value : ℕ)
  deriving DecidableEq

/-- Behind a backslash: the code units read, and how it goes on.  Octal escapes and line
continuations are not read. -/
def afterBackslash (c : Char) : Option (List ℕ × Mode) :=
  if c = 'u' then some ([], .hex 3 0)
  else if c = 'x' then some ([], .hex 1 0)
  else if '0' ≤ c ∧ c ≤ '9' ∨ c = '\n' ∨ c = '\r' ∨ c = '\u2028' ∨ c = '\u2029' then none
  else some (if c.toNat < 0x10000 then [singleEscape c] else utf16 c, .plain)

/-- One character inside the literal that does not end it. -/
def next : Mode → Char → Option (List ℕ × Mode)
  | .plain, c =>
    if c = '\\' then some ([], .escaped)
    else if c = '\n' ∨ c = '\r' then none
    else some (utf16 c, .plain)
  | .escaped, c => afterBackslash c
  | .hex left value, c =>
    match hexValue c, left with
    | none, _ => none
    | some d, 0 => some ([16 * value + d], .plain)
    | some d, left + 1 => some ([], .hex left (16 * value + d))

/-- Reads on from behind the opening quotation mark: the value, and what stands behind the literal. -/
def read (mode : Mode) : List Char → Option (List ℕ × List Char)
  | [] => none
  | c :: rest =>
    match mode, decide (c = '"') with
    | .plain, true => some ([], rest)
    | mode, _ => (next mode c).bind fun (units, mode') => (read mode' rest).map fun r => (units ++ r.1, r.2)

/-! ## A quoted text is read back -/

theorem hexDigit_facts {n : ℕ} (h : n < 16) : hexValue (hexDigit n) = some n ∧ hexDigit n ≠ '<' := by
  have hall : ∀ m : Fin 16, hexValue (hexDigit m) = some m.val ∧ hexDigit m ≠ '<' := by decide
  exact hall ⟨n, h⟩

theorem read_of_next {mode : Mode} {c : Char} (h : mode ≠ .plain ∨ c ≠ '"') (rest : List Char) :
    read mode (c :: rest) =
      (next mode c).bind fun (units, mode') => (read mode' rest).map fun r => (units ++ r.1, r.2) := by
  cases mode with
  | plain =>
    have hc : c ≠ '"' := h.resolve_left fun hne => hne rfl
    simp only [read, hc, decide_false]
  | escaped => rfl
  | hex left value => rfl

/-- `units` come before what is read. -/
def prepend (units : List ℕ) (r : Option (List ℕ × List Char)) : Option (List ℕ × List Char) :=
  r.map fun r => (units ++ r.1, r.2)

theorem prepend_prepend (xs ys : List ℕ) (r : Option (List ℕ × List Char)) :
    prepend xs (prepend ys r) = prepend (xs ++ ys) r := by
  cases r with
  | none => rfl
  | some r => simp only [prepend, Option.map_some, List.append_assoc]

theorem read_next (units : List ℕ) (mode' : Mode) {mode : Mode} {c : Char} (h : mode ≠ .plain ∨ c ≠ '"')
    (hnext : next mode c = some (units, mode')) (rest : List Char) :
    read mode (c :: rest) = prepend units (read mode' rest) := by
  rw [read_of_next h, hnext, Option.bind_some]
  rfl

theorem read_unicodeEscape {n : ℕ} (hn : n < 256) (rest : List Char) :
    read .plain (unicodeEscape n ++ rest) = prepend [n] (read .plain rest) := by
  obtain ⟨hhigh, -⟩ := hexDigit_facts (n := n / 16) (by omega)
  obtain ⟨hlow, -⟩ := hexDigit_facts (n := n % 16) (by omega)
  have hzero : hexValue '0' = some 0 := by decide
  have hvalue : 16 * (16 * (16 * (16 * 0 + 0) + 0) + n / 16) + n % 16 = n := by omega
  show read .plain ('\\' :: 'u' :: '0' :: '0' :: hexDigit (n / 16) :: hexDigit (n % 16) :: rest) = _
  rw [read_next [] .escaped (.inr (by decide)) rfl,
    read_next [] (.hex 3 0) (.inl (by simp)) rfl,
    read_next [] (.hex 2 (16 * 0 + 0)) (.inl (by simp)) (by simp only [next, hzero]),
    read_next [] (.hex 1 (16 * (16 * 0 + 0) + 0)) (.inl (by simp)) (by simp only [next, hzero]),
    read_next [] (.hex 0 (16 * (16 * (16 * 0 + 0) + 0) + n / 16)) (.inl (by simp)) (by simp only [next, hhigh]),
    read_next [n] .plain (.inl (by simp)) (by simp only [next, hlow, hvalue])]
  simp only [prepend_prepend, List.nil_append]

theorem unicodeEscape_withoutLt {n : ℕ} (hn : n < 256) : withoutLt (unicodeEscape n) = unicodeEscape n := by
  obtain ⟨-, hhigh⟩ := hexDigit_facts (n := n / 16) (by omega)
  obtain ⟨-, hlow⟩ := hexDigit_facts (n := n % 16) (by omega)
  simp [withoutLt, unicodeEscape, hhigh, hlow]

/-- A short escape reads back. -/
theorem read_shortEscape {c e : Char} (h : shortEscape c = some e) (rest : List Char) :
    read .plain (withoutLt ['\\', e] ++ rest) = prepend (utf16 c) (read .plain rest) := by
  have key : e ≠ '<' ∧ afterBackslash e = some (utf16 c, .plain) := by
    unfold shortEscape at h
    split_ifs at h with h₁ h₂ h₃ h₄ h₅ h₆ h₇
    all_goals
      obtain rfl := Option.some.inj h
      subst c
      decide
  obtain ⟨hlt, hafter⟩ := key
  have hwithout : withoutLt ['\\', e] = ['\\', e] := by simp [withoutLt, hlt]
  rw [hwithout]
  show read .plain ('\\' :: e :: rest) = _
  have hnext : next .escaped e = some (utf16 c, .plain) := hafter
  rw [read_next [] .escaped (.inr (by decide)) rfl, read_next (utf16 c) .plain (.inl (by simp)) hnext,
    prepend_prepend, List.nil_append]

/-- A character reads back, however it was written. -/
theorem read_escape (c : Char) (rest : List Char) :
    read .plain (withoutLt (escape c) ++ rest) = prepend (utf16 c) (read .plain rest) := by
  unfold escape
  cases hshort : shortEscape c with
  | some e => exact read_shortEscape hshort rest
  | none =>
    by_cases hcontrol : c.toNat < 0x20
    · dsimp only
      rw [if_pos hcontrol, unicodeEscape_withoutLt (by omega), read_unicodeEscape (by omega)]
      unfold utf16
      rw [if_pos (by omega)]
    dsimp only
    rw [if_neg hcontrol]
    by_cases hlt : c = '<'
    · subst hlt
      exact read_unicodeEscape (n := '<'.toNat) (by decide) rest
    · have hwithout : withoutLt [c] = [c] := by simp [withoutLt, hlt]
      have hquote : c ≠ '"' := by
        rintro rfl
        cases hshort
      have hbackslash : c ≠ '\\' := by
        rintro rfl
        cases hshort
      have hline : ¬ (c = '\n' ∨ c = '\r') := by
        rintro (rfl | rfl) <;> cases hshort
      rw [hwithout]
      show read .plain (c :: rest) = _
      refine read_next (utf16 c) .plain (.inr hquote) ?_ rest
      simp only [next, if_neg hbackslash, if_neg hline]

theorem withoutLt_append (a b : List Char) : withoutLt (a ++ b) = withoutLt a ++ withoutLt b := List.flatMap_append

theorem read_body (s rest : List Char) :
    read .plain (withoutLt (s.flatMap escape) ++ rest) = prepend (s.flatMap utf16) (read .plain rest) := by
  induction s with
  | nil =>
    show read .plain rest = _
    cases read .plain rest <;> rfl
  | cons c s ih =>
    rw [List.flatMap_cons, List.flatMap_cons, withoutLt_append, List.append_assoc, read_escape, ih, prepend_prepend]

/-- **A quoted text reads back as itself**, and the reader stops where the literal ends. -/
theorem read_quote (s rest : List Char) :
    ∃ body, withoutLt (quote s) ++ rest = '"' :: body ∧ read .plain body = some (s.flatMap utf16, rest) := by
  refine ⟨withoutLt (s.flatMap escape) ++ ('"' :: rest), ?_, ?_⟩
  · have hquote : ∀ xs : List Char, withoutLt ('"' :: xs) = '"' :: withoutLt xs := fun _ => rfl
    show withoutLt ('"' :: (s.flatMap escape ++ ['"'])) ++ rest = _
    rw [hquote, withoutLt_append, hquote, List.cons_append, List.append_assoc]
    rfl
  · rw [read_body]
    show some (s.flatMap utf16 ++ [], rest) = _
    rw [List.append_nil]

/-! ## A text in a script element -/

theorem lt_notMem_withoutLt (text : List Char) : '<' ∉ withoutLt text := by
  intro h
  obtain ⟨c, -, hc⟩ := List.mem_flatMap.mp h
  split at hc
  · exact absurd hc (by decide)
  · next hne => exact hne (List.mem_singleton.mp hc).symm

def endTag : List Char := "</script>".toList

/-- The text of a script element, and what stands behind its end tag.  Only a `<` can take the
parser out of the script; one that is not the end tag's is not read. -/
def scriptText : List Char → Option (List Char × List Char)
  | [] => none
  | c :: rest =>
    if c = '<' then
      if endTag.isPrefixOf (c :: rest) then some ([], (c :: rest).drop endTag.length) else none
    else (scriptText rest).map fun r => (c :: r.1, r.2)

/-- **A script without `<`** ends at its own end tag. -/
theorem scriptText_append {text : List Char} (h : '<' ∉ text) (rest : List Char) :
    scriptText (text ++ endTag ++ rest) = some (text, rest) := by
  induction text with
  | nil =>
    have hprefix : endTag.isPrefixOf (endTag ++ rest) = true :=
      List.isPrefixOf_iff_prefix.mpr (List.prefix_append ..)
    show (if endTag.isPrefixOf (endTag ++ rest) then some ([], (endTag ++ rest).drop endTag.length) else none) = _
    rw [if_pos hprefix, List.drop_left]
  | cons c text ih =>
    have hc : c ≠ '<' := fun hc => h (hc ▸ List.mem_cons_self)
    show (if c = '<' then _ else (scriptText (text ++ endTag ++ rest)).map fun r => (c :: r.1, r.2)) = _
    rw [if_neg hc, ih fun hmem => h (List.mem_cons_of_mem _ hmem), Option.map_some]

end JsLiteral

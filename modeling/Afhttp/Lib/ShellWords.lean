import Mathlib

/-!
# The words of a shell command

How a POSIX shell splits a line into words and removes the quotes.  The splitter has a result only
for one simple command that is nothing but words: an operator, a line break, a comment, an
expansion, a substitution, a pattern, an assignment or a reserved word in front, an open quote and a
NUL have none.

    plain characters stand for themselves               (reads_plain)
    what stands in single quotes does                   (reads_quoted)
    a command put together of such words                (argv_joined)
-/

namespace ShellWords

/-! ## The splitter -/

/-- How the next character is read. -/
inductive Quoting where
  | unquoted
  /-- After a backslash outside quotes. -/
  | escaped
  | single
  | double
  /-- After a backslash in double quotes. -/
  | doubleEscaped

/-- A word: its characters, and whether each was quoted. -/
abbrev Token := List (Char × Bool)

def isBlank (c : Char) : Bool := c == ' ' || c == '\t'

/-- An operator, the end of a line, or the beginning of an expansion. -/
def isSpecial (c : Char) : Bool := ['|', '&', ';', '<', '>', '(', ')', '$', (Char.ofNat 96), '\n'].contains c

/-- One character more of a word. -/
def push (word : Option Token) (c : Char) (quoted : Bool) : Option Token := some (word.getD [] ++ [(c, quoted)])

/-- The words from here on; `word` is the one that has begun. -/
def tokens : Quoting → Option Token → List Char → Option (List Token)
  | .unquoted, word, [] => some word.toList
  | .unquoted, word, c :: rest =>
    if c = '\'' then tokens .single (some (word.getD [])) rest
    else if c = '"' then tokens .double (some (word.getD [])) rest
    else if c = '\\' then tokens .escaped word rest
    else if isBlank c then (tokens .unquoted none rest).map (word.toList ++ ·)
    else if isSpecial c || (c == '#' && word.isNone) then none
    else tokens .unquoted (push word c false) rest
  | .escaped, word, c :: rest =>
    if c = '\n' then tokens .unquoted word rest else tokens .unquoted (push word c true) rest
  | .single, word, c :: rest =>
    if c = '\'' then tokens .unquoted word rest else tokens .single (push word c true) rest
  | .double, word, c :: rest =>
    if c = '"' then tokens .unquoted word rest
    else if c = '\\' then tokens .doubleEscaped word rest
    else if c = '$' || c = Char.ofNat 96 then none
    else tokens .double (push word c true) rest
  | .doubleEscaped, word, c :: rest =>
    if c = '\n' then tokens .double word rest
    else if ['$', (Char.ofNat 96), '"', '\\'].contains c then tokens .double (push word c true) rest
    else tokens .double (push (push word '\\' true) c true) rest
  | _, _, [] => none

/-- A tilde in front, or a character of a pattern. -/
def expands (word : Token) : Bool :=
  decide (word.head? = some ('~', false)) || word.any fun c => !c.2 && ['*', '?', '['].contains c.1

def reservedWords : List String :=
  ["!", "\x7b", "\x7d", "case", "do", "done", "elif", "else", "esac", "fi", "for", "if", "in", "then", "until",
    "while", "[[", "]]", "function", "select"]

def isReserved (word : Token) : Bool :=
  word.all (fun c => !c.2) && reservedWords.contains (String.ofList (word.map Prod.fst))

/-- A name, and `=` behind it, both unquoted. -/
def isAssignment (word : Token) : Bool :=
  let name := word.takeWhile fun c => decide (c ≠ ('=', false))
  decide (name.length < word.length) && !name.isEmpty &&
    name.all (fun c => !c.2 && (c.1.isAlphanum || c.1 == '_')) && !(name.head?.any fun c => c.1.isDigit)

def removeQuotes (word : Token) : String := String.ofList (word.map Prod.fst)

/-- The first word names the command, and no word is expanded. -/
def isPlainCommand (words : List Token) : Bool :=
  !(words.head?.any fun first => isReserved first || isAssignment first) && !words.any expands

/-- The argument vector of a line that is one simple command of words. -/
def argv (line : String) : Option (List String) :=
  if line.toList.contains (Char.ofNat 0) then none
  else
    (tokens .unquoted none line.toList).bind fun words =>
      if isPlainCommand words then some (words.map removeQuotes) else none

/-! ## Words -/

/-- Where a word begins, the text is read as this one. -/
def Reads (text : List Char) (word : Token) : Prop :=
  ∀ rest, tokens .unquoted none (text ++ rest) = tokens .unquoted (some word) rest

/-- A character that stands for itself, wherever it stands in a word. -/
def isPlain (c : Char) : Bool :=
  !isBlank c && !isSpecial c && !(['\'', '"', '\\', '#', '~', '*', '?', '[', Char.ofNat 0].contains c)

/-- What a plain character is not. -/
structure PlainFacts (c : Char) : Prop where
  blank : isBlank c = false
  special : isSpecial c = false
  single : c ≠ '\''
  double : c ≠ '"'
  backslash : c ≠ '\\'
  comment : c ≠ '#'
  tilde : c ≠ '~'
  pattern : ['*', '?', '['].contains c = false
  nul : c ≠ Char.ofNat 0

theorem plainFacts {c : Char} (h : isPlain c = true) : PlainFacts c := by
  unfold isPlain at h
  simp only [Bool.and_eq_true, Bool.not_eq_true', List.contains_eq_mem, List.mem_cons, List.not_mem_nil,
    or_false, not_or, decide_eq_false_iff_not] at h
  obtain ⟨⟨hblank, hspecial⟩, hsingle, hdouble, hbackslash, hcomment, htilde, hstar, hmark, hopen, hnul⟩ := h
  refine ⟨hblank, hspecial, hsingle, hdouble, hbackslash, hcomment, htilde, ?_, hnul⟩
  simp [hstar, hmark, hopen]

theorem tokens_plain {c : Char} (h : isPlain c = true) (word : Option Token) (rest : List Char) :
    tokens .unquoted word (c :: rest) = tokens .unquoted (push word c false) rest := by
  obtain ⟨hblank, hspecial, hsingle, hdouble, hbackslash, hcomment, -, -, -⟩ := plainFacts h
  rw [tokens, if_neg hsingle, if_neg hdouble, if_neg hbackslash, hblank, hspecial, beq_false_of_ne hcomment]
  rfl

theorem tokens_plains {text : List Char} (h : ∀ c ∈ text, isPlain c = true) (word : Token) (rest : List Char) :
    tokens .unquoted (some word) (text ++ rest) =
      tokens .unquoted (some (word ++ text.map fun c => (c, false))) rest := by
  induction text generalizing word with
  | nil => rw [List.nil_append, List.map_nil, List.append_nil]
  | cons c text ih =>
    rw [List.cons_append, tokens_plain (h c List.mem_cons_self), push, Option.getD_some,
      ih (fun c hc => h c (List.mem_cons_of_mem _ hc)), List.map_cons, List.append_assoc, List.singleton_append]

/-- **Plain characters** stand for themselves. -/
theorem reads_plain {text : List Char} (hne : text ≠ []) (h : ∀ c ∈ text, isPlain c = true) :
    Reads text (text.map fun c => (c, false)) := by
  intro rest
  cases text with
  | nil => exact absurd rfl hne
  | cons c text =>
    rw [List.cons_append, tokens_plain (h c List.mem_cons_self), push, Option.getD_none, List.nil_append,
      tokens_plains (fun c hc => h c (List.mem_cons_of_mem _ hc))]
    rfl

/-- What stands in single quotes, with a quote of its own written outside them. -/
def quoteBody (s : List Char) : List Char :=
  s.flatMap fun c => if c = '\'' then ['\'', '\\', '\'', '\''] else [c]

theorem tokens_quoteBody (s : List Char) (word : Token) (rest : List Char) :
    tokens .single (some word) (quoteBody s ++ rest) =
      tokens .single (some (word ++ s.map fun c => (c, true))) rest := by
  induction s generalizing word with
  | nil => rw [List.map_nil, List.append_nil]; rfl
  | cons c s ih =>
    have hword : word ++ [(c, true)] ++ s.map (fun c => (c, true)) = word ++ (c :: s).map fun c => (c, true) := by
      rw [List.append_assoc]
      rfl
    have hsplit : quoteBody (c :: s) = (if c = '\'' then ['\'', '\\', '\'', '\''] else [c]) ++ quoteBody s :=
      List.flatMap_cons
    rw [hsplit]
    by_cases hc : c = '\''
    · -- the quotes are closed, the quote is escaped, and they are opened again
      subst hc
      rw [if_pos rfl]
      show tokens .single (some (word ++ [('\'', true)])) (quoteBody s ++ rest) = _
      rw [ih, hword]
    · rw [if_neg hc, List.singleton_append, List.cons_append, tokens, if_neg hc, push, Option.getD_some, ih, hword]

/-- **What stands in single quotes** stands for itself. -/
theorem reads_quoted (s : List Char) :
    Reads ('\'' :: quoteBody s ++ ['\'']) (s.map fun c => (c, true)) := by
  intro rest
  show tokens .single (some []) (quoteBody s ++ ['\''] ++ rest) = _
  rw [List.append_assoc, tokens_quoteBody]
  rfl

/-! ## Commands -/

/-- Words with spaces in between. -/
theorem tokens_joined {words : List (List Char × Token)} (hne : words ≠ []) (h : ∀ w ∈ words, Reads w.1 w.2) :
    tokens .unquoted none ([' '].intercalate (words.map Prod.fst)) = some (words.map Prod.snd) := by
  induction words with
  | nil => exact absurd rfl hne
  | cons w words ih =>
    have hw := h w List.mem_cons_self
    cases words with
    | nil =>
      have hlast := hw []
      rw [List.append_nil] at hlast
      rw [List.map_singleton, List.intercalate_singleton, hlast]
      rfl
    | cons w' words =>
      rw [List.map_cons, List.map_cons, List.intercalate_cons_cons, List.append_assoc, hw]
      show (tokens .unquoted none ([' '].intercalate ((w' :: words).map Prod.fst))).map _ = _
      rw [ih (List.cons_ne_nil _ _) fun w hw => h w (List.mem_cons_of_mem _ hw)]
      rfl

theorem mem_joined {c : Char} {texts : List (List Char)} (h : c ∈ [' '].intercalate texts) :
    c = ' ' ∨ ∃ text ∈ texts, c ∈ text := by
  induction texts with
  | nil => cases h
  | cons text texts ih =>
    cases texts with
    | nil =>
      rw [List.intercalate_singleton] at h
      exact Or.inr ⟨text, List.mem_cons_self, h⟩
    | cons text' texts =>
      rw [List.intercalate_cons_cons, List.append_assoc, List.mem_append, List.singleton_append, List.mem_cons] at h
      rcases h with h | h | h
      · exact Or.inr ⟨text, List.mem_cons_self, h⟩
      · exact Or.inl h
      · rcases ih h with hblank | ⟨t, ht, hc⟩
        · exact Or.inl hblank
        · exact Or.inr ⟨t, List.mem_cons_of_mem _ ht, hc⟩

/-- **A command put together of words**: its argument vector is what the words stand for. -/
theorem argv_joined {words : List (String × Token)} (hne : words ≠ [])
    (hreads : ∀ w ∈ words, Reads w.1.toList w.2) (hnul : ∀ w ∈ words, Char.ofNat 0 ∉ w.1.toList)
    (hcommand : isPlainCommand (words.map Prod.snd) = true) :
    argv (" ".intercalate (words.map Prod.fst)) = some (words.map fun w => removeQuotes w.2) := by
  have hline : (" ".intercalate (words.map Prod.fst)).toList =
      [' '].intercalate ((words.map fun w => (w.1.toList, w.2)).map Prod.fst) := by
    rw [String.toList_intercalate, List.map_map, List.map_map]
    rfl
  have hreads' : ∀ w ∈ words.map fun w => (w.1.toList, w.2), Reads w.1 w.2 := by
    intro w hw
    obtain ⟨v, hv, rfl⟩ := List.mem_map.mp hw
    exact hreads v hv
  have htokens := tokens_joined (by simpa using hne) hreads'
  have hnul' : (" ".intercalate (words.map Prod.fst)).toList.contains (Char.ofNat 0) = false := by
    rw [hline, Bool.eq_false_iff]
    intro hin
    rw [List.contains_eq_mem, decide_eq_true_eq] at hin
    rcases mem_joined hin with hblank | ⟨text, htext, hc⟩
    · exact absurd hblank (by decide)
    · rw [List.map_map] at htext
      obtain ⟨w, hw, rfl⟩ := List.mem_map.mp htext
      exact hnul w hw hc
  rw [argv, hnul', hline, htokens, List.map_map]
  show (if isPlainCommand (words.map Prod.snd) = true then _ else _) = _
  rw [if_pos hcommand, List.map_map]
  rfl

/-- A word that is not expanded. -/
theorem expands_of_plain {text : List Char} (h : ∀ c ∈ text, isPlain c = true) :
    expands (text.map fun c => (c, false)) = false := by
  have hhead : (text.map fun c => (c, false)).head? ≠ some ('~', false) := by
    cases text with
    | nil => simp
    | cons c text =>
      intro heq
      exact (plainFacts (h c List.mem_cons_self)).tilde (congrArg Prod.fst (Option.some.inj heq))
  have hany : (text.map fun c => (c, false)).any (fun c => !c.2 && ['*', '?', '['].contains c.1) = false := by
    rw [List.any_eq_false]
    intro x hx
    obtain ⟨c, hc, rfl⟩ := List.mem_map.mp hx
    rw [(plainFacts (h c hc)).pattern]
    simp
  rw [expands, decide_eq_false hhead, hany]
  rfl

theorem expands_quoted (s : List Char) : expands (s.map fun c => (c, true)) = false := by
  have hhead : (s.map fun c => (c, true)).head? ≠ some ('~', false) := by
    cases s <;> simp
  have hany : (s.map fun c => (c, true)).any (fun c => !c.2 && ['*', '?', '['].contains c.1) = false := by
    simp
  rw [expands, decide_eq_false hhead, hany]
  rfl

end ShellWords

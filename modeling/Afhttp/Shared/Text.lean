import Mathlib.Data.List.DropRight

/-!
# Text

The string operations the source takes from Rust's standard library, on the list
of characters.  `toAsciiLowercase` changes `A`–`Z` only; `trimStartMatches '.'`
drops every leading dot.  Host names are compared after both (`canon`).
-/

namespace Afhttp.Text

def toAsciiLowercase (s : String) : String := String.ofList (s.toList.map Char.toLower)

def eqIgnoreAsciiCase (s t : String) : Bool := toAsciiLowercase s == toAsciiLowercase t

def trimStartMatches (c : Char) (s : String) : String := String.ofList (s.toList.dropWhile (· == c))

def startsWith (s p : String) : Bool := p.toList.isPrefixOf s.toList

def endsWith (s p : String) : Bool := p.toList.isSuffixOf s.toList

def contains (s : String) (c : Char) : Bool := s.toList.contains c

/-- `str::strip_prefix`. -/
def stripPrefix (s p : String) : Option String :=
  if startsWith s p then some (String.ofList (s.toList.drop p.toList.length)) else none

/-- `str::strip_suffix`. -/
def stripSuffix (s p : String) : Option String :=
  if endsWith s p then some (String.ofList (s.toList.take (s.toList.length - p.toList.length))) else none

/-- `str::strip_circumfix`. -/
def stripCircumfix (s p q : String) : Option String := (stripPrefix s p).bind (stripSuffix · q)

/-- What stands before the last `c` (`s[..s.rfind(c)]`), if there is a `c`. -/
def beforeLast (c : Char) (s : String) : Option String :=
  if contains s c then some (String.ofList ((s.toList.reverse.dropWhile (· != c)).tail.reverse)) else none

/-- Unicode `White_Space`. -/
def isWhitespace (c : Char) : Bool :=
  (9 ≤ c.toNat && c.toNat ≤ 13) || c.toNat == 0x20 || c.toNat == 0x85 || c.toNat == 0xa0 || c.toNat == 0x1680 ||
    (0x2000 ≤ c.toNat && c.toNat ≤ 0x200a) || c.toNat == 0x2028 || c.toNat == 0x2029 || c.toNat == 0x202f ||
    c.toNat == 0x205f || c.toNat == 0x3000

/-- `str::rsplit_once`. -/
def rsplitOnce (c : Char) (s : String) : Option (String × String) :=
  (beforeLast c s).map fun before => (before, String.ofList (s.toList.drop (before.toList.length + 1)))

def trim (s : String) : String :=
  String.ofList (((s.toList.dropWhile isWhitespace).reverse.dropWhile isWhitespace).reverse)

def isAsciiControl (c : Char) : Bool := c.toNat < 32 || c.toNat == 127

def isAsciiWhitespace (c : Char) : Bool := [' ', '\t', '\n', '\x0c', '\r'].contains c

/-- What stands before the first `c`, or all of the text. -/
def beforeFirst (c : Char) (s : String) : String := String.ofList (s.toList.takeWhile (· != c))

/-- What `{:?}` prints. -/
structure DebugFormat where
  char : Char → String
  str : String → String

/-- The form in which host names are compared: leading dots dropped, ASCII lower case. -/
def canon (s : String) : String := toAsciiLowercase (trimStartMatches '.' s)

/-! ## Lemmas -/

theorem toLower_toLower (c : Char) : c.toLower.toLower = c.toLower := by
  unfold Char.toLower
  split
  · next h =>
    rw [dif_neg]
    rintro ⟨-, h2⟩
    have h1 : 65 ≤ c.val.toNat := by simpa [UInt32.le_iff_toNat_le] using h.1
    have h3 : c.val.toNat ≤ 90 := by simpa [UInt32.le_iff_toNat_le] using h.2
    simp only [UInt32.le_iff_toNat_le, UInt32.toNat_add] at h2
    have e : ('a'.val - 'A'.val).toNat = 32 := rfl
    have e' : ('Z'.val).toNat = 90 := rfl
    rw [e, e'] at h2
    omega
  · rfl

theorem toLower_eq_dot (c : Char) : c.toLower = '.' ↔ c = '.' := by
  constructor
  · intro h
    unfold Char.toLower at h
    split at h
    · next hc =>
      exfalso
      have h1 : 65 ≤ c.val.toNat := by simpa [UInt32.le_iff_toNat_le] using hc.1
      have h3 : c.val.toNat ≤ 90 := by simpa [UInt32.le_iff_toNat_le] using hc.2
      have hv := congrArg (fun d : Char => d.val.toNat) h
      simp only [UInt32.toNat_add] at hv
      have e : ('a'.val - 'A'.val).toNat = 32 := rfl
      have e' : ('.'.val).toNat = 46 := rfl
      rw [e, e'] at hv
      omega
    · exact h
  · rintro rfl
    rfl

@[simp] theorem toList_toAsciiLowercase (s : String) :
    (toAsciiLowercase s).toList = s.toList.map Char.toLower := by
  simp [toAsciiLowercase]

@[simp] theorem toList_trimStartMatches (c : Char) (s : String) :
    (trimStartMatches c s).toList = s.toList.dropWhile (· == c) := by
  simp [trimStartMatches]

@[simp] theorem toAsciiLowercase_idem (s : String) :
    toAsciiLowercase (toAsciiLowercase s) = toAsciiLowercase s := by
  apply String.toList_inj.mp
  rw [toList_toAsciiLowercase, toList_toAsciiLowercase, List.map_map]
  exact List.map_congr_left fun c _ => toLower_toLower c

@[simp] theorem trimStartMatches_idem (c : Char) (s : String) :
    trimStartMatches c (trimStartMatches c s) = trimStartMatches c s := by
  apply String.toList_inj.mp
  simp [List.dropWhile_idempotent]

theorem trimStartMatches_toAsciiLowercase (s : String) :
    trimStartMatches '.' (toAsciiLowercase s) = toAsciiLowercase (trimStartMatches '.' s) := by
  apply String.toList_inj.mp
  simp only [toList_trimStartMatches, toList_toAsciiLowercase, List.dropWhile_map]
  congr 2
  funext c
  by_cases h : c = '.'
  · subst h
    rfl
  · have h' : c.toLower ≠ '.' := fun e => h ((toLower_eq_dot c).mp e)
    simp [h, h']

@[simp] theorem canon_canon (s : String) : canon (canon s) = canon s := by
  unfold canon
  rw [trimStartMatches_toAsciiLowercase, trimStartMatches_idem, toAsciiLowercase_idem]

theorem endsWith_iff (s p : String) : endsWith s p = true ↔ ∃ u, s = u ++ p := by
  unfold endsWith
  rw [List.isSuffixOf_iff_suffix]
  constructor
  · rintro ⟨u, hu⟩
    exact ⟨String.ofList u, String.toList_inj.mp (by simp [hu])⟩
  · rintro ⟨u, rfl⟩
    exact ⟨u.toList, by simp⟩

theorem stripPrefix_eq_some (s p t : String) : stripPrefix s p = some t ↔ s = p ++ t := by
  unfold stripPrefix startsWith
  constructor
  · intro h
    split at h
    · next hp =>
      obtain ⟨u, hu⟩ := List.isPrefixOf_iff_prefix.mp hp
      cases h
      apply String.toList_inj.mp
      rw [String.toList_append, String.toList_ofList, ← hu, List.drop_left]
    · cases h
  · rintro rfl
    simp

theorem stripSuffix_eq_some (s p t : String) : stripSuffix s p = some t ↔ s = t ++ p := by
  unfold stripSuffix
  constructor
  · intro h
    split at h
    · next hp =>
      obtain ⟨u, rfl⟩ := (endsWith_iff s p).mp hp
      cases h
      simp
    · cases h
  · rintro rfl
    rw [if_pos ((endsWith_iff _ p).mpr ⟨t, rfl⟩)]
    simp

theorem stripCircumfix_eq_some (s p q t : String) : stripCircumfix s p q = some t ↔ s = p ++ t ++ q := by
  unfold stripCircumfix
  rw [Option.bind_eq_some_iff]
  constructor
  · rintro ⟨u, hu, ht⟩
    rw [stripPrefix_eq_some] at hu
    rw [stripSuffix_eq_some] at ht
    rw [hu, ht, String.append_assoc]
  · rintro rfl
    refine ⟨t ++ q, ?_, (stripSuffix_eq_some _ q t).mpr rfl⟩
    rw [stripPrefix_eq_some, String.append_assoc]

theorem eqIgnoreAsciiCase_iff (s t : String) :
    eqIgnoreAsciiCase s t = true ↔ toAsciiLowercase s = toAsciiLowercase t := by
  simp [eqIgnoreAsciiCase]

theorem contains_iff (s : String) (c : Char) : contains s c = true ↔ c ∈ s.toList := by
  simp [contains]

theorem beforeLast_append {c : Char} (a : String) {b : String} (h : c ∉ b.toList) :
    beforeLast c (a ++ String.ofList [c] ++ b) = some a := by
  have hall : ∀ d ∈ b.toList.reverse, (d != c) = true := by
    intro d hd
    rw [bne_iff_ne]
    exact fun e => h (e ▸ List.mem_reverse.mp hd)
  unfold beforeLast
  rw [if_pos (by simp [contains])]
  congr 1
  apply String.toList_inj.mp
  simp only [String.toList_append, String.toList_ofList, List.reverse_append, List.reverse_cons,
    List.reverse_nil, List.nil_append, List.dropWhile_append_of_pos hall]
  simp

theorem rsplitOnce_append {c : Char} (a : String) {b : String} (h : c ∉ b.toList) :
    rsplitOnce c (a ++ String.ofList [c] ++ b) = some (a, b) := by
  unfold rsplitOnce
  rw [beforeLast_append a h, Option.map_some]
  congr 2
  apply String.toList_inj.mp
  simp only [String.toList_append, String.toList_ofList]
  exact List.drop_left' (by simp)

/-- A text with a `c` in it, at the last one. -/
theorem exists_append_last {c : Char} {s : String} (h : c ∈ s.toList) :
    ∃ a b, s = a ++ String.ofList [c] ++ b ∧ c ∉ b.toList := by
  obtain ⟨b, a, e, hb⟩ := List.eq_append_cons_of_mem (List.mem_reverse.mpr h)
  refine ⟨String.ofList a.reverse, String.ofList b.reverse, ?_, ?_⟩
  · apply String.toList_inj.mp
    rw [← List.reverse_reverse s.toList, e]
    simp
  · simpa using hb

theorem rsplitOnce_eq_some_iff {c : Char} {s a b : String} :
    rsplitOnce c s = some (a, b) ↔ s = a ++ String.ofList [c] ++ b ∧ c ∉ b.toList := by
  constructor
  · intro h
    have hc : c ∈ s.toList := by
      by_contra hn
      have hf : contains s c = false := by
        rw [← Bool.not_eq_true, contains_iff]
        exact hn
      simp [rsplitOnce, beforeLast, hf] at h
    obtain ⟨a', b', rfl, hb⟩ := exists_append_last hc
    rw [rsplitOnce_append a' hb] at h
    cases h
    exact ⟨rfl, hb⟩
  · rintro ⟨rfl, hb⟩
    exact rsplitOnce_append a hb

theorem startsWith_iff (s p : String) : startsWith s p = true ↔ ∃ t, s = p ++ t := by
  unfold startsWith
  rw [List.isPrefixOf_iff_prefix]
  constructor
  · rintro ⟨t, ht⟩
    exact ⟨String.ofList t, String.toList_inj.mp (by simp [ht])⟩
  · rintro ⟨t, rfl⟩
    exact ⟨t.toList, by simp⟩

theorem beforeFirst_append {c : Char} {a r : String} (ha : c ∉ a.toList)
    (hr : r = "" ∨ ∃ t, r = String.ofList [c] ++ t) : beforeFirst c (a ++ r) = a := by
  have hall : ∀ d ∈ a.toList, (d != c) = true := by
    intro d hd
    rw [bne_iff_ne]
    exact fun e => ha (e ▸ hd)
  apply String.toList_inj.mp
  unfold beforeFirst
  rw [String.toList_ofList, String.toList_append, List.takeWhile_append_of_pos hall]
  rcases hr with rfl | ⟨t, rfl⟩
  · simp
  · simp

/-- A text at its first `c`, or at its end. -/
theorem exists_append_first (c : Char) (s : String) :
    ∃ a r, s = a ++ r ∧ c ∉ a.toList ∧ (r = "" ∨ ∃ t, r = String.ofList [c] ++ t) := by
  by_cases hc : c ∈ s.toList
  · obtain ⟨a, b, e, ha⟩ := List.eq_append_cons_of_mem hc
    refine ⟨String.ofList a, String.ofList (c :: b), ?_, by simpa using ha, Or.inr ⟨String.ofList b, ?_⟩⟩
    · apply String.toList_inj.mp
      rw [e]
      simp
    · apply String.toList_inj.mp
      simp
  · exact ⟨s, "", by simp, hc, Or.inl rfl⟩

theorem startsWith_append (p t : String) : startsWith (p ++ t) p = true := (startsWith_iff _ p).mpr ⟨t, rfl⟩

end Afhttp.Text

import Mathlib

/-!
# `application/x-www-form-urlencoded`, read

The standard parser, over bytes: the parts between `&` that are not empty, each cut at its first `=`,
`+` for a space, `%` and two digits for a byte, the bytes read as UTF-8.  What stands for bytes that
are no UTF-8 is a parameter.

    what is written byte by byte is read back          (component_encode)
    ... pair by pair                                   (parse_joined)
-/

namespace FormUrlencoded

/-! ## The parser -/

def hexValue (b : UInt8) : Option ℕ :=
  if 0x30 ≤ b ∧ b ≤ 0x39 then some (b.toNat - 0x30)
  else if 0x41 ≤ b ∧ b ≤ 0x46 then some (b.toNat - 0x37)
  else if 0x61 ≤ b ∧ b ≤ 0x66 then some (b.toNat - 0x57)
  else none

def percentDecode : List UInt8 → List UInt8
  | [] => []
  | [b] => [b]
  | [b, c] => [b, c]
  | b :: h :: l :: rest =>
    if b = 0x25 then
      match hexValue h, hexValue l with
      | some hi, some lo => UInt8.ofNat (hi * 16 + lo) :: percentDecode rest
      | _, _ => b :: percentDecode (h :: l :: rest)
    else b :: percentDecode (h :: l :: rest)

def plusToSpace (bytes : List UInt8) : List UInt8 := bytes.map fun b => if b = 0x2B then 0x20 else b

/-- The bytes of a string. -/
def utf8 (s : String) : List UInt8 := s.toUTF8.toList

variable (lossy : List UInt8 → String)

def decodeUtf8 (bytes : List UInt8) : String := (String.fromUTF8? bytes.toByteArray).getD (lossy bytes)

/-- A name or a value. -/
def component (bytes : List UInt8) : String := decodeUtf8 lossy (percentDecode (plusToSpace bytes))

def pair (part : List UInt8) : String × String :=
  (component lossy (part.takeWhile (· ≠ 0x3D)), component lossy ((part.dropWhile (· ≠ 0x3D)).drop 1))

def parse (bytes : List UInt8) : List (String × String) :=
  ((bytes.splitOn 0x26).filter fun part => !part.isEmpty).map (pair lossy)

/-! ## A writer of one byte at a time -/

/-- Letters, digits and `-`, `_`, `.`, `~`. -/
def unreserved (b : UInt8) : Bool :=
  (0x41 ≤ b && b ≤ 0x5A) || (0x61 ≤ b && b ≤ 0x7A) || (0x30 ≤ b && b ≤ 0x39) ||
    b == 0x2D || b == 0x5F || b == 0x2E || b == 0x7E

def hexDigit (n : ℕ) : UInt8 := UInt8.ofNat (if n < 10 then 0x30 + n else 0x37 + n)

def encodeByte (b : UInt8) : List UInt8 :=
  if unreserved b then [b]
  else if b = 0x20 then [0x2B]
  else [0x25, hexDigit (b.toNat / 16), hexDigit (b.toNat % 16)]

/-! ## Strings and their bytes -/

theorem byteArray_toList (bytes : ByteArray) : bytes.toList = bytes.data.toList := by
  have hloop : ∀ (k i : ℕ) (r : List UInt8), bytes.size - i = k →
      ByteArray.toList.loop bytes i r = r.reverse ++ bytes.data.toList.drop i := by
    intro k
    induction k with
    | zero =>
      intro i r hk
      have hsize : bytes.data.toList.length ≤ i := by
        have hlen : bytes.data.toList.length = bytes.size := rfl
        omega
      rw [ByteArray.toList.loop, if_neg (by omega), List.drop_eq_nil_of_le hsize, List.append_nil]
    | succ k ih =>
      intro i r hk
      have hi : i < bytes.data.toList.length := by
        have hlen : bytes.data.toList.length = bytes.size := rfl
        omega
      have hget : bytes.get! i = bytes.data.toList[i] := getElem!_pos bytes.data i hi
      rw [ByteArray.toList.loop, if_pos (by omega), ih (i + 1) _ (by omega), List.reverse_cons, List.append_assoc,
        List.drop_eq_getElem_cons hi, hget]
      rfl
  exact hloop _ 0 [] rfl

theorem utf8_eq (s : String) : utf8 s = s.toByteArray.data.toList := byteArray_toList _

@[simp] theorem utf8_append (s t : String) : utf8 (s ++ t) = utf8 s ++ utf8 t := by
  rw [utf8_eq, utf8_eq, utf8_eq, String.toByteArray_append, ByteArray.toList_data_append]

/-- The bytes of its characters. -/
theorem utf8_eq_flatMap (s : String) : utf8 s = s.toList.flatMap String.utf8EncodeChar := by
  rw [utf8_eq, ← String.utf8Encode_toList, List.utf8Encode, List.toList_data_toByteArray]

theorem decodeUtf8_utf8 (s : String) : decodeUtf8 lossy (utf8 s) = s := by
  have hbytes : (utf8 s).toByteArray = s.toByteArray := by
    refine ByteArray.ext (Array.toList_inj.mp ?_)
    rw [List.toList_data_toByteArray, utf8_eq]
  rw [decodeUtf8, hbytes, String.fromUTF8?, dif_pos s.isValidUTF8]
  rfl

/-! ## Round trip -/

/-- A digit is read back, and is neither a separator nor a `+`. -/
theorem hexDigit_facts {n : ℕ} (h : n < 16) :
    hexValue (hexDigit n) = some n ∧ hexDigit n ≠ 0x26 ∧ hexDigit n ≠ 0x3D ∧ hexDigit n ≠ 0x2B := by
  have hall : ∀ n : Fin 16, hexValue (hexDigit n) = some n.val ∧ hexDigit n ≠ 0x26 ∧ hexDigit n ≠ 0x3D ∧
      hexDigit n ≠ 0x2B := by
    decide
  exact hall ⟨n, h⟩

theorem unreserved_ne {b c : UInt8} (hb : unreserved b = true) (hc : unreserved c = false) : b ≠ c := by
  rintro rfl
  rw [hc] at hb
  cases hb

/-- No separator is written for a byte. -/
theorem encodeByte_separators {b c : UInt8} (h : c ∈ encodeByte b) : c ≠ 0x26 ∧ c ≠ 0x3D := by
  unfold encodeByte at h
  by_cases hu : unreserved b = true
  · rw [if_pos hu, List.mem_singleton] at h
    rw [h]
    exact ⟨unreserved_ne hu (by decide), unreserved_ne hu (by decide)⟩
  · rw [if_neg hu] at h
    by_cases hspace : b = 0x20
    · rw [if_pos hspace, List.mem_singleton] at h
      rw [h]
      decide
    · have hb := b.toNat_lt
      obtain ⟨-, hhi, hhi', -⟩ := hexDigit_facts (n := b.toNat / 16) (by omega)
      obtain ⟨-, hlo, hlo', -⟩ := hexDigit_facts (n := b.toNat % 16) (by omega)
      rw [if_neg hspace] at h
      rcases List.mem_cons.mp h with rfl | h
      · decide
      · rcases List.mem_cons.mp h with rfl | h
        · exact ⟨hhi, hhi'⟩
        · rw [List.mem_singleton.mp h]
          exact ⟨hlo, hlo'⟩

theorem percentDecode_cons_of_ne {b : UInt8} (h : b ≠ 0x25) (rest : List UInt8) :
    percentDecode (b :: rest) = b :: percentDecode rest := by
  rcases rest with _ | ⟨c, _ | ⟨d, rest⟩⟩
  · rfl
  · rfl
  · rw [percentDecode, if_neg h]

theorem percentDecode_percent {hi lo : ℕ} {h l : UInt8} (hh : hexValue h = some hi) (hl : hexValue l = some lo)
    (rest : List UInt8) :
    percentDecode (0x25 :: h :: l :: rest) = UInt8.ofNat (hi * 16 + lo) :: percentDecode rest := by
  rw [percentDecode, if_pos rfl, hh, hl]

/-- **One byte.** -/
theorem decode_encodeByte (b : UInt8) (rest : List UInt8) :
    percentDecode (plusToSpace (encodeByte b) ++ rest) = b :: percentDecode rest := by
  unfold encodeByte
  by_cases hu : unreserved b = true
  · rw [if_pos hu, plusToSpace, List.map_singleton, if_neg (unreserved_ne hu (by decide))]
    exact percentDecode_cons_of_ne (unreserved_ne hu (by decide)) rest
  · rw [if_neg hu]
    by_cases hspace : b = 0x20
    · rw [if_pos hspace, hspace]
      exact percentDecode_cons_of_ne (by decide) rest
    · have hlt := b.toNat_lt
      obtain ⟨hhi, -, -, hhi'⟩ := hexDigit_facts (n := b.toNat / 16) (by omega)
      obtain ⟨hlo, -, -, hlo'⟩ := hexDigit_facts (n := b.toNat % 16) (by omega)
      rw [if_neg hspace, plusToSpace, List.map_cons, List.map_cons, List.map_singleton, if_neg (by decide),
        if_neg hhi', if_neg hlo']
      have hb : b.toNat / 16 * 16 + b.toNat % 16 = b.toNat := by omega
      rw [List.cons_append, List.cons_append, List.cons_append, List.nil_append, percentDecode_percent hhi hlo, hb,
        UInt8.ofNat_toNat]

theorem percentDecode_encode (bytes : List UInt8) :
    percentDecode (plusToSpace (bytes.flatMap encodeByte)) = bytes := by
  induction bytes with
  | nil => rfl
  | cons b bytes ih =>
    have hsplit : plusToSpace ((b :: bytes).flatMap encodeByte) =
        plusToSpace (encodeByte b) ++ plusToSpace (bytes.flatMap encodeByte) := by
      rw [List.flatMap_cons, plusToSpace, List.map_append]
      rfl
    rw [hsplit, decode_encodeByte, ih]

/-- A string as a name or a value. -/
def encode (s : String) : List UInt8 := (utf8 s).flatMap encodeByte

/-- **A name or a value.** -/
theorem component_encode (s : String) : component lossy (encode s) = s := by
  rw [component, encode, percentDecode_encode, decodeUtf8_utf8]

theorem encode_separators {s : String} {c : UInt8} (h : c ∈ encode s) : c ≠ 0x26 ∧ c ≠ 0x3D := by
  obtain ⟨b, -, hc⟩ := List.mem_flatMap.mp h
  exact encodeByte_separators hc

/-- A pair as it is written. -/
def encodePair (p : String × String) : List UInt8 := encode p.1 ++ 0x3D :: encode p.2

theorem pair_encodePair (p : String × String) : pair lossy (encodePair p) = p := by
  have hname : ∀ c ∈ encode p.1, decide (c ≠ 0x3D) = true := fun c hc => decide_eq_true (encode_separators hc).2
  unfold pair encodePair
  rw [List.takeWhile_append_of_pos hname, List.dropWhile_append_of_pos hname, List.takeWhile_cons_of_neg (by decide),
    List.dropWhile_cons_of_neg (by decide), List.append_nil, List.drop_one, List.tail_cons, component_encode,
    component_encode]

/-- **The pairs**, with `&` in between. -/
theorem parse_joined {pairs : List (String × String)} (h : pairs ≠ []) :
    parse lossy ([0x26].intercalate (pairs.map encodePair)) = pairs := by
  have hsplit : ([0x26].intercalate (pairs.map encodePair)).splitOn 0x26 = pairs.map encodePair := by
    refine List.splitOn_intercalate _ ?_ ?_
    · intro part hpart hin
      obtain ⟨p, -, rfl⟩ := List.mem_map.mp hpart
      rcases List.mem_append.mp hin with hin | hin
      · exact (encode_separators hin).1 rfl
      · rcases List.mem_cons.mp hin with hin | hin
        · exact absurd hin (by decide)
        · exact (encode_separators hin).1 rfl
    · simpa using h
  have hfull : ∀ part ∈ pairs.map encodePair, (!part.isEmpty) = true := by
    intro part hpart
    obtain ⟨p, -, rfl⟩ := List.mem_map.mp hpart
    simp [encodePair]
  rw [parse, hsplit, List.filter_eq_self.mpr hfull, List.map_map]
  exact List.map_id'' (pair_encodePair lossy) pairs

end FormUrlencoded

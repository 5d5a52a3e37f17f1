import Mathlib

/-!
# Base64

The standard alphabet with padding.  The decoder takes canonical text only: groups of four digits, no
bits behind the last byte.

    every digit is read back                  (value_digit)
    every list of bytes is                    (decode_encode)
-/

namespace Base64

def digit (n : ℕ) : Char :=
  if n < 26 then Char.ofNat (65 + n)
  else if n < 52 then Char.ofNat (71 + n)
  else if n < 62 then Char.ofNat (n - 4)
  else if n = 62 then '+' else '/'

def value (c : Char) : Option ℕ :=
  if 65 ≤ c.toNat ∧ c.toNat ≤ 90 then some (c.toNat - 65)
  else if 97 ≤ c.toNat ∧ c.toNat ≤ 122 then some (c.toNat - 71)
  else if 48 ≤ c.toNat ∧ c.toNat ≤ 57 then some (c.toNat + 4)
  else if c = '+' then some 62
  else if c = '/' then some 63
  else none

def encodeChars : List UInt8 → List Char
  | [] => []
  | [a] => [digit (a.toNat / 4), digit (a.toNat % 4 * 16), '=', '=']
  | [a, b] => [digit (a.toNat / 4), digit (a.toNat % 4 * 16 + b.toNat / 16), digit (b.toNat % 16 * 4), '=']
  | a :: b :: c :: rest =>
    digit (a.toNat / 4) :: digit (a.toNat % 4 * 16 + b.toNat / 16) ::
      digit (b.toNat % 16 * 4 + c.toNat / 64) :: digit (c.toNat % 64) :: encodeChars rest

def encode (bytes : List UInt8) : String := String.ofList (encodeChars bytes)

def byte (n : ℕ) : UInt8 := UInt8.ofNat (n % 256)

/-- One byte from two digits. -/
def decodeOne (w x : ℕ) : Option (List UInt8) :=
  if x % 16 = 0 then some [byte (w * 4 + x / 16)] else none

/-- Two bytes from three. -/
def decodeTwo (w x y : ℕ) : Option (List UInt8) :=
  if y % 4 = 0 then some [byte (w * 4 + x / 16), byte (x * 16 + y / 4)] else none

/-- Three bytes from four. -/
def decodeThree (w x y z : ℕ) : List UInt8 := [byte (w * 4 + x / 16), byte (x * 16 + y / 4), byte (y * 64 + z)]

def decodeChars : List Char → Option (List UInt8)
  | [] => some []
  | w :: x :: y :: z :: rest =>
    (value w).bind fun w => (value x).bind fun x =>
      if y = '=' ∧ z = '=' ∧ rest = [] then decodeOne w x
      else
        (value y).bind fun y =>
          if z = '=' ∧ rest = [] then decodeTwo w x y
          else (value z).bind fun z => (decodeChars rest).map (decodeThree w x y z ++ ·)
  | _ => none

def decode (text : String) : Option (List UInt8) := decodeChars text.toList

/-! ## Round trip -/

theorem value_digit {n : ℕ} (h : n < 64) : value (digit n) = some n := by
  have hall : ∀ n : Fin 64, value (digit n) = some n.val := by decide
  exact hall ⟨n, h⟩

theorem digit_ne {n : ℕ} (h : n < 64) : digit n ≠ '=' := by
  have hall : ∀ n : Fin 64, digit n ≠ '=' := by decide
  exact hall ⟨n, h⟩

theorem byte_toNat (b : UInt8) {n : ℕ} (h : n % 256 = b.toNat) : byte n = b := by
  rw [byte, h, UInt8.ofNat_toNat]

theorem decodeChars_encodeChars (bytes : List UInt8) : decodeChars (encodeChars bytes) = some bytes := by
  induction bytes using encodeChars.induct with
  | case1 => rfl
  | case2 a =>
    have ha : a.toNat < 256 := a.toNat_lt
    rw [encodeChars, decodeChars, value_digit (by omega), value_digit (by omega), Option.bind_some,
      Option.bind_some, if_pos ⟨rfl, rfl, rfl⟩, decodeOne, if_pos (by omega), byte_toNat a (by omega)]
  | case3 a b =>
    have ha : a.toNat < 256 := a.toNat_lt
    have hb : b.toNat < 256 := b.toNat_lt
    rw [encodeChars, decodeChars, value_digit (by omega), value_digit (by omega), Option.bind_some,
      Option.bind_some, if_neg fun h => digit_ne (by omega) h.1, value_digit (by omega), Option.bind_some,
      if_pos ⟨rfl, rfl⟩, decodeTwo, if_pos (by omega), byte_toNat a (by omega), byte_toNat b (by omega)]
  | case4 a b c rest ih =>
    have ha : a.toNat < 256 := a.toNat_lt
    have hb : b.toNat < 256 := b.toNat_lt
    have hc : c.toNat < 256 := c.toNat_lt
    rw [encodeChars, decodeChars, value_digit (by omega), value_digit (by omega), Option.bind_some,
      Option.bind_some, if_neg fun h => digit_ne (by omega) h.1, value_digit (by omega), Option.bind_some,
      if_neg fun h => digit_ne (by omega) h.1, value_digit (by omega), Option.bind_some, ih, Option.map_some,
      decodeThree, byte_toNat a (by omega), byte_toNat b (by omega), byte_toNat c (by omega)]
    rfl

/-- **Round trip.** -/
theorem decode_encode (bytes : List UInt8) : decode (encode bytes) = some bytes := by
  rw [decode, encode, String.toList_ofList]
  exact decodeChars_encodeChars bytes

end Base64

import Mathlib
import Afhttp.Lib.Base64
import Afhttp.Lib.FormUrlencoded
import Afhttp.Fetch.Intercept

/-!
# A form's body

What `post_data_b64` of `sdk/fetch/pipeline/browser/navigate.rs` makes of a form is what the standard
parser reads back, pair by pair.

    urlencodingSimple writes a string byte by byte          (utf8_urlencodingSimple)
    the form that is sent is the form that was given        (postDataB64_roundTrip)
-/

namespace Afhttp.Fetch

open FormUrlencoded

/-- What `urlencodingSimple` writes for a byte. -/
def escapedByte (b : UInt8) : String :=
  let c := Char.ofNat b.toNat
  if b.toNat < 128 && (c.isAlphanum || c == '-' || c == '_' || c == '.' || c == '~') then c.toString
  else if c == ' ' then "+"
  else "%" ++ hexByte b

/-- Its characters. -/
def escapedChars (b : UInt8) : List Char :=
  let digit := fun n : ℕ => if n < 10 then Char.ofNat (48 + n) else Char.ofNat (55 + n)
  let c := Char.ofNat b.toNat
  if b.toNat < 128 && (c.isAlphanum || c == '-' || c == '_' || c == '.' || c == '~') then [c]
  else if c == ' ' then ['+']
  else ['%', digit (b.toNat / 16), digit (b.toNat % 16)]

theorem toList_escapedByte (b : UInt8) : (escapedByte b).toList = escapedChars b := by
  unfold escapedByte escapedChars
  dsimp only
  split
  · exact String.toList_singleton _
  · split
    · rfl
    · rw [String.toList_append]
      unfold hexByte
      dsimp only
      rw [String.toList_ofList, String.toList_ofList]
      rfl

/-- **One byte**, as the writer of the standard format has it. -/
theorem utf8_escapedByte (b : UInt8) : utf8 (escapedByte b) = encodeByte b := by
  have hall : ∀ n : Fin 256,
      (escapedChars (UInt8.ofNat n.val)).flatMap String.utf8EncodeChar = encodeByte (UInt8.ofNat n.val) := by
    decide +kernel
  have hb := hall ⟨b.toNat, b.toNat_lt⟩
  rw [UInt8.ofNat_toNat] at hb
  rw [utf8_eq_flatMap, toList_escapedByte, hb]

theorem utf8_join (l : List String) : utf8 (String.join l) = l.flatMap utf8 := by
  rw [utf8_eq_flatMap, String.toList_join, List.flatMap_assoc]
  congr 1
  funext s
  exact (utf8_eq_flatMap s).symm

theorem utf8_urlencodingSimple (s : String) : utf8 (urlencodingSimple s) = encode s := by
  show utf8 (String.join ((utf8 s).map escapedByte)) = _
  rw [utf8_join, List.flatMap_map, encode]
  congr 1
  funext b
  exact utf8_escapedByte b

theorem utf8_intercalate (parts : List String) :
    utf8 ("&".intercalate parts) = [0x26].intercalate (parts.map utf8) := by
  induction parts with
  | nil => exact utf8_eq _
  | cons s parts ih =>
    cases parts with
    | nil =>
      rw [String.intercalate_singleton, List.map_singleton, List.intercalate_singleton]
    | cons t parts =>
      have hamp : utf8 "&" = [0x26] := utf8_eq _
      rw [String.intercalate_cons_cons, utf8_append, utf8_append, ih, hamp, List.map_cons, List.map_cons,
        List.map_cons, List.intercalate_cons_cons, List.append_assoc]

theorem utf8_pair (p : String × String) :
    utf8 (urlencodingSimple p.1 ++ "=" ++ urlencodingSimple p.2) = encodePair p := by
  have heq : utf8 "=" = [0x3D] := utf8_eq _
  rw [utf8_append, utf8_append, utf8_urlencodingSimple, utf8_urlencodingSimple, heq, List.append_assoc]
  rfl

/-- **The form that is sent** is the one that was given, whatever stands for bytes that are no UTF-8. -/
theorem postDataB64_roundTrip {lib : NavigateLib} (hlib : ∀ bytes, lib.base64 bytes = Base64.encode bytes)
    (lossy : List UInt8 → String) {fields : List (String × String)} (h : fields ≠ []) :
    ((postDataB64 lib (.form fields)).bind Base64.decode).map (parse lossy) = some fields := by
  show (Base64.decode (lib.base64 (utf8 ("&".intercalate (fields.map fun p =>
    urlencodingSimple p.1 ++ "=" ++ urlencodingSimple p.2))))).map (parse lossy) = some fields
  have hparts : (fields.map fun p => urlencodingSimple p.1 ++ "=" ++ urlencodingSimple p.2).map utf8 =
      fields.map encodePair := by
    rw [List.map_map]
    exact List.map_congr_left fun p _ => utf8_pair p
  rw [hlib, Base64.decode_encode, Option.map_some, utf8_intercalate, hparts, parse_joined lossy h]

/-- Reserved characters, a line break and a name without characters. -/
theorem postDataB64_roundTrip_reserved :
    [("a b&c", "=+%\n"), ("", "é")] ≠ [] ∧
      ((postDataB64 { siteLib with base64 := Base64.encode } (.form [("a b&c", "=+%\n"), ("", "é")])).bind
        Base64.decode).map (parse fun _ => "") = some [("a b&c", "=+%\n"), ("", "é")] :=
  ⟨by decide, postDataB64_roundTrip (fun _ => rfl) _ (by decide)⟩

end Afhttp.Fetch

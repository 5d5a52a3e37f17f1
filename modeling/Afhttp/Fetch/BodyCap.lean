import Mathlib
import Afhttp.Shared.Error

/-!
# The cap on a body

`read_body_with_cap` of `sdk/fetch/pipeline/http_only.rs`, on a 64-bit target.  The chunks are what
`Response::chunk` gives one after the other; reading the next one may fail.  A subtraction that would
underflow has no result (`none`).

    the room that is left is what the cap has left of the bytes so far          (readLoop_eq)
    a body read is its first bytes, and cut if there are more          (readBodyWithCap_eq)
-/

namespace Afhttp.Fetch

/-- `Response::chunk`, call by call. -/
abbrev Chunks := List (Except String (List UInt8))

def bodyError (e : String) : Error := .new .ioError s!"HTTP body: {e}"

/-- `usize::try_from(cap).unwrap_or(usize::MAX)`. -/
def capUsize (cap : UInt64) : ℕ := min cap.toNat (2 ^ 64 - 1)

/-- `cap_usize - buf.len()`. -/
def remainingRoom (cap : UInt64) (buf : List UInt8) : Option ℕ :=
  if buf.length ≤ capUsize cap then some (capUsize cap - buf.length) else none

/-- The loop, with what it has read so far. -/
def readLoop (cap : UInt64) (buf : List UInt8) : Chunks → Option (Except Error (List UInt8 × Option UInt64))
  | [] => some (.ok (buf, none))
  | .error e :: _ => some (.error (bodyError e))
  | .ok chunk :: rest =>
    (remainingRoom cap buf).bind fun room =>
      if room < chunk.length then some (.ok (buf ++ chunk.take room, some cap))
      else readLoop cap (buf ++ chunk) rest

/-- `Response::bytes`. -/
def bodyBytes : Chunks → Except Error (List UInt8)
  | [] => .ok []
  | .error e :: _ => .error (bodyError e)
  | .ok chunk :: rest => (bodyBytes rest).map (chunk ++ ·)

def readBodyWithCap (chunks : Chunks) (cap : UInt64) : Option (Except Error (List UInt8 × Option UInt64)) :=
  if cap = 0 then some ((bodyBytes chunks).map (·, none)) else readLoop cap [] chunks

/-! ## What is read -/

theorem capUsize_eq (cap : UInt64) : capUsize cap = cap.toNat := by
  have hlt : cap.toNat < 2 ^ 64 := cap.toNat_lt
  unfold capUsize
  omega

theorem remainingRoom_eq {cap : UInt64} {buf : List UInt8} (h : buf.length ≤ cap.toNat) :
    remainingRoom cap buf = some (cap.toNat - buf.length) := by
  unfold remainingRoom
  rw [capUsize_eq, if_pos h]

/-- The first bytes of the body, and the cap if that is not all. -/
def capped (cap : UInt64) (body : List UInt8) : List UInt8 × Option UInt64 :=
  (body.take cap.toNat, if cap.toNat < body.length then some cap else none)

/-- The loop gives the capped body, whatever it has read of it. -/
theorem readLoop_eq {cap : UInt64} (chunks : List (List UInt8)) : ∀ buf : List UInt8, buf.length ≤ cap.toNat →
    readLoop cap buf (chunks.map .ok) = some (.ok (capped cap (buf ++ chunks.flatten))) := by
  induction chunks with
  | nil =>
    intro buf hbuf
    show some (Except.ok (buf, none)) = some (.ok (capped cap (buf ++ [])))
    unfold capped
    rw [List.append_nil, List.take_of_length_le hbuf, if_neg (by omega)]
  | cons chunk chunks ih =>
    intro buf hbuf
    show ((remainingRoom cap buf).bind fun room =>
      if room < chunk.length then some (.ok (buf ++ chunk.take room, some cap))
      else readLoop cap (buf ++ chunk) (chunks.map .ok)) = _
    rw [remainingRoom_eq hbuf, Option.bind_some, List.flatten_cons]
    by_cases hroom : cap.toNat - buf.length < chunk.length
    · -- the cap falls into this chunk, and what follows is not read
      have htake : (buf ++ (chunk ++ chunks.flatten)).take cap.toNat =
          buf ++ chunk.take (cap.toNat - buf.length) := by
        rw [List.take_append, List.take_of_length_le hbuf, List.take_append_of_le_length (by omega)]
      have hmore : cap.toNat < (buf ++ (chunk ++ chunks.flatten)).length := by
        rw [List.length_append, List.length_append]
        omega
      rw [if_pos hroom, capped, htake, if_pos hmore]
    · have hfits : (buf ++ chunk).length ≤ cap.toNat := by
        rw [List.length_append]
        omega
      rw [if_neg hroom, ih (buf ++ chunk) hfits, List.append_assoc]

/-- An error is met only if the cap has not been exceeded before it. -/
theorem readLoop_error {cap : UInt64} (chunks : List (List UInt8)) (e : String) (rest : Chunks) :
    ∀ buf : List UInt8, buf.length ≤ cap.toNat →
      readLoop cap buf (chunks.map .ok ++ .error e :: rest) =
        some (if cap.toNat < (buf ++ chunks.flatten).length then .ok (capped cap (buf ++ chunks.flatten))
          else .error (bodyError e)) := by
  induction chunks with
  | nil =>
    intro buf hbuf
    rw [List.flatten_nil, List.append_nil, if_neg (by omega)]
    rfl
  | cons chunk chunks ih =>
    intro buf hbuf
    show ((remainingRoom cap buf).bind fun room =>
      if room < chunk.length then some (.ok (buf ++ chunk.take room, some cap))
      else readLoop cap (buf ++ chunk) (chunks.map .ok ++ .error e :: rest)) = _
    rw [remainingRoom_eq hbuf, Option.bind_some, List.flatten_cons]
    by_cases hroom : cap.toNat - buf.length < chunk.length
    · have hmore : cap.toNat < (buf ++ (chunk ++ chunks.flatten)).length := by
        rw [List.length_append, List.length_append]
        omega
      rw [if_pos hroom, if_pos hmore, capped, if_pos hmore, List.take_append, List.take_of_length_le hbuf,
        List.take_append_of_le_length (by omega)]
    · have hfits : (buf ++ chunk).length ≤ cap.toNat := by
        rw [List.length_append]
        omega
      rw [if_neg hroom, ih (buf ++ chunk) hfits, List.append_assoc]

/-- **The cap.**  A body is read to its first `cap` bytes, and reported as cut exactly if there are
more, however it comes in chunks. -/
theorem readBodyWithCap_eq (chunks : List (List UInt8)) {cap : UInt64} (hcap : 0 < cap) :
    readBodyWithCap (chunks.map .ok) cap =
      some (.ok (chunks.flatten.take (min cap.toNat chunks.flatten.length),
        if cap.toNat < chunks.flatten.length then some cap else none)) := by
  have hne : cap ≠ 0 := (UInt64.ne_of_lt hcap).symm
  have htake : chunks.flatten.take (min cap.toNat chunks.flatten.length) = chunks.flatten.take cap.toNat := by
    rw [← List.take_take, List.take_length]
  rw [readBodyWithCap, if_neg hne, readLoop_eq chunks [] (Nat.zero_le _), htake]
  rfl

/-- The cap where a chunk ends, and an empty chunk behind it. -/
theorem readBodyWithCap_eq_four : (0 : UInt64) < 4 ∧
    readBodyWithCap ([[97, 98], [], [99, 100], []].map .ok) 4 = some (.ok ([97, 98, 99, 100], none)) :=
  ⟨by decide, readBodyWithCap_eq [[97, 98], [], [99, 100], []] (by decide)⟩

end Afhttp.Fetch

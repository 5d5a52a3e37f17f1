import Mathlib.Data.List.Basic

/-!
# Broadcast channels with a bounded buffer

A channel keeps the last `cap` of the values that were sent.  A receiver is a position: it starts
at the end of what was sent so far, and reads on from where it is.  One that is further behind
than the buffer reaches is told how many values it lost, and goes on with the oldest that is kept.

`Holds cap c sent` says that `c` stands for the list `sent` of all values.

    a value read is the one at the receiver's position            (Holds.recv_value)
    one that is behind by `cap` or less never loses a value       (Holds.recv_lagged)
    ... and it reads all of them, one a call                      (Holds.recv_of_lt)
-/

namespace Broadcast

variable {α : Type*}

structure Channel (α : Type*) where
  buffer : List α
  /-- How many values were sent. -/
  tail : ℕ
  closed : Bool

inductive Received (α : Type*) where
  | value (a : α)
  | lagged (lost : ℕ)
  /-- Nothing new; the receiver waits. -/
  | empty
  | closed

namespace Channel

def new : Channel α := ⟨[], 0, false⟩

def send (cap : ℕ) (c : Channel α) (a : α) : Channel α :=
  { c with buffer := (c.buffer ++ [a]).drop (c.buffer.length + 1 - cap), tail := c.tail + 1 }

/-- `Receiver::recv`, with the receiver's next position. -/
def recv (c : Channel α) (pos : ℕ) : Received α × ℕ :=
  let first := c.tail - c.buffer.length
  if c.tail ≤ pos then (if c.closed then .closed else .empty, pos)
  else if pos < first then (.lagged (first - pos), first)
  else
    match c.buffer[pos - first]? with
    | some a => (.value a, pos + 1)
    | none => (.empty, pos)

end Channel

/-- The channel after the values `sent`. -/
structure Holds (cap : ℕ) (c : Channel α) (sent : List α) : Prop where
  tail : c.tail = sent.length
  buffer : c.buffer = sent.drop (sent.length - cap)

variable {cap : ℕ} {c : Channel α} {sent : List α}

theorem Holds.new : Holds cap (Channel.new : Channel α) [] := ⟨rfl, by simp [Channel.new]⟩

theorem Holds.send (h : Holds cap c sent) (a : α) : Holds cap (c.send cap a) (sent ++ [a]) := by
  constructor
  · show c.tail + 1 = _
    rw [h.tail, List.length_append, List.length_singleton]
  · show (c.buffer ++ [a]).drop (c.buffer.length + 1 - cap) = _
    rw [h.buffer, List.length_drop, List.length_append, List.length_singleton]
    rw [← List.drop_append_of_le_length (Nat.sub_le _ _), List.drop_drop]
    congr 1
    omega

theorem Holds.close (h : Holds cap c sent) : Holds cap { c with closed := true } sent := ⟨h.tail, h.buffer⟩

/-- The oldest value that is kept. -/
theorem Holds.first (h : Holds cap c sent) : c.tail - c.buffer.length = sent.length - cap := by
  rw [h.tail, h.buffer, List.length_drop]
  omega

/-- **A receiver within the buffer reads the next value.** -/
theorem Holds.recv_of_lt (h : Holds cap c sent) {pos : ℕ} (hpos : pos < sent.length)
    (hcap : sent.length ≤ pos + cap) : c.recv pos = (.value sent[pos], pos + 1) := by
  have hfirst := h.first
  have hget : c.buffer[pos - (sent.length - cap)]? = some sent[pos] := by
    rw [h.buffer, List.getElem?_drop, Nat.add_sub_cancel' (by omega), List.getElem?_eq_getElem hpos]
  unfold Channel.recv
  rw [if_neg (by rw [h.tail]; omega), hfirst, if_neg (by omega), hget]

theorem Holds.recv_of_le (h : Holds cap c sent) {pos : ℕ} (hpos : sent.length ≤ pos) :
    c.recv pos = (if c.closed then .closed else .empty, pos) := by
  unfold Channel.recv
  rw [if_pos (by rw [h.tail]; exact hpos)]

theorem Holds.recv_of_behind (h : Holds cap c sent) {pos : ℕ} (hcap : pos + cap < sent.length) :
    c.recv pos = (.lagged (sent.length - cap - pos), sent.length - cap) := by
  unfold Channel.recv
  rw [if_neg (by rw [h.tail]; omega), h.first, if_pos (by omega)]

/-- What a call can give. -/
theorem Holds.recv_cases (h : Holds cap c sent) (pos : ℕ) :
    sent.length ≤ pos ∧ c.recv pos = (if c.closed then .closed else .empty, pos) ∨
      (∃ hpos : pos < sent.length, sent.length ≤ pos + cap ∧ c.recv pos = (.value sent[pos], pos + 1)) ∨
      pos + cap < sent.length ∧ c.recv pos = (.lagged (sent.length - cap - pos), sent.length - cap) := by
  by_cases hpos : pos < sent.length
  · by_cases hcap : sent.length ≤ pos + cap
    · exact .inr (.inl ⟨hpos, hcap, h.recv_of_lt hpos hcap⟩)
    · exact .inr (.inr ⟨by omega, h.recv_of_behind (by omega)⟩)
  · exact .inl ⟨by omega, h.recv_of_le (by omega)⟩

/-- A receiver never goes back. -/
theorem Holds.le_recv (h : Holds cap c sent) (pos : ℕ) : pos ≤ (c.recv pos).2 := by
  rcases h.recv_cases pos with ⟨-, heq⟩ | ⟨_, -, heq⟩ | ⟨hbehind, heq⟩
  · exact Nat.le_of_eq (congrArg Prod.snd heq).symm
  · rw [heq]
    exact Nat.le_succ pos
  · rw [heq]
    show pos ≤ sent.length - cap
    omega

/-- A value that is read was sent, at the receiver's position. -/
theorem Holds.recv_value (h : Holds cap c sent) {pos next : ℕ} {a : α} (hrecv : c.recv pos = (.value a, next)) :
    sent[pos]? = some a ∧ next = pos + 1 := by
  rcases h.recv_cases pos with ⟨-, heq⟩ | ⟨hpos, -, heq⟩ | ⟨-, heq⟩
  · rw [heq] at hrecv
    split at hrecv <;> cases hrecv
  · rw [heq] at hrecv
    cases hrecv
    exact ⟨List.getElem?_eq_getElem hpos, rfl⟩
  · rw [heq] at hrecv
    cases hrecv

/-- Only a receiver that is behind by more than the buffer loses values. -/
theorem Holds.recv_lagged (h : Holds cap c sent) {pos next n : ℕ} (hrecv : c.recv pos = (.lagged n, next)) :
    pos + cap < sent.length := by
  rcases h.recv_cases pos with ⟨-, heq⟩ | ⟨_, -, heq⟩ | ⟨hbehind, -⟩
  · rw [heq] at hrecv
    split at hrecv <;> cases hrecv
  · rw [heq] at hrecv
    cases hrecv
  · exact hbehind

end Broadcast

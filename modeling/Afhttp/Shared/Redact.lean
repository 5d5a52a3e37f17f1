import Afhttp.Shared.Text
import Mathlib

/-!
# Passwords in text

`redact_userinfo_passwords` of `shared/redact.rs`.  The scanner looks for `://`, masks the
authority behind it and goes on after that authority.  Against it stands `masked`: every piece
between two separators, its password ended by the last `@`.

    what is between the separators gives the text back         (join_pieces)
    the scanner, piece by piece                                (redactLoop_eq)
    when it masks what it should                               (redact_exact_iff)

The two differ in two ways.  The scanner ends the password at the first `@`, so the rest of a
password that contains one stays.  And an authority takes the `:` of the separator that ends it,
so the piece behind that separator is not looked at.
-/

namespace Afhttp.Redact

open Text

/-! ## The scanner -/

/-- `rest.find("://")`. -/
def findSeparator : List Char → Option Nat
  | [] => none
  | ':' :: '/' :: '/' :: _ => some 0
  | _ :: rest => (findSeparator rest).map (· + 1)

/-- What ends an authority. -/
def endsAuthority (c : Char) : Bool := c == '/' || c == '?' || c == '#' || isWhitespace c

/-- `&after[..auth_end]`. -/
def authority (after : List Char) : List Char := after.takeWhile fun c => !endsAuthority c

/-- `&after[auth_end..]`. -/
def afterAuthority (after : List Char) : List Char := after.dropWhile fun c => !endsAuthority c

/-- What the scanner writes for an authority. -/
def maskAuthority (authority : List Char) : List Char :=
  match authority.idxOf? '@', authority.idxOf? ':' with
  | some at_, some colon =>
    if colon < at_ then authority.take colon ++ ":***".toList ++ authority.drop at_ else authority
  | _, _ => authority

/-- The `while` loop.  Each turn takes at least the separator from `rest`, so the length of the
text bounds the turns. -/
def redactLoop : Nat → List Char → List Char
  | 0, rest => rest
  | turns + 1, rest =>
    match findSeparator rest with
    | none => rest
    | some pos =>
      rest.take (pos + 3) ++ maskAuthority (authority (rest.drop (pos + 3))) ++
        redactLoop turns (afterAuthority (rest.drop (pos + 3)))

def redactUserinfoPasswords (line : String) : String :=
  String.ofList (redactLoop line.toList.length line.toList)

/-! ## What is to be masked -/

/-- The text between one `://` and the next. -/
def pieces : List Char → List (List Char)
  | [] => [[]]
  | ':' :: '/' :: '/' :: rest => [] :: pieces rest
  | c :: rest =>
    match pieces rest with
    | [] => [[c]]
    | p :: ps => (c :: p) :: ps

def separator : List Char := [':', '/', '/']

/-- The pieces with the separators between them. -/
def join : List (List Char) → List Char
  | [] => []
  | p :: ps => p ++ ps.flatMap (separator ++ ·)

/-- What stands behind the last `@`, or everything. -/
def host (authority : List Char) : List Char := (authority.reverse.takeWhile (· != '@')).reverse

/-- What stands before the last `@`. -/
def userinfo (authority : List Char) : Option (List Char) :=
  if '@' ∈ authority then some (authority.take (authority.length - (host authority).length - 1)) else none

/-- `user:***@host`, where there is a password. -/
def hidePassword (authority : List Char) : List Char :=
  match userinfo authority with
  | some u => if ':' ∈ u then u.takeWhile (· != ':') ++ ":***".toList ++ '@' :: host authority else authority
  | none => authority

/-- A piece with its authority changed.  Where the piece does not end its authority, the authority
goes on to the `:` of the separator behind it, and ends there. -/
def onAuthority (f : List Char → List Char) (piece : List Char) : List Char :=
  f (authority piece) ++ afterAuthority piece

/-- The text with the password of each authority behind a `://` masked. -/
def masked (text : String) : String :=
  match pieces text.toList with
  | [] => text
  | p :: ps => String.ofList (join (p :: ps.map (onAuthority hidePassword)))

/-! ## Where the scanner does the same -/

/-- What the scanner needs of an authority: a password that is `***` already, or one without
an `@` in an authority that it looks at. -/
def Plain (found : Bool) (authority : List Char) : Prop :=
  ∀ u ∈ userinfo authority, ':' ∈ u →
    u.dropWhile (· != ':') = ":***".toList ∨ (found = true ∧ '@' ∉ u)

/-- The scanner finds the separator before a piece unless it found the one before that and the
piece in between does not end its authority. -/
def AllPlain : Bool → List (List Char) → Prop
  | _, [] => True
  | found, p :: ps => Plain found (authority p) ∧ AllPlain (!found || p.any endsAuthority) ps

instance (found : Bool) (a : List Char) : Decidable (Plain found a) :=
  inferInstanceAs (Decidable (∀ u ∈ userinfo a, _))

instance decidableAllPlain : ∀ found ps, Decidable (AllPlain found ps)
  | _, [] => isTrue trivial
  | found, p :: ps =>
    have : Decidable (AllPlain (!found || p.any endsAuthority) ps) := decidableAllPlain _ ps
    inferInstanceAs (Decidable (_ ∧ _))

/-! ## Pieces -/

/-- No two occurrences of the separator overlap. -/
theorem not_separator_prefix_append {p : List Char} {c : Char} (t : List Char)
    (h : ¬ separator <+: c :: p) : ¬ separator <+: c :: (p ++ (separator ++ t)) := by
  intro hs
  match p, h, hs with
  | [], _, hs => simp [separator] at hs
  | [d], h, hs => simp [separator] at hs
  | d :: e :: p, h, hs =>
    apply h
    simp only [separator, List.cons_append, List.cons_prefix_cons] at hs ⊢
    exact ⟨hs.1, hs.2.1, hs.2.2.1, List.nil_prefix⟩

theorem findSeparator_cons (c : Char) (s : List Char) :
    findSeparator (c :: s) = if separator <+: c :: s then some 0 else (findSeparator s).map (· + 1) := by
  by_cases h : separator <+: c :: s
  · rw [if_pos h]
    obtain ⟨t, ht⟩ := h
    rw [← ht]
    rfl
  · rw [if_neg h]
    conv_lhs => unfold findSeparator
    split
    · next e => simp at e
    · next t e => exact absurd ⟨t, e.symm⟩ h
    · next e =>
      obtain ⟨rfl, rfl⟩ := List.cons.inj e
      rfl

theorem pieces_cons (c : Char) (s : List Char) (h : ¬ separator <+: c :: s) :
    pieces (c :: s) = match pieces s with
      | [] => [[c]]
      | p :: ps => (c :: p) :: ps := by
  conv_lhs => unfold pieces
  split
  · next e => simp at e
  · next t e => exact absurd ⟨t, e.symm⟩ h
  · next e =>
    obtain ⟨rfl, rfl⟩ := List.cons.inj e
    rfl

theorem free_cons {c : Char} {s : List Char} (h : findSeparator (c :: s) = none) :
    ¬ separator <+: c :: s ∧ findSeparator s = none := by
  rw [findSeparator_cons] at h
  split at h
  · cases h
  · next hs => exact ⟨hs, Option.map_eq_none_iff.mp h⟩

theorem pieces_of_free {p : List Char} (h : findSeparator p = none) : pieces p = [p] := by
  induction p with
  | nil => rfl
  | cons c p ih =>
    obtain ⟨hc, hp⟩ := free_cons h
    rw [pieces_cons c p hc, ih hp]

theorem pieces_append {p : List Char} (t : List Char) (h : findSeparator p = none) :
    pieces (p ++ (separator ++ t)) = p :: pieces t := by
  induction p with
  | nil => rfl
  | cons c p ih =>
    obtain ⟨hc, hp⟩ := free_cons h
    rw [List.cons_append, pieces_cons _ _ (not_separator_prefix_append t hc), ih hp]

theorem findSeparator_append {p : List Char} (t : List Char) (h : findSeparator p = none) :
    findSeparator (p ++ (separator ++ t)) = some p.length := by
  induction p with
  | nil => rfl
  | cons c p ih =>
    obtain ⟨hc, hp⟩ := free_cons h
    rw [List.cons_append, findSeparator_cons, if_neg (not_separator_prefix_append t hc), ih hp]
    rfl

/-- The pieces hold no separator, and give the text back. -/
theorem pieces_spec (s : List Char) :
    ∃ p ps, pieces s = p :: ps ∧ s = join (p :: ps) ∧ ∀ q ∈ p :: ps, findSeparator q = none := by
  induction hn : s.length using Nat.strong_induction_on generalizing s with
  | _ n ih =>
    match s with
    | [] => exact ⟨[], [], rfl, rfl, by simp [findSeparator]⟩
    | c :: r =>
      by_cases hs : separator <+: c :: r
      · obtain ⟨t, ht⟩ := hs
        have hlt : t.length < n := by
          rw [← hn, ← ht]
          simp only [separator, List.length_append, List.length_cons, List.length_nil]
          omega
        obtain ⟨p, ps, hp, hj, hfree⟩ := ih t.length hlt t rfl
        refine ⟨[], p :: ps, ?_, ?_, ?_⟩
        · rw [← ht, ← hp]
          exact pieces_append t (p := []) rfl
        · rw [← ht, hj]
          simp [join]
        · intro q hq
          rcases List.mem_cons.mp hq with rfl | hq
          · rfl
          · exact hfree q hq
      · have hlt : r.length < n := by
          rw [← hn]
          simp
        obtain ⟨p, ps, hp, hj, hfree⟩ := ih r.length hlt r rfl
        refine ⟨c :: p, ps, ?_, ?_, ?_⟩
        · rw [pieces_cons c r hs, hp]
        · rw [hj]
          rfl
        · intro q hq
          rcases List.mem_cons.mp hq with rfl | hq
          · rw [findSeparator_cons, if_neg, hfree p List.mem_cons_self]
            · rfl
            · intro hpre
              apply hs
              refine hpre.trans ?_
              rw [hj]
              exact ⟨ps.flatMap (separator ++ ·), rfl⟩
          · exact hfree q (List.mem_cons_of_mem _ hq)

theorem join_pieces (s : List Char) : join (pieces s) = s := by
  obtain ⟨p, ps, hp, hj, -⟩ := pieces_spec s
  rw [hp, ← hj]

/-- The pieces of a text are the only ones that give it. -/
theorem pieces_join {p : List Char} {ps : List (List Char)} (h : ∀ q ∈ p :: ps, findSeparator q = none) :
    pieces (join (p :: ps)) = p :: ps := by
  induction ps generalizing p with
  | nil =>
    show pieces (p ++ []) = [p]
    rw [List.append_nil]
    exact pieces_of_free (h p List.mem_cons_self)
  | cons q ps ih =>
    have e : join (p :: q :: ps) = p ++ (separator ++ join (q :: ps)) := by simp [join]
    rw [e, pieces_append _ (h p List.mem_cons_self), ih fun r hr => h r (List.mem_cons_of_mem _ hr)]

/-! ## One authority -/

theorem idxOf?_append_cons {a : Char} {l : List Char} (h : a ∉ l) (r : List Char) :
    (l ++ a :: r).idxOf? a = some l.length := by
  induction l with
  | nil => simp [List.idxOf?_cons]
  | cons b l ih =>
    have hb : b ≠ a := fun e => h (e ▸ List.mem_cons_self)
    have hl : a ∉ l := fun e => h (List.mem_cons_of_mem _ e)
    rw [List.cons_append, List.idxOf?_cons, ih hl]
    simp [hb]

theorem lt_of_idxOf? {a b : Char} {l : List Char} (h : b ∉ l) (r : List Char) {i : Nat} (hab : b ≠ a)
    (hi : (l ++ a :: r).idxOf? b = some i) : l.length < i := by
  obtain ⟨hlt, hget, -⟩ := List.idxOf?_eq_some_iff.mp hi
  by_contra hle
  by_cases hil : i < l.length
  · rw [List.getElem_append_left hil] at hget
    exact h (hget ▸ List.getElem_mem hil)
  · have e : i = l.length := by omega
    subst e
    simp only [List.getElem_append_right (Nat.le_refl _), Nat.sub_self, List.getElem_cons_zero] at hget
    exact hab hget.symm

theorem maskAuthority_of_notMem {a : List Char} (h : '@' ∉ a) : maskAuthority a = a := by
  unfold maskAuthority
  rw [List.idxOf?_eq_none_iff.mpr h]

/-- The scanner reads the userinfo up to the first `@`. -/
theorem maskAuthority_at {u : List Char} (hu : '@' ∉ u) (t : List Char) :
    maskAuthority (u ++ '@' :: t) =
      if ':' ∈ u then u.takeWhile (· != ':') ++ ":***".toList ++ '@' :: t else u ++ '@' :: t := by
  unfold maskAuthority
  rw [idxOf?_append_cons hu t]
  by_cases hc : ':' ∈ u
  · rw [if_pos hc]
    obtain ⟨v, w, rfl, hv⟩ := List.eq_append_cons_of_mem hc
    have hi : (v ++ ':' :: w ++ '@' :: t).idxOf? ':' = some v.length := by
      rw [List.append_assoc, List.cons_append]
      exact idxOf?_append_cons hv _
    have htake : (v ++ ':' :: w).takeWhile (· != ':') = v := by
      rw [List.takeWhile_append_of_pos (by
        intro c hc
        simp only [bne_iff_ne]
        exact fun e => hv (e ▸ hc))]
      simp
    rw [hi, htake]
    show (if v.length < (v ++ ':' :: w).length then _ else _) = _
    rw [if_pos (by simp), List.drop_left, List.append_assoc v, List.take_left]
  · rw [if_neg hc]
    match hi : (u ++ '@' :: t).idxOf? ':' with
    | none => rfl
    | some i =>
      have hlt : u.length < i := lt_of_idxOf? hc t (by decide) hi
      show (if i < u.length then _ else _) = _
      rw [if_neg (by omega)]

theorem maskAuthority_of_no_colon {u : List Char} (hc : ':' ∉ u) (t : List Char) :
    maskAuthority (u ++ '@' :: t) = u ++ '@' :: t := by
  by_cases hu : '@' ∈ u
  · obtain ⟨v, w, rfl, hv⟩ := List.eq_append_cons_of_mem hu
    have hcv : ':' ∉ v := fun h => hc (List.mem_append_left _ h)
    rw [List.append_assoc, List.cons_append, maskAuthority_at hv, if_neg hcv]
  · rw [maskAuthority_at hu, if_neg hc]

theorem host_at {u t : List Char} (ht : '@' ∉ t) : host (u ++ '@' :: t) = t := by
  unfold host
  rw [List.reverse_append, List.reverse_cons, List.append_assoc, List.takeWhile_append_of_pos]
  · simp
  · intro c hc
    simp only [bne_iff_ne]
    exact fun e => ht (e ▸ List.mem_reverse.mp hc)

theorem userinfo_at {u t : List Char} (ht : '@' ∉ t) : userinfo (u ++ '@' :: t) = some u := by
  unfold userinfo
  rw [if_pos (by simp), host_at ht]
  congr 1
  have e : (u ++ '@' :: t).length - t.length - 1 = u.length := by
    rw [List.length_append, List.length_cons]
    omega
  rw [e, List.take_left]

/-- The text at its last `@`. -/
theorem exists_last_at {a : List Char} (h : '@' ∈ a) : ∃ u t, a = u ++ '@' :: t ∧ '@' ∉ t := by
  obtain ⟨t, u, e, ht⟩ := List.eq_append_cons_of_mem (List.mem_reverse.mpr h)
  refine ⟨u.reverse, t.reverse, ?_, ?_⟩
  · rw [← List.reverse_reverse a, e]
    simp
  · rwa [List.mem_reverse]

theorem hidePassword_of_notMem {a : List Char} (h : '@' ∉ a) : hidePassword a = a := by
  unfold hidePassword userinfo
  rw [if_neg h]

theorem hidePassword_at {u t : List Char} (ht : '@' ∉ t) :
    hidePassword (u ++ '@' :: t) =
      if ':' ∈ u then u.takeWhile (· != ':') ++ ":***".toList ++ '@' :: t else u ++ '@' :: t := by
  unfold hidePassword
  rw [userinfo_at ht, host_at ht]

/-- A password is masked already exactly if masking it changes nothing. -/
theorem hidden_iff (u t : List Char) :
    u ++ '@' :: t = u.takeWhile (· != ':') ++ ":***".toList ++ '@' :: t ↔
      u.dropWhile (· != ':') = ":***".toList := by
  rw [List.append_left_inj]
  constructor
  · intro h
    have e : u.takeWhile (· != ':') ++ u.dropWhile (· != ':') = u.takeWhile (· != ':') ++ ":***".toList := by
      rw [List.takeWhile_append_dropWhile]
      exact h
    exact List.append_cancel_left e
  · intro h
    rw [← h, List.takeWhile_append_dropWhile]

/-- What the scanner does to an authority, if it looks at it. -/
def scanned (found : Bool) (authority : List Char) : List Char :=
  if found then maskAuthority authority else authority

theorem takeWhile_colon_append {v : List Char} (h : ':' ∈ v) (w : List Char) :
    (v ++ w).takeWhile (· != ':') = v.takeWhile (· != ':') := by
  obtain ⟨x, y, rfl, hx⟩ := List.eq_append_cons_of_mem h
  have hpos : ∀ c ∈ x, (c != ':') = true := by
    intro c hc
    simp only [bne_iff_ne]
    exact fun e => hx (e ▸ hc)
  rw [List.append_assoc, List.takeWhile_append_of_pos hpos, List.takeWhile_append_of_pos hpos]
  simp

/-- In a password that is masked already there is no `@`. -/
theorem notMem_of_hidden {v w : List Char} (hv : '@' ∉ v) (hc : ':' ∈ v) :
    (v ++ '@' :: w).dropWhile (· != ':') ≠ ":***".toList := by
  intro h
  have e : v.takeWhile (· != ':') ++ ":***".toList = v ++ '@' :: w := by
    rw [← takeWhile_colon_append hc ('@' :: w), ← h, List.takeWhile_append_dropWhile]
  have hmem : '@' ∈ v.takeWhile (· != ':') ++ ":***".toList := by
    rw [e]
    simp
  rcases List.mem_append.mp hmem with hm | hm
  · exact hv ((List.takeWhile_prefix _).subset hm)
  · exact absurd hm (by decide)

/-- A password with an `@` in it keeps what stands behind that `@`. -/
theorem maskAuthority_two_at {u t : List Char} (hat : '@' ∈ u) (hc : ':' ∈ u) (ht : '@' ∉ t) :
    maskAuthority (u ++ '@' :: t) = hidePassword (u ++ '@' :: t) ↔
      u.dropWhile (· != ':') = ":***".toList := by
  rw [hidePassword_at ht, if_pos hc]
  obtain ⟨v, w, rfl, hv⟩ := List.eq_append_cons_of_mem hat
  have e : v ++ '@' :: w ++ '@' :: t = v ++ '@' :: (w ++ '@' :: t) := by simp
  by_cases hcv : ':' ∈ v
  · rw [e, maskAuthority_at hv, if_pos hcv, takeWhile_colon_append hcv]
    constructor
    · intro h
      have hlen := congrArg List.length h
      simp only [List.length_append, List.length_cons] at hlen
      omega
    · intro h
      exact absurd h (notMem_of_hidden hv hcv)
  · rw [← hidden_iff _ t, e, maskAuthority_at hv, if_neg hcv]

/-- An authority comes out as it should exactly if it is plain. -/
theorem scanned_eq_iff (found : Bool) (a : List Char) :
    scanned found a = hidePassword a ↔ Plain found a := by
  by_cases hat : '@' ∈ a
  · obtain ⟨u, t, rfl, ht⟩ := exists_last_at hat
    unfold Plain
    rw [userinfo_at ht]
    simp only [Option.mem_def, Option.some.injEq, forall_eq']
    by_cases hc : ':' ∈ u
    · cases found with
      | false =>
        show u ++ '@' :: t = hidePassword (u ++ '@' :: t) ↔ _
        rw [hidePassword_at ht, if_pos hc, hidden_iff]
        simp [hc]
      | true =>
        show maskAuthority (u ++ '@' :: t) = hidePassword (u ++ '@' :: t) ↔ _
        by_cases hu : '@' ∈ u
        · rw [maskAuthority_two_at hu hc ht]
          simp [hc, hu]
        · rw [maskAuthority_at hu, hidePassword_at ht]
          simp [hu]
    · have hid : hidePassword (u ++ '@' :: t) = u ++ '@' :: t := by rw [hidePassword_at ht, if_neg hc]
      unfold scanned
      rw [hid, maskAuthority_of_no_colon hc t]
      simp [hc]
  · unfold Plain scanned
    rw [hidePassword_of_notMem hat, maskAuthority_of_notMem hat]
    simp [userinfo, hat]

/-! ## One piece -/

theorem authority_append (p : List Char) : authority p ++ afterAuthority p = p :=
  List.takeWhile_append_dropWhile

theorem not_endsAuthority_of_mem {p : List Char} {c : Char} (h : c ∈ authority p) :
    endsAuthority c = false := by
  have := List.mem_takeWhile_imp h
  simpa using this

theorem slash_notMem_authority (p : List Char) : '/' ∉ authority p := by
  intro h
  exact absurd (not_endsAuthority_of_mem h) (by decide)

theorem findSeparator_slash (t : List Char) : findSeparator ('/' :: t) = (findSeparator t).map (· + 1) := by
  rw [findSeparator_cons, if_neg]
  intro h
  simp [separator] at h

/-- The separator holds no `@`, so one that begins before an `@` would end before it. -/
theorem findSeparator_at {u : List Char} (hu : '/' ∉ u) (t : List Char) :
    findSeparator (u ++ '@' :: t) = none ↔ findSeparator t = none := by
  induction u with
  | nil =>
    rw [List.nil_append, findSeparator_cons, if_neg (by simp [separator]), Option.map_eq_none_iff]
  | cons c u ih =>
    have hu' : '/' ∉ u := fun h => hu (List.mem_cons_of_mem _ h)
    have hno : ¬ separator <+: c :: (u ++ '@' :: t) := by
      intro h
      match u, hu', h with
      | [], _, h => simp [separator] at h
      | d :: u, hu', h =>
        simp only [separator, List.cons_append, List.cons_prefix_cons] at h
        have hd : '/' = d := h.2.1
        exact hu' (hd ▸ List.mem_cons_self)
    rw [List.cons_append, findSeparator_cons, if_neg hno, Option.map_eq_none_iff, ih hu']

/-- An authority as it was, or with what stands before one `@` of it changed to letters of its own,
colons and stars. -/
def Masks (a b : List Char) : Prop :=
  b = a ∨ ∃ u v t, a = u ++ '@' :: t ∧ b = v ++ '@' :: t ∧ ∀ c ∈ v, c ∈ u ∨ c ∈ ":***".toList

theorem masks_takeWhile (u t : List Char) :
    Masks (u ++ '@' :: t) (if ':' ∈ u then u.takeWhile (· != ':') ++ ":***".toList ++ '@' :: t
      else u ++ '@' :: t) := by
  by_cases hc : ':' ∈ u
  · rw [if_pos hc]
    refine Or.inr ⟨u, _, t, rfl, rfl, ?_⟩
    intro c hc'
    rcases List.mem_append.mp hc' with h | h
    · exact Or.inl ((List.takeWhile_prefix _).subset h)
    · exact Or.inr h
  · rw [if_neg hc]
    exact Or.inl rfl

theorem maskAuthority_masks (a : List Char) : Masks a (maskAuthority a) := by
  by_cases hat : '@' ∈ a
  · obtain ⟨u, t, rfl, hu⟩ := List.eq_append_cons_of_mem hat
    rw [maskAuthority_at hu]
    exact masks_takeWhile u t
  · exact Or.inl (maskAuthority_of_notMem hat)

theorem hidePassword_masks (a : List Char) : Masks a (hidePassword a) := by
  by_cases hat : '@' ∈ a
  · obtain ⟨u, t, rfl, ht⟩ := exists_last_at hat
    rw [hidePassword_at ht]
    exact masks_takeWhile u t
  · exact Or.inl (hidePassword_of_notMem hat)

theorem scanned_masks (found : Bool) (a : List Char) : Masks a (scanned found a) := by
  unfold scanned
  split
  · exact maskAuthority_masks a
  · exact Or.inl rfl

variable {f : List Char → List Char}

theorem Masks.not_endsAuthority {p b : List Char} (h : Masks (authority p) b) {c : Char} (hc : c ∈ b) :
    endsAuthority c = false := by
  rcases h with rfl | ⟨u, v, t, ha, rfl, hv⟩
  · exact not_endsAuthority_of_mem hc
  · rcases List.mem_append.mp hc with h | h
    · rcases hv c h with h | h
      · exact not_endsAuthority_of_mem (ha ▸ List.mem_append_left _ h)
      · have hmem : c = ':' ∨ c = '*' := by simpa using h
        rcases hmem with rfl | rfl <;> rfl
    · exact not_endsAuthority_of_mem (ha ▸ List.mem_append_right _ h)

theorem authority_afterAuthority (p : List Char) : authority (afterAuthority p) = [] := by
  induction p with
  | nil => rfl
  | cons c p ih =>
    by_cases hc : endsAuthority c
    · simp [authority, afterAuthority, hc]
    · have e : afterAuthority (c :: p) = afterAuthority p := by simp [afterAuthority, hc]
      rw [e, ih]

theorem authority_append_of_not {b : List Char} (h : ∀ c ∈ b, endsAuthority c = false) (t : List Char) :
    authority (b ++ t) = b ++ authority t ∧ afterAuthority (b ++ t) = afterAuthority t := by
  constructor
  · exact List.takeWhile_append_of_pos fun c hc => by rw [h c hc, Bool.not_false]
  · exact List.dropWhile_append_of_pos fun c hc => by rw [h c hc, Bool.not_false]

theorem authority_onAuthority (hf : ∀ a, Masks a (f a)) (p : List Char) :
    authority (onAuthority f p) = f (authority p) ∧ afterAuthority (onAuthority f p) = afterAuthority p := by
  have hends : ∀ c ∈ f (authority p), endsAuthority c = false := fun c hc => (hf _).not_endsAuthority hc
  obtain ⟨h1, h2⟩ := authority_append_of_not hends (afterAuthority p)
  constructor
  · show authority (f (authority p) ++ afterAuthority p) = _
    rw [h1, authority_afterAuthority, List.append_nil]
  · show afterAuthority (f (authority p) ++ afterAuthority p) = _
    rw [h2]
    exact List.dropWhile_idempotent ..

theorem findSeparator_onAuthority (hf : ∀ a, Masks a (f a)) {p : List Char} (h : findSeparator p = none) :
    findSeparator (onAuthority f p) = none := by
  have hslash := slash_notMem_authority p
  have hp := authority_append p
  unfold onAuthority
  rcases hf (authority p) with e | ⟨u, v, t, ha, hb, hv⟩
  · rw [e, hp, h]
  · have hu : '/' ∉ u := fun hm => hslash (ha ▸ List.mem_append_left _ hm)
    have hv' : '/' ∉ v := by
      intro hm
      rcases hv _ hm with hm | hm
      · exact hu hm
      · exact absurd hm (by decide)
    rw [← hp, ha, List.append_assoc, List.cons_append, findSeparator_at hu] at h
    rw [hb, List.append_assoc, List.cons_append, findSeparator_at hv', h]

/-! ## The scanner, piece by piece -/

/-- What the scanner does to the pieces behind the first separator. -/
def scan : Bool → List (List Char) → List (List Char)
  | _, [] => []
  | found, p :: ps => onAuthority (scanned found) p :: scan (!found || p.any endsAuthority) ps

theorem maskAuthority_append_colon (a : List Char) : maskAuthority (a ++ [':']) = maskAuthority a ++ [':'] := by
  by_cases hat : '@' ∈ a
  · obtain ⟨u, t, rfl, hu⟩ := List.eq_append_cons_of_mem hat
    rw [List.append_assoc, List.cons_append, maskAuthority_at hu, maskAuthority_at hu]
    split
    · simp
    · simp
  · rw [maskAuthority_of_notMem hat, maskAuthority_of_notMem]
    simp [hat]

theorem findSeparator_append_right {a p : List Char} (h : findSeparator (a ++ p) = none) :
    findSeparator p = none := by
  induction a with
  | nil => exact h
  | cons c a ih => exact ih (free_cons h).2

theorem join_cons_cons (p q : List Char) (ps : List (List Char)) :
    join (p :: q :: ps) = p ++ (separator ++ join (q :: ps)) := by
  simp [join]

/-- A turn of the loop, where the text begins with a piece and a separator. -/
theorem redactLoop_turn {p : List Char} (hp : findSeparator p = none) (turns : Nat) (t : List Char) :
    redactLoop (turns + 1) (p ++ (separator ++ t)) =
      p ++ (separator ++ (maskAuthority (authority t) ++ redactLoop turns (afterAuthority t))) := by
  have htake : (p ++ (separator ++ t)).take (p.length + 3) = p ++ separator := by
    rw [← List.append_assoc]
    exact List.take_left' (by simp [separator])
  have hdrop : (p ++ (separator ++ t)).drop (p.length + 3) = t := by
    rw [← List.append_assoc]
    exact List.drop_left' (by simp [separator])
  rw [redactLoop, findSeparator_append t hp]
  simp only [htake, hdrop, List.append_assoc]

/-- A piece that ends its authority: the scanner goes on behind that authority. -/
theorem authority_join_of_ends {q : List Char} (hq : q.any endsAuthority = true) (ps : List (List Char)) :
    authority (join (q :: ps)) = authority q ∧
      afterAuthority (join (q :: ps)) = join (afterAuthority q :: ps) := by
  obtain ⟨c, r, hcr⟩ : ∃ c r, afterAuthority q = c :: r := by
    apply List.exists_cons_of_ne_nil
    intro hnil
    obtain ⟨c, hc, hend⟩ := List.any_eq_true.mp hq
    have := List.dropWhile_eq_nil_iff.mp hnil c hc
    simp [hend] at this
  have hnone := authority_afterAuthority q
  have hends : endsAuthority c = true := by
    by_contra hc
    rw [hcr] at hnone
    simp [authority, hc] at hnone
  have e : join (q :: ps) = authority q ++ (c :: (r ++ ps.flatMap (separator ++ ·))) := by
    show q ++ _ = _
    conv_lhs => rw [← authority_append q, hcr]
    simp
  have hauth : ∀ d ∈ authority q, endsAuthority d = false := fun d hd => not_endsAuthority_of_mem hd
  obtain ⟨h1, h2⟩ := authority_append_of_not hauth (c :: (r ++ ps.flatMap (separator ++ ·)))
  constructor
  · rw [e, h1]
    simp [authority, hends]
  · rw [e, h2, hcr]
    simp [afterAuthority, hends, join]

/-- A piece that does not end its authority: the authority takes the `:` of the next separator. -/
theorem authority_join_of_not {q : List Char} (hq : q.any endsAuthority = false) :
    authority (join [q]) = q ∧ afterAuthority (join [q]) = [] ∧
      ∀ r rs, authority (join (q :: r :: rs)) = q ++ [':'] ∧
        afterAuthority (join (q :: r :: rs)) = join (('/' :: '/' :: r) :: rs) := by
  have hall : ∀ c ∈ q, endsAuthority c = false := by
    intro c hc
    by_contra h
    rw [Bool.not_eq_false] at h
    rw [List.any_eq_true.mpr ⟨c, hc, h⟩] at hq
    cases hq
  have e : join [q] = q ++ [] := rfl
  obtain ⟨h1, h2⟩ := authority_append_of_not hall []
  refine ⟨?_, ?_, ?_⟩
  · rw [e, h1]
    exact List.append_nil q
  · rw [e, h2]
    rfl
  · intro r rs
    obtain ⟨h1, h2⟩ := authority_append_of_not hall (separator ++ join (r :: rs))
    rw [join_cons_cons, h1, h2]
    exact ⟨rfl, rfl⟩

/-- A piece that ends no authority is all authority. -/
theorem authority_of_not {q : List Char} (hq : q.any endsAuthority = false) :
    authority q = q ∧ afterAuthority q = [] := by
  obtain ⟨h1, h2, -⟩ := authority_join_of_not hq
  have e : join [q] = q := List.append_nil q
  rw [e] at h1 h2
  exact ⟨h1, h2⟩

theorem redactLoop_nil (turns : Nat) : redactLoop turns [] = [] := by
  match turns with
  | 0 => rfl
  | _ + 1 => rfl

/-- **The scanner, piece by piece.** -/
theorem redactLoop_eq (turns : Nat) (p : List Char) (ps : List (List Char))
    (hfree : ∀ q ∈ p :: ps, findSeparator q = none) (hlen : (join (p :: ps)).length ≤ turns) :
    redactLoop turns (join (p :: ps)) = join (p :: scan true ps) := by
  induction turns generalizing p ps with
  | zero =>
    match ps with
    | [] => rfl
    | q :: ps =>
      rw [join_cons_cons] at hlen
      simp [separator] at hlen
  | succ turns ih =>
    have hp := hfree p List.mem_cons_self
    match ps with
    | [] =>
      have e : join [p] = p := List.append_nil p
      show redactLoop (turns + 1) (join [p]) = join [p]
      rw [e]
      rw [redactLoop, hp]
    | q :: ps =>
      have hq : findSeparator q = none := hfree q (by simp)
      rw [join_cons_cons, redactLoop_turn hp]
      have hshort : (afterAuthority (join (q :: ps))).length ≤ turns := by
        have h1 : (afterAuthority (join (q :: ps))).length ≤ (join (q :: ps)).length :=
          (List.dropWhile_suffix _).length_le
        rw [join_cons_cons] at hlen
        simp only [List.length_append] at hlen
        have h3 : separator.length = 3 := rfl
        omega
      by_cases hends : q.any endsAuthority
      · obtain ⟨h1, h2⟩ := authority_join_of_ends hends ps
        rw [h2] at hshort
        have hfree' : ∀ r ∈ afterAuthority q :: ps, findSeparator r = none := by
          intro r hr
          rcases List.mem_cons.mp hr with rfl | hr
          · rw [← authority_append q] at hq
            exact findSeparator_append_right hq
          · exact hfree r (by simp [hr])
        rw [h1, h2, ih _ _ hfree' hshort]
        simp [join, scan, hends, onAuthority, scanned]
      · rw [Bool.not_eq_true] at hends
        obtain ⟨h1, h2, h3⟩ := authority_join_of_not hends
        obtain ⟨hq1, hq2⟩ := authority_of_not hends
        match ps with
        | [] =>
          rw [h1, h2, redactLoop_nil]
          simp [join, scan, onAuthority, scanned, hq1, hq2]
        | r :: rs =>
          obtain ⟨h4, h5⟩ := h3 r rs
          rw [h5] at hshort
          have hfree' : ∀ x ∈ ('/' :: '/' :: r) :: rs, findSeparator x = none := by
            intro x hx
            rcases List.mem_cons.mp hx with rfl | hx
            · rw [findSeparator_slash, findSeparator_slash, hfree r (by simp)]
              rfl
            · exact hfree x (by simp [hx])
          rw [h4, h5, ih _ _ hfree' hshort, maskAuthority_append_colon]
          simp [join, scan, hends, onAuthority, scanned, hq1, hq2, separator, authority_append]

/-! ## What the scanner masks -/

theorem redactUserinfoPasswords_pieces {text : String} {p : List Char} {ps : List (List Char)}
    (h : pieces text.toList = p :: ps) :
    redactUserinfoPasswords text = String.ofList (join (p :: scan true ps)) := by
  obtain ⟨p', ps', hp, hj, hfree⟩ := pieces_spec text.toList
  rw [h] at hp
  obtain ⟨rfl, rfl⟩ := List.cons.inj hp
  unfold redactUserinfoPasswords
  rw [hj, redactLoop_eq _ p ps hfree (Nat.le_refl _)]

theorem findSeparator_scan {found : Bool} {ps : List (List Char)} (h : ∀ q ∈ ps, findSeparator q = none) :
    ∀ q ∈ scan found ps, findSeparator q = none := by
  induction ps generalizing found with
  | nil => simp [scan]
  | cons p ps ih =>
    intro q hq
    rcases List.mem_cons.mp hq with rfl | hq
    · exact findSeparator_onAuthority (scanned_masks found) (h p List.mem_cons_self)
    · exact ih (fun r hr => h r (List.mem_cons_of_mem _ hr)) q hq

theorem findSeparator_cons_scan {p : List Char} {ps : List (List Char)}
    (h : ∀ q ∈ p :: ps, findSeparator q = none) : ∀ q ∈ p :: scan true ps, findSeparator q = none := by
  intro q hq
  rcases List.mem_cons.mp hq with rfl | hq
  · exact h q List.mem_cons_self
  · exact findSeparator_scan (fun r hr => h r (List.mem_cons_of_mem _ hr)) q hq

theorem scan_eq_iff (found : Bool) (ps : List (List Char)) :
    scan found ps = ps.map (onAuthority hidePassword) ↔ AllPlain found ps := by
  induction ps generalizing found with
  | nil => simp [scan, AllPlain]
  | cons p ps ih =>
    show onAuthority (scanned found) p :: _ = onAuthority hidePassword p :: _ ↔ _ ∧ _
    rw [List.cons.injEq, ih, ← scanned_eq_iff]
    unfold onAuthority
    rw [List.append_left_inj]

theorem maskAuthority_idem (a : List Char) : maskAuthority (maskAuthority a) = maskAuthority a := by
  by_cases hat : '@' ∈ a
  · obtain ⟨u, t, rfl, hu⟩ := List.eq_append_cons_of_mem hat
    rw [maskAuthority_at hu]
    by_cases hc : ':' ∈ u
    · rw [if_pos hc]
      have hu' : '@' ∉ u.takeWhile (· != ':') ++ ":***".toList := by
        intro h
        rcases List.mem_append.mp h with h | h
        · exact hu ((List.takeWhile_prefix _).subset h)
        · exact absurd h (by decide)
      have hpos : ∀ c ∈ u.takeWhile (· != ':'), (c != ':') = true := by
        intro c hc
        exact List.mem_takeWhile_imp (p := (· != ':')) hc
      rw [maskAuthority_at hu', if_pos (by simp), List.takeWhile_append_of_pos hpos]
      simp
    · rw [if_neg hc, maskAuthority_at hu, if_neg hc]
  · rw [maskAuthority_of_notMem hat, maskAuthority_of_notMem hat]

theorem scanned_idem (found : Bool) (a : List Char) : scanned found (scanned found a) = scanned found a := by
  cases found with
  | false => rfl
  | true => exact maskAuthority_idem a

theorem any_endsAuthority_onAuthority (hf : ∀ a, Masks a (f a)) (p : List Char) :
    (onAuthority f p).any endsAuthority = p.any endsAuthority := by
  have hnone : ∀ b : List Char, (∀ c ∈ b, endsAuthority c = false) → b.any endsAuthority = false := by
    intro b hb
    rw [List.any_eq_false]
    intro c hc
    simp [hb c hc]
  conv_rhs => rw [← authority_append p]
  unfold onAuthority
  rw [List.any_append, List.any_append, hnone _ fun c hc => (hf _).not_endsAuthority hc,
    hnone _ fun c hc => not_endsAuthority_of_mem hc]

theorem scan_scan (found : Bool) (ps : List (List Char)) : scan found (scan found ps) = scan found ps := by
  induction ps generalizing found with
  | nil => rfl
  | cons p ps ih =>
    show onAuthority _ (onAuthority _ p) :: scan (!found || (onAuthority _ p).any endsAuthority) _ = _ :: _
    rw [any_endsAuthority_onAuthority (scanned_masks found) p, ih]
    congr 1
    obtain ⟨h1, h2⟩ := authority_onAuthority (scanned_masks found) p
    show scanned found (authority (onAuthority _ p)) ++ afterAuthority (onAuthority _ p) = _
    rw [h1, h2, scanned_idem]
    rfl

theorem redactUserinfoPasswords_idem (text : String) :
    redactUserinfoPasswords (redactUserinfoPasswords text) = redactUserinfoPasswords text := by
  obtain ⟨p, ps, hp, -, hfree⟩ := pieces_spec text.toList
  have hfree' := findSeparator_cons_scan hfree
  have hpieces : pieces (redactUserinfoPasswords text).toList = p :: scan true ps := by
    rw [redactUserinfoPasswords_pieces hp, String.toList_ofList, pieces_join hfree']
  rw [redactUserinfoPasswords_pieces hpieces, scan_scan, redactUserinfoPasswords_pieces hp]

/-- **What the scanner masks.**  It masks every password, and nothing else, exactly in the texts
where each authority with a password is plain: no `@` in that password, and the separator before
it not run into the authority before that, or the password `***` already.  Masking twice is
masking once in every text. -/
theorem redact_exact_iff (text : String) :
    (redactUserinfoPasswords text = masked text ∧
        redactUserinfoPasswords (redactUserinfoPasswords text) = redactUserinfoPasswords text) ↔
      AllPlain true (pieces text.toList).tail := by
  obtain ⟨p, ps, hp, -, hfree⟩ := pieces_spec text.toList
  have hmasked : masked text = String.ofList (join (p :: ps.map (onAuthority hidePassword))) := by
    unfold masked
    rw [hp]
  have hfree₁ := findSeparator_cons_scan hfree
  have hfree₂ : ∀ q ∈ p :: ps.map (onAuthority hidePassword), findSeparator q = none := by
    intro q hq
    rcases List.mem_cons.mp hq with rfl | hq
    · exact hfree q List.mem_cons_self
    · obtain ⟨r, hr, rfl⟩ := List.mem_map.mp hq
      exact findSeparator_onAuthority hidePassword_masks (hfree r (List.mem_cons_of_mem _ hr))
  rw [and_iff_left (redactUserinfoPasswords_idem text), redactUserinfoPasswords_pieces hp, hmasked, hp,
    List.tail_cons, ← scan_eq_iff]
  constructor
  · intro h
    have h' := congrArg pieces (String.ofList_injective h)
    rw [pieces_join hfree₁, pieces_join hfree₂] at h'
    exact (List.cons.inj h').2
  · intro h
    rw [h]

/-- A password with an `@` in it shows what stands behind that `@`. -/
theorem password_with_at_shows :
    ¬ ∀ text, redactUserinfoPasswords text = masked text ∧
      redactUserinfoPasswords (redactUserinfoPasswords text) = redactUserinfoPasswords text := by
  intro h
  exact absurd (h "http://user:p@ss@proxy").1 (by decide)

end Afhttp.Redact

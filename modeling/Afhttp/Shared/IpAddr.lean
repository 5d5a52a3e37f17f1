import Mathlib
import Afhttp.Shared.Url

/-!
# Reading an address

`str::parse::<IpAddr>` with the address it gives, and `IpAddr::is_loopback`.

    what is read is what `parsesAsIpAddr` accepts       (isSome_parseIpAddr)
    an address is written with digits, dots and colons  (parseIpv4_chars, parseIpv6_chars)
-/

namespace Afhttp

/-- The number that the digits write in the base. -/
def digitsValue (base : ℕ) (digit : Char → ℕ) (cs : List Char) : ℕ :=
  cs.foldl (fun n c => n * base + digit c) 0

def decimalDigit (c : Char) : ℕ := c.toNat - '0'.toNat

def hexDigit (c : Char) : ℕ :=
  if c.isDigit then decimalDigit c
  else if 'a' ≤ c ∧ c ≤ 'f' then c.toNat - 'a'.toNat + 10
  else c.toNat - 'A'.toNat + 10

/-- What `parsesAsOctet` accepts is at most 255. -/
def parseOctet (cs : List Char) : Option (Fin 256) :=
  if parsesAsOctet cs then some (Fin.ofNat 256 (digitsValue 10 decimalDigit cs)) else none

def parseIpv4 (cs : List Char) : Option Ipv4Addr :=
  match cs.splitOn '.' with
  | [a, b, c, d] =>
    match parseOctet a, parseOctet b, parseOctet c, parseOctet d with
    | some a, some b, some c, some d => some ⟨a, b, c, d⟩
    | _, _, _, _ => none
  | _ => none

/-- Four hexadecimal digits are at most 65535. -/
def groupValue (cs : List Char) : Fin 65536 := Fin.ofNat 65536 (digitsValue 16 hexDigit cs)

/-- The two groups that a trailing IPv4 address stands for. -/
def Ipv4Addr.groups (x : Ipv4Addr) : List (Fin 65536) :=
  [Fin.ofNat 65536 (x.a.val * 256 + x.b.val), Fin.ofNat 65536 (x.c.val * 256 + x.d.val)]

/-- The groups that `cs` writes. -/
def parseGroups (cs : List Char) : Option (List (Fin 65536)) :=
  let parts := cs.splitOn ':'
  if parts.all parsesAsGroup then some (parts.map groupValue)
  else if parts.dropLast.all parsesAsGroup then
    (parseIpv4 (parts.getLast?.getD [])).map fun x => parts.dropLast.map groupValue ++ x.groups
  else none

def Ipv6Addr.ofList (segments : List (Fin 65536)) : Option Ipv6Addr :=
  if h : segments.length = 8 then some ⟨⟨segments.toArray, by simp [h]⟩⟩ else none

def parseIpv6 (cs : List Char) : Option Ipv6Addr :=
  match splitDoubleColon cs with
  | none => (parseGroups cs).bind Ipv6Addr.ofList
  | some (head, tail) =>
    match (if head = [] then some [] else parseGroups head),
      (if tail = [] then some [] else parseGroups tail) with
    -- an IPv4 part is read at the end only
    | some gs, some hs =>
      if (head = [] || (head.splitOn ':').all parsesAsGroup) && gs.length + hs.length ≤ 7 then
        Ipv6Addr.ofList (gs ++ List.replicate (8 - gs.length - hs.length) 0 ++ hs)
      else none
    | _, _ => none

inductive IpAddr where
  | v4 (addr : Ipv4Addr)
  | v6 (addr : Ipv6Addr)
  deriving DecidableEq

def parseIpAddr (s : String) : Option IpAddr :=
  ((parseIpv4 s.toList).map IpAddr.v4).or ((parseIpv6 s.toList).map IpAddr.v6)

/-- `127.0.0.0/8`. -/
def Ipv4Addr.isLoopback (x : Ipv4Addr) : Bool := x.a.val == 127

/-- `::1`. -/
def Ipv6Addr.isLoopback (x : Ipv6Addr) : Bool := x.segments.toList == [0, 0, 0, 0, 0, 0, 0, 1]

def IpAddr.isLoopback : IpAddr → Bool
  | .v4 addr => addr.isLoopback
  | .v6 addr => addr.isLoopback

example : (["127.0.0.1", "127.255.0.9", "::1", "0:0::0.0.0.1", "::ffff:127.0.0.1", "127.1", "126.0.0.1"].map
    fun s => (parseIpAddr s).any IpAddr.isLoopback) =
    [true, true, true, true, false, false, false] := by decide

/-! ## Lemmas -/

theorem isSome_parseOctet (cs : List Char) : (parseOctet cs).isSome = parsesAsOctet cs := by
  unfold parseOctet
  split
  · next h => rw [h, Option.isSome_some]
  · next h => simp [h]

theorem isSome_parseIpv4 (cs : List Char) : (parseIpv4 cs).isSome = parsesAsIpv4 cs := by
  unfold parseIpv4 parsesAsIpv4
  generalize cs.splitOn '.' = parts
  rcases parts with _ | ⟨a, _ | ⟨b, _ | ⟨c, _ | ⟨d, _ | ⟨e, rest⟩⟩⟩⟩⟩
  · rfl
  · rfl
  · rfl
  · rfl
  · simp only [← isSome_parseOctet]
    cases parseOctet a <;> cases parseOctet b <;> cases parseOctet c <;> cases parseOctet d <;> rfl
  · rfl

theorem length_parseGroups (cs : List Char) : (parseGroups cs).map List.length = groups cs := by
  have hne : cs.splitOn ':' ≠ [] := List.splitOn_ne_nil ':' cs
  unfold parseGroups groups
  generalize cs.splitOn ':' = parts at hne
  simp only
  by_cases hall : parts.all parsesAsGroup
  · rw [if_pos hall, if_pos hall, Option.map_some, List.length_map]
  · rw [if_neg hall, if_neg hall]
    by_cases hdrop : parts.dropLast.all parsesAsGroup
    · rw [if_pos hdrop, hdrop, Bool.true_and, ← isSome_parseIpv4]
      have hpos := List.length_pos_iff.mpr hne
      match parseIpv4 (parts.getLast?.getD []) with
      | none => rfl
      | some x =>
        have e : parts.length - 1 + 2 = parts.length + 1 := by omega
        simp [Ipv4Addr.groups, e]
    · simp [hdrop]

theorem isSome_ofList (segments : List (Fin 65536)) :
    (Ipv6Addr.ofList segments).isSome = (segments.length == 8) := by
  unfold Ipv6Addr.ofList
  by_cases h : segments.length = 8
  · simp [h]
  · simp [h]

theorem length_side (side : List Char) : (if side = [] then some [] else parseGroups side).map List.length =
    if side = [] then some 0 else groups side := by
  rw [← length_parseGroups]
  split
  · rfl
  · rfl

theorem isSome_parseIpv6 (cs : List Char) : (parseIpv6 cs).isSome = parsesAsIpv6 cs := by
  unfold parseIpv6 parsesAsIpv6
  generalize splitDoubleColon cs = sides
  match sides with
  | none =>
    simp only [← length_parseGroups]
    match parseGroups cs with
    | none => rfl
    | some gs => simp [isSome_ofList]
  | some (head, tail) =>
    simp only [← length_side]
    generalize (if head = [] then some [] else parseGroups head) = left
    generalize (if tail = [] then some [] else parseGroups tail) = right
    match left, right with
    | none, none => rfl
    | none, some hs => rfl
    | some gs, none => rfl
    | some gs, some hs =>
      simp only [Option.map_some]
      split
      · next h =>
        have hle : gs.length + hs.length ≤ 7 := of_decide_eq_true ((Bool.and_eq_true _ _).mp h).2
        have e : gs.length + (8 - gs.length - hs.length + hs.length) = 8 := by omega
        rw [isSome_ofList]
        simp [h, e]
      · next h => simp [h]

/-- The values read are those of the texts that parse. -/
theorem isSome_parseIpAddr (s : String) : (parseIpAddr s).isSome = parsesAsIpAddr s := by
  unfold parseIpAddr parsesAsIpAddr
  rw [← isSome_parseIpv4, ← isSome_parseIpv6]
  cases parseIpv4 s.toList <;> cases parseIpv6 s.toList <;> rfl

/-! ## The characters of an address -/

theorem mem_intercalate_or {sep c : Char} {parts : List (List Char)} (h : c ∈ [sep].intercalate parts) :
    c = sep ∨ ∃ p ∈ parts, c ∈ p := by
  induction parts with
  | nil => simp at h
  | cons p parts ih =>
    by_cases hp : parts = []
    · subst hp
      exact Or.inr ⟨p, List.mem_cons_self, by simpa using h⟩
    · rw [List.intercalate_cons_of_ne_nil hp] at h
      rcases List.mem_append.mp h with h | h
      · rcases List.mem_append.mp h with h | h
        · exact Or.inr ⟨p, List.mem_cons_self, h⟩
        · exact Or.inl (List.mem_singleton.mp h)
      · rcases ih h with e | ⟨q, hq, hc⟩
        · exact Or.inl e
        · exact Or.inr ⟨q, List.mem_cons_of_mem _ hq, hc⟩

theorem mem_splitOn_or {cs : List Char} (sep : Char) {c : Char} (h : c ∈ cs) :
    c = sep ∨ ∃ p ∈ cs.splitOn sep, c ∈ p := by
  have hjoin : [sep].intercalate (cs.splitOn sep) = cs := List.intercalate_splitOn sep
  rw [← hjoin] at h
  exact mem_intercalate_or h

theorem isDigit_of_octet {cs : List Char} (h : parsesAsOctet cs = true) : ∀ c ∈ cs, c.isDigit = true := by
  unfold parsesAsOctet at h
  simp only [Bool.and_eq_true] at h
  exact fun c hc => List.all_eq_true.mp h.1.1.1.1 c hc

theorem parseIpv4_chars {cs : List Char} {x : Ipv4Addr} (h : parseIpv4 cs = some x) :
    ∀ c ∈ cs, c.isDigit = true ∨ c = '.' := by
  intro c hc
  have hp : parsesAsIpv4 cs = true := by rw [← isSome_parseIpv4, h, Option.isSome_some]
  rcases mem_splitOn_or '.' hc with rfl | ⟨p, hp', hcp⟩
  · exact Or.inr rfl
  · left
    unfold parsesAsIpv4 at hp
    split at hp
    · next e =>
      rw [e] at hp'
      simp only [Bool.and_eq_true] at hp
      simp only [List.mem_cons, List.not_mem_nil, or_false] at hp'
      rcases hp' with rfl | rfl | rfl | rfl
      · exact isDigit_of_octet hp.1.1.1 c hcp
      · exact isDigit_of_octet hp.1.1.2 c hcp
      · exact isDigit_of_octet hp.1.2 c hcp
      · exact isDigit_of_octet hp.2 c hcp
    · cases hp

/-- A character that an IPv6 address is written with. -/
def isIpv6Char (c : Char) : Bool := isHexDigit c || c == ':' || c == '.'

theorem isIpv6Char_of_group {cs : List Char} (h : parsesAsGroup cs = true) :
    ∀ c ∈ cs, isIpv6Char c = true := by
  unfold parsesAsGroup at h
  simp only [Bool.and_eq_true] at h
  intro c hc
  simp [isIpv6Char, List.all_eq_true.mp h.1.1 c hc]

theorem isIpv6Char_of_parseIpv4 {cs : List Char} {x : Ipv4Addr} (h : parseIpv4 cs = some x) :
    ∀ c ∈ cs, isIpv6Char c = true := by
  intro c hc
  rcases parseIpv4_chars h c hc with hd | rfl
  · simp [isIpv6Char, isHexDigit, hd]
  · rfl

theorem parseGroups_chars {cs : List Char} {gs : List (Fin 65536)} (h : parseGroups cs = some gs) :
    ∀ c ∈ cs, isIpv6Char c = true := by
  intro c hc
  rcases mem_splitOn_or ':' hc with rfl | ⟨p, hp, hcp⟩
  · rfl
  · unfold parseGroups at h
    simp only at h
    split at h
    · next hall => exact isIpv6Char_of_group (List.all_eq_true.mp hall p hp) c hcp
    · split at h
      · next hdrop =>
        obtain ⟨x, hx, -⟩ := Option.map_eq_some_iff.mp h
        have hne := List.splitOn_ne_nil ':' cs
        rw [← List.dropLast_append_getLast hne] at hp
        rcases List.mem_append.mp hp with hp | hp
        · exact isIpv6Char_of_group (List.all_eq_true.mp hdrop p hp) c hcp
        · rw [List.getLast?_eq_some_getLast hne] at hx
          rw [List.mem_singleton.mp hp] at hcp
          exact isIpv6Char_of_parseIpv4 hx c hcp
      · cases h

theorem splitDoubleColon_eq {cs head tail : List Char} (h : splitDoubleColon cs = some (head, tail)) :
    cs = head ++ ':' :: ':' :: tail := by
  induction cs generalizing head with
  | nil => cases h
  | cons c cs ih =>
    unfold splitDoubleColon at h
    split at h
    · next e =>
      cases h
      rw [e]
      rfl
    · next e =>
      obtain ⟨rfl, rfl⟩ := List.cons.inj e
      obtain ⟨⟨a, b⟩, hab, e⟩ := Option.map_eq_some_iff.mp h
      cases e
      rw [ih hab]
      rfl
    · cases h

theorem parseIpv6_chars {cs : List Char} {x : Ipv6Addr} (h : parseIpv6 cs = some x) :
    ∀ c ∈ cs, isIpv6Char c = true := by
  unfold parseIpv6 at h
  split at h
  · obtain ⟨gs, hgs, -⟩ := Option.bind_eq_some_iff.mp h
    exact parseGroups_chars hgs
  · next head tail hsplit =>
    have side : ∀ (l : List Char) (gs : List (Fin 65536)),
        (if l = [] then some [] else parseGroups l) = some gs → ∀ c ∈ l, isIpv6Char c = true := by
      intro l gs hl
      split at hl
      · next e => simp [e]
      · exact parseGroups_chars hl
    split at h
    · next gs hs hleft hright =>
      intro c hc
      rw [splitDoubleColon_eq hsplit] at hc
      rcases List.mem_append.mp hc with hc | hc
      · exact side head gs hleft c hc
      · rcases List.mem_cons.mp hc with rfl | hc
        · rfl
        · rcases List.mem_cons.mp hc with rfl | hc
          · rfl
          · exact side tail hs hright c hc
    · cases h

end Afhttp

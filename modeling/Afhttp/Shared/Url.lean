import Mathlib
import Afhttp.Shared.Text

/-!
# URLs and addresses

What the source reads of a `url::Url`: scheme, host, port, path, and the text it
serializes to.  A host is a name or an address, as in `url::Host`; `host_str` writes
an IPv4 address in dotted form and an IPv6 one in brackets.

`parsesAsIpAddr` is `str::parse::<IpAddr>().is_ok()`.  An IPv4 host always parses
(`Ipv4Addr.parses`); an IPv6 host is written in brackets, so it does not, but it
also holds no dot (`Ipv6Addr.no_dot`).
-/

namespace Afhttp

open Text

structure Ipv4Addr where
  a : Fin 256
  b : Fin 256
  c : Fin 256
  d : Fin 256
  deriving DecidableEq, Repr

def Ipv4Addr.display (x : Ipv4Addr) : String :=
  x.a.val.repr ++ "." ++ x.b.val.repr ++ "." ++ x.c.val.repr ++ "." ++ x.d.val.repr

/-- For the numerals among the segments of an address. -/
instance neZeroSegment : NeZero 65536 := ⟨Nat.succ_ne_zero 65535⟩

structure Ipv6Addr where
  segments : Vector (Fin 65536) 8
  deriving DecidableEq

/-- The longest run of two or more zero segments, as `(start, end)`; the first one of its length. -/
def Ipv6Addr.longestZeroSequence (x : Ipv6Addr) : Option (Nat × Nat) :=
  let zeros := fun i : Nat => ((x.segments.toList.drop i).takeWhile (· == 0)).length
  (List.range 8).foldl (fun best i =>
    if 2 ≤ zeros i && (match best with | none => 0 | some (s, e) => e - s) < zeros i then
      some (i, i + zeros i) else best) none

/-- The segments in lower-case hexadecimal, the longest zero run written `::`. -/
def Ipv6Addr.display (x : Ipv6Addr) : String :=
  let hex := fun l : List (Fin 65536) =>
    String.intercalate ":" (l.map fun s => String.ofList (Nat.toDigits 16 s.val))
  let segs := x.segments.toList
  match x.longestZeroSequence with
  | none => hex segs
  | some (s, e) => hex (segs.take s) ++ "::" ++ hex (segs.drop e)

inductive Host where
  | domain (name : String)
  | ipv4 (addr : Ipv4Addr)
  | ipv6 (addr : Ipv6Addr)
  deriving DecidableEq

/-- `Url::host_str`. -/
def Host.str : Host → String
  | .domain name => name
  | .ipv4 addr => addr.display
  | .ipv6 addr => "[" ++ addr.display ++ "]"

structure Url where
  scheme : String
  host : Option Host
  port : Option Nat
  path : String
  /-- `Url::as_str`. -/
  serialization : String
  deriving DecidableEq

def Url.hostStr (u : Url) : Option String := u.host.map Host.str

def Url.knownDefaultPort (u : Url) : Option Nat :=
  if u.scheme = "http" ∨ u.scheme = "ws" then some 80
  else if u.scheme = "https" ∨ u.scheme = "wss" then some 443
  else if u.scheme = "ftp" then some 21
  else none

def Url.portOrKnownDefault (u : Url) : Option Nat := u.port.or u.knownDefaultPort

/-- The tuple origin of a URL of a special scheme; `none` is an opaque origin. -/
def Url.origin (u : Url) : Option (String × Host × Nat) :=
  match u.knownDefaultPort, u.host, u.portOrKnownDefault with
  | some _, some host, some port => some (u.scheme, host, port)
  | _, _, _ => none

/-- `self.origin() == other.origin()`: an opaque origin equals no other. -/
def Url.sameOrigin (u v : Url) : Bool :=
  match u.origin, v.origin with
  | some o, some o' => o == o'
  | _, _ => false

theorem Url.sameOrigin_iff (u v : Url) :
    u.sameOrigin v = true ↔ ∃ o, u.origin = some o ∧ v.origin = some o := by
  unfold Url.sameOrigin
  cases hu : u.origin with
  | none => simp
  | some o =>
    cases hv : v.origin with
    | none => simp
    | some o' =>
      rw [beq_iff_eq]
      constructor
      · rintro rfl
        exact ⟨o, rfl, rfl⟩
      · rintro ⟨o'', h, h'⟩
        rw [Option.some.inj h, Option.some.inj h']

/-- Scheme, host and effective port. -/
def Url.originTriple (u : Url) : String × Option Host × Option Nat := (u.scheme, u.host, u.portOrKnownDefault)

theorem Url.originTriple_eq_of_sameOrigin {u v : Url} (h : u.sameOrigin v = true) :
    u.originTriple = v.originTriple := by
  have of_origin : ∀ w : Url, ∀ o, w.origin = some o → w.originTriple = (o.1, some o.2.1, some o.2.2) := by
    intro w o ho
    unfold Url.origin at ho
    split at ho
    · next hh hp =>
      cases ho
      unfold Url.originTriple
      rw [hh, hp]
    · cases ho
  obtain ⟨o, hu, hv⟩ := (u.sameOrigin_iff v).mp h
  rw [of_origin u o hu, of_origin v o hv]

/-! ## Parsing an address -/

/-- A decimal octet: one to three digits, no leading zero, at most 255. -/
def parsesAsOctet (cs : List Char) : Bool :=
  cs.all Char.isDigit && 1 ≤ cs.length && cs.length ≤ 3 && !(cs.head? == some '0' && 1 < cs.length) &&
    cs.foldl (fun n c => n * 10 + (c.toNat - '0'.toNat)) 0 ≤ 255

def parsesAsIpv4 (cs : List Char) : Bool :=
  match cs.splitOn '.' with
  | [a, b, c, d] => parsesAsOctet a && parsesAsOctet b && parsesAsOctet c && parsesAsOctet d
  | _ => false

def isHexDigit (c : Char) : Bool := c.isDigit || ('a' ≤ c && c ≤ 'f') || ('A' ≤ c && c ≤ 'F')

/-- A group: one to four hexadecimal digits. -/
def parsesAsGroup (cs : List Char) : Bool := cs.all isHexDigit && 1 ≤ cs.length && cs.length ≤ 4

/-- How many groups `cs` writes, a trailing IPv4 address counting for two. -/
def groups (cs : List Char) : Option Nat :=
  let parts := cs.splitOn ':'
  if parts.all parsesAsGroup then some parts.length
  else if parts.dropLast.all parsesAsGroup && parsesAsIpv4 (parts.getLast?.getD []) then
    some (parts.length + 1)
  else none

/-- The two sides of the first `::`. -/
def splitDoubleColon : List Char → Option (List Char × List Char)
  | ':' :: ':' :: rest => some ([], rest)
  | c :: rest => (splitDoubleColon rest).map fun p => (c :: p.1, p.2)
  | [] => none

def parsesAsIpv6 (cs : List Char) : Bool :=
  match splitDoubleColon cs with
  | none => groups cs == some 8
  | some (head, tail) =>
    match (if head = [] then some 0 else groups head), (if tail = [] then some 0 else groups tail) with
    -- an IPv4 part is read at the end only
    | some n, some m => (head = [] || (head.splitOn ':').all parsesAsGroup) && n + m ≤ 7
    | _, _ => false

def parsesAsIpAddr (s : String) : Bool := parsesAsIpv4 s.toList || parsesAsIpv6 s.toList

/-- The host is an IP address, in either form or as a name that parses as one. -/
def Host.isAddress : Host → Bool
  | .domain name => parsesAsIpAddr (canon name)
  | .ipv4 _ => true
  | .ipv6 _ => true

/-! ## What a host writes -/

theorem octet_spec : ∀ n : Fin 256, parsesAsOctet (Nat.toDigits 10 n.val) = true ∧
    '.' ∉ Nat.toDigits 10 n.val ∧ (Nat.toDigits 10 n.val).map Char.toLower = Nat.toDigits 10 n.val := by
  decide +kernel

theorem Ipv4Addr.toList_display (x : Ipv4Addr) :
    x.display.toList = ['.'].intercalate [Nat.toDigits 10 x.a.val, Nat.toDigits 10 x.b.val,
      Nat.toDigits 10 x.c.val, Nat.toDigits 10 x.d.val] := by
  simp [Ipv4Addr.display, List.intercalate, List.intersperse]

theorem Ipv4Addr.parses (x : Ipv4Addr) : parsesAsIpv4 x.display.toList = true := by
  unfold parsesAsIpv4
  rw [x.toList_display, List.splitOn_intercalate]
  · simp only [(octet_spec _).1, Bool.and_self]
  · intro l hl
    simp only [List.mem_cons, List.not_mem_nil, or_false] at hl
    rcases hl with rfl | rfl | rfl | rfl <;> exact (octet_spec _).2.1
  · simp

/-- The dotted form has no leading dot and no letter. -/
theorem Ipv4Addr.canon_display (x : Ipv4Addr) : canon x.display = x.display := by
  have hlow : x.display.toList.map Char.toLower = x.display.toList := by
    rw [x.toList_display]
    simp only [List.intercalate, List.intersperse, List.flatten_cons, List.flatten_nil,
      List.map_append, (octet_spec _).2.2, List.map_cons, List.map_nil]
    rfl
  have hne : Nat.toDigits 10 x.a.val ≠ [] := by
    intro h
    have := (octet_spec x.a).1
    rw [h] at this
    cases this
  have htrim : trimStartMatches '.' x.display = x.display := by
    apply String.toList_inj.mp
    rw [toList_trimStartMatches, x.toList_display]
    obtain ⟨c, cs, hc⟩ := List.exists_cons_of_ne_nil hne
    have hdot : c ≠ '.' := by
      rintro rfl
      exact (octet_spec x.a).2.1 (by rw [hc]; exact List.mem_cons_self)
    simp [List.intercalate, List.intersperse, hc, hdot]
  apply String.toList_inj.mp
  rw [canon, htrim, toList_toAsciiLowercase, hlow]

theorem digitChar_ne_dot (n : Nat) : Nat.digitChar n ≠ '.' := by
  grind [Nat.digitChar]

theorem dot_notMem_toDigits (b n : Nat) : '.' ∉ Nat.toDigits b n := by
  have core : ∀ fuel m ds, '.' ∉ ds → '.' ∉ Nat.toDigitsCore b fuel m ds := by
    intro fuel
    induction fuel with
    | zero => intro m ds h; exact h
    | succ fuel ih =>
      intro m ds h
      have h' : '.' ∉ (m % b).digitChar :: ds := by
        rw [List.mem_cons, not_or]
        exact ⟨fun e => digitChar_ne_dot _ e.symm, h⟩
      rw [Nat.toDigitsCore]
      by_cases hm : m / b = 0
      · simpa [hm] using h'
      · simpa [hm] using ih _ _ h'
  exact core _ _ _ (by simp)

theorem dot_notMem_intercalate {l : List (List Char)} (h : ∀ cs ∈ l, '.' ∉ cs) :
    '.' ∉ [':'].intercalate l := by
  induction l with
  | nil => simp
  | cons cs l ih =>
    by_cases hl : l = []
    · subst hl
      simpa using h
    · rw [List.intercalate_cons_of_ne_nil hl]
      have := ih fun cs' h' => h cs' (List.mem_cons_of_mem _ h')
      simp [h cs List.mem_cons_self, this]

/-- An IPv6 host holds no dot. -/
theorem Ipv6Addr.no_dot (x : Ipv6Addr) : '.' ∉ (Host.ipv6 x).str.toList := by
  have hex : ∀ l : List (Fin 65536), '.' ∉
      (String.intercalate ":" (l.map fun s => String.ofList (Nat.toDigits 16 s.val))).toList := by
    intro l
    rw [String.toList_intercalate, List.map_map]
    apply dot_notMem_intercalate
    intro cs hcs
    obtain ⟨s, -, rfl⟩ := List.mem_map.mp hcs
    simpa using dot_notMem_toDigits 16 s.val
  have hd : '.' ∉ x.display.toList := by
    unfold Ipv6Addr.display
    simp only []
    split
    · exact hex _
    · simp only [String.toList_append, List.mem_append, not_or]
      exact ⟨⟨hex _, by decide⟩, hex _⟩
  simp [Host.str, hd]

end Afhttp

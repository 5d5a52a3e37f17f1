import Afhttp.Host.Headers
import Afhttp.Shared.IpAddr
import Mathlib

/-!
# A host without a token

`reachable_without_token` and `is_loopback_authority` of `host/listener/mod.rs`: such a host is
bound to loopback, and tells its own clients from web pages by three headers.

    what a local client's headers look like               (LocalRequest)
    when only such headers are let through                 (reachable_local_iff)

The authority is read by hand.  What follows a `]` is not looked at, nor is what stands in
brackets an IPv6 address of need; an IPv6 address passes without brackets; and a `Host` that
`to_str` cannot read passes for one that is not there.
-/

namespace Afhttp.Host

open Text

/-- The host of an authority: what the brackets hold, or what stands before a port. -/
def authorityHost (authority : String) : String :=
  match stripPrefix authority "[" with
  | some bracketed => beforeFirst ']' bracketed
  | none =>
    match rsplitOnce ':' authority with
    | some (host, port) => if port.toList.all Char.isDigit then host else authority
    | none => authority

/-- The last expression of `is_loopback_authority`. -/
def isLoopbackHost (host : String) : Bool :=
  eqIgnoreAsciiCase host "localhost" || (parseIpAddr host).any IpAddr.isLoopback

/-- `localhost`, or a loopback IP literal, with or without a port. -/
def isLoopbackAuthority (authority : String) : Bool := isLoopbackHost (authorityHost authority)

def fromAnotherSite (headers : HeaderMap) : Bool :=
  (headers.get "sec-fetch-site").any fun site =>
    !(site.toStr == some "same-origin" || site.toStr == some "none")

def topLevel (headers : HeaderMap) : Bool :=
  (headers.get "sec-fetch-dest").any fun dest => dest == HeaderValue.ofAscii "document"

def originOf (scheme host : String) : String := scheme ++ "://" ++ host

def reachableWithoutToken (headers : HeaderMap) : Bool :=
  if fromAnotherSite headers && !topLevel headers then false
  else
    let host := (headers.get "host").bind HeaderValue.toStr
    if host.any fun h => !isLoopbackAuthority h then false
    else
      match (headers.get "origin").map HeaderValue.toStr with
      | none => true
      | some (some origin) =>
        host.any fun h =>
          eqIgnoreAsciiCase origin (originOf "http" h) || eqIgnoreAsciiCase origin (originOf "https" h)
      | some none => false

/-! ## A local client -/

/-- Nothing, or `:` and digits. -/
def IsPort (s : String) : Prop := s = "" ∨ ∃ digits : String, s = ":" ++ digits ∧ ∀ c ∈ digits.toList, c.isDigit

/-- `127.0.0.1`, or another of its block. -/
def IsLoopbackV4 (s : String) : Prop := ∃ x, parseIpAddr s = some (.v4 x) ∧ x.isLoopback

/-- `::1`, however it is written. -/
def IsLoopbackV6 (s : String) : Prop := ∃ x, parseIpAddr s = some (.v6 x) ∧ x.isLoopback

/-- The names of the loopback interface, an IPv6 one in brackets. -/
def IsLoopbackName (s : String) : Prop :=
  eqIgnoreAsciiCase s "localhost" ∨ IsLoopbackV4 s ∨ ∃ a, s = "[" ++ a ++ "]" ∧ IsLoopbackV6 a

/-- A name of the loopback interface, a port behind it, and nothing else. -/
def IsLocalAuthority (s : String) : Prop := ∃ name port, s = name ++ port ∧ IsLoopbackName name ∧ IsPort port

/-- `Host` is not there, or is read and names this machine. -/
def HostIsLocal (headers : HeaderMap) : Prop :=
  ∀ v, headers.get "host" = some v → ∃ s, v.toStr = some s ∧ IsLocalAuthority s

/-- `Origin` is not there, or is read and is that of `Host`.  Schemes and host names are compared
in any case. -/
def OriginIsHost (headers : HeaderMap) : Prop :=
  ∀ v, headers.get "origin" = some v → ∃ o w h, v.toStr = some o ∧ headers.get "host" = some w ∧
    w.toStr = some h ∧ (eqIgnoreAsciiCase o (originOf "http" h) ∨ eqIgnoreAsciiCase o (originOf "https" h))

/-- `Sec-Fetch-Site` is not there, or is read and is this site or none, or a window is being opened. -/
def SiteIsOwn (headers : HeaderMap) : Prop :=
  ∀ v, headers.get "sec-fetch-site" = some v → v.toStr = some "same-origin" ∨ v.toStr = some "none" ∨
    headers.get "sec-fetch-dest" = some (HeaderValue.ofAscii "document")

/-- The headers of a local client. -/
structure LocalRequest (headers : HeaderMap) : Prop where
  host : HostIsLocal headers
  origin : OriginIsHost headers
  site : SiteIsOwn headers

/-! ## What else passes -/

/-- In brackets, but not as an IPv6 address of the loopback interface with a port behind it. -/
def IsStrayBracket (s : String) : Prop :=
  ∃ a r, s = "[" ++ a ++ r ∧ ']' ∉ a.toList ∧ (r = "" ∨ startsWith r "]") ∧ isLoopbackHost a ∧
    ¬ (IsLoopbackV6 a ∧ ∃ port, r = "]" ++ port ∧ IsPort port)

/-- An IPv6 address of the loopback interface with no brackets, and a port behind it unless its own
last part cannot be a port. -/
def IsBareV6 (s : String) : Prop :=
  ¬ startsWith s "[" ∧ ∃ a, IsLoopbackV6 a ∧
    ((∃ digits : String, s = a ++ ":" ++ digits ∧ ∀ c ∈ digits.toList, c.isDigit) ∨
      (s = a ∧ ¬ ∃ b digits : String, s = b ++ ":" ++ digits ∧ ∀ c ∈ digits.toList, c.isDigit))

/-- A `Host` that is not a local authority and is let through. -/
def IsOddHost (v : HeaderValue) : Prop :=
  v.toStr = none ∨ ∃ s, v.toStr = some s ∧ (IsStrayBracket s ∨ IsBareV6 s)

/-! ## The host of an authority -/

theorem authorityHost_bracket {a r : String} (ha : ']' ∉ a.toList)
    (hr : r = "" ∨ ∃ t, r = String.ofList [']'] ++ t) : authorityHost ("[" ++ a ++ r) = a := by
  have e : stripPrefix ("[" ++ a ++ r) "[" = some (a ++ r) := by
    rw [stripPrefix_eq_some, String.append_assoc]
  unfold authorityHost
  rw [e]
  exact beforeFirst_append ha hr

theorem authorityHost_of_not_bracket {s : String} (hs : ¬ startsWith s "[") :
    authorityHost s = match rsplitOnce ':' s with
      | some (host, port) => if port.toList.all Char.isDigit then host else s
      | none => s := by
  have e : stripPrefix s "[" = none := by
    unfold stripPrefix
    rw [if_neg hs]
  unfold authorityHost
  rw [e]

theorem colon_notMem_of_digits {digits : String} (h : ∀ c ∈ digits.toList, c.isDigit) :
    ':' ∉ digits.toList := by
  intro hm
  exact absurd (h ':' hm) (by decide)

theorem authorityHost_port {a digits : String} (hs : ¬ startsWith (a ++ ":" ++ digits) "[")
    (hd : ∀ c ∈ digits.toList, c.isDigit) : authorityHost (a ++ ":" ++ digits) = a := by
  rw [authorityHost_of_not_bracket hs]
  have e : rsplitOnce ':' (a ++ ":" ++ digits) = some (a, digits) :=
    rsplitOnce_append a (colon_notMem_of_digits hd)
  rw [e]
  exact if_pos (List.all_eq_true.mpr hd)

theorem authorityHost_no_port {s : String} (hs : ¬ startsWith s "[")
    (hp : ¬ ∃ b digits : String, s = b ++ ":" ++ digits ∧ ∀ c ∈ digits.toList, c.isDigit) :
    authorityHost s = s := by
  rw [authorityHost_of_not_bracket hs]
  match h : rsplitOnce ':' s with
  | none => rfl
  | some (b, port) =>
    obtain ⟨e, -⟩ := rsplitOnce_eq_some_iff.mp h
    refine if_neg fun hall => hp ⟨b, port, e, List.all_eq_true.mp hall⟩

/-! ## The names of the loopback interface -/

theorem isLoopbackHost_iff (s : String) :
    isLoopbackHost s = true ↔ eqIgnoreAsciiCase s "localhost" = true ∨ IsLoopbackV4 s ∨ IsLoopbackV6 s := by
  unfold isLoopbackHost IsLoopbackV4 IsLoopbackV6
  rw [Bool.or_eq_true]
  apply or_congr_right
  match parseIpAddr s with
  | none => simp
  | some (.v4 x) => simp [IpAddr.isLoopback]
  | some (.v6 x) => simp [IpAddr.isLoopback]

theorem parseIpAddr_v4 {s : String} {x : Ipv4Addr} (h : parseIpAddr s = some (.v4 x)) :
    parseIpv4 s.toList = some x := by
  unfold parseIpAddr at h
  match h4 : parseIpv4 s.toList with
  | some y =>
    rw [h4] at h
    cases h
    rfl
  | none =>
    rw [h4] at h
    obtain ⟨z, -, hz⟩ := Option.map_eq_some_iff.mp (show (parseIpv6 s.toList).map IpAddr.v6 = _ from h)
    cases hz

theorem parseIpAddr_v6 {s : String} {x : Ipv6Addr} (h : parseIpAddr s = some (.v6 x)) :
    parseIpv6 s.toList = some x := by
  unfold parseIpAddr at h
  match h4 : parseIpv4 s.toList with
  | some y =>
    rw [h4] at h
    cases h
  | none =>
    rw [h4] at h
    obtain ⟨z, hz, e⟩ := Option.map_eq_some_iff.mp (show (parseIpv6 s.toList).map IpAddr.v6 = _ from h)
    cases e
    exact hz

theorem IsLoopbackV4.chars {s : String} (h : IsLoopbackV4 s) : ∀ c ∈ s.toList, c.isDigit = true ∨ c = '.' := by
  obtain ⟨x, hx, -⟩ := h
  exact parseIpv4_chars (parseIpAddr_v4 hx)

theorem IsLoopbackV6.chars {s : String} (h : IsLoopbackV6 s) : ∀ c ∈ s.toList, isIpv6Char c = true := by
  obtain ⟨x, hx, -⟩ := h
  exact parseIpv6_chars (parseIpAddr_v6 hx)

theorem not_v6_of_v4 {s : String} (h : IsLoopbackV4 s) : ¬ IsLoopbackV6 s := by
  obtain ⟨x, hx, -⟩ := h
  rintro ⟨y, hy, -⟩
  rw [hx] at hy
  cases hy

/-- A letter `l` is no part of an address. -/
theorem not_isIpv6Char_l {c : Char} (h : c.toLower = 'l') : isIpv6Char c = false := by
  have hc : c = 'l' ∨ c = 'L' := by
    unfold Char.toLower at h
    split at h
    · next hup =>
      right
      have h1 : c.val.toNat ≤ 90 := by simpa [UInt32.le_iff_toNat_le] using hup.2
      have hv := congrArg (fun d : Char => d.val.toNat) h
      simp only [UInt32.toNat_add] at hv
      have e : ('a'.val - 'A'.val).toNat = 32 := rfl
      have e' : ('l'.val).toNat = 108 := rfl
      rw [e, e'] at hv
      have h2 : c.val.toNat = ('L'.val).toNat := by
        show c.val.toNat = 76
        omega
      exact Char.ext (UInt32.toNat_inj.mp h2)
    · exact Or.inl h
  rcases hc with rfl | rfl
  · decide
  · decide

theorem localhost_chars {s : String} (h : eqIgnoreAsciiCase s "localhost" = true) :
    (∃ c ∈ s.toList, isIpv6Char c = false) ∧ (∀ c ∈ s.toList, c ≠ ':' ∧ c ≠ '[') := by
  rw [eqIgnoreAsciiCase_iff] at h
  have e := congrArg String.toList h
  simp only [toList_toAsciiLowercase] at e
  constructor
  · match hs : s.toList, e with
    | [], e => cases e
    | c :: cs, e => exact ⟨c, List.mem_cons_self, not_isIpv6Char_l (List.cons.inj e).1⟩
  · intro c hc
    have hmem : c.toLower ∈ "localhost".toList.map Char.toLower := e ▸ List.mem_map_of_mem hc
    constructor
    · rintro rfl
      exact absurd hmem (by decide)
    · rintro rfl
      exact absurd hmem (by decide)

theorem not_v6_of_localhost {s : String} (h : eqIgnoreAsciiCase s "localhost" = true) : ¬ IsLoopbackV6 s := by
  intro h6
  obtain ⟨⟨c, hc, hno⟩, -⟩ := localhost_chars h
  rw [h6.chars c hc] at hno
  cases hno

/-! ## What is let through -/

theorem bracket_notMem_v6 {a : String} (h : IsLoopbackV6 a) : ']' ∉ a.toList := by
  intro hm
  exact absurd (h.chars _ hm) (by decide)

/-- Whatever names the loopback interface for the parser, its text is of one of three kinds. -/
theorem isLoopbackAuthority_cases {s : String} (h : isLoopbackAuthority s = true) :
    IsLocalAuthority s ∨ IsStrayBracket s ∨ IsBareV6 s := by
  unfold isLoopbackAuthority at h
  by_cases hb : startsWith s "["
  · obtain ⟨t, rfl⟩ := (startsWith_iff s "[").mp hb
    obtain ⟨a, r, rfl, ha, hr⟩ := exists_append_first ']' t
    rw [← String.append_assoc, authorityHost_bracket ha hr] at h
    by_cases hv6 : IsLoopbackV6 a ∧ ∃ port, r = "]" ++ port ∧ IsPort port
    · obtain ⟨hv6, port, rfl, hport⟩ := hv6
      left
      refine ⟨"[" ++ a ++ "]", port, ?_, Or.inr (Or.inr ⟨a, rfl, hv6⟩), hport⟩
      rw [← String.append_assoc, ← String.append_assoc]
    · right
      left
      refine ⟨a, r, (String.append_assoc ..).symm, ha, ?_, h, hv6⟩
      exact hr.imp_right fun ⟨t, ht⟩ => ht ▸ startsWith_append _ t
  · by_cases hp : ∃ b digits : String, s = b ++ ":" ++ digits ∧ ∀ c ∈ digits.toList, c.isDigit
    · obtain ⟨b, digits, rfl, hd⟩ := hp
      rw [authorityHost_port hb hd, isLoopbackHost_iff] at h
      have hlocal : IsLoopbackName b → IsLocalAuthority (b ++ ":" ++ digits) := by
        intro hn
        exact ⟨b, ":" ++ digits, String.append_assoc .., hn, Or.inr ⟨digits, rfl, hd⟩⟩
      rcases h with h | h | h
      · exact Or.inl (hlocal (Or.inl h))
      · exact Or.inl (hlocal (Or.inr (Or.inl h)))
      · exact Or.inr (Or.inr ⟨hb, b, h, Or.inl ⟨digits, rfl, hd⟩⟩)
    · rw [authorityHost_no_port hb hp, isLoopbackHost_iff] at h
      have hlocal : IsLoopbackName s → IsLocalAuthority s := by
        intro hn
        exact ⟨s, "", by simp, hn, Or.inl rfl⟩
      rcases h with h | h | h
      · exact Or.inl (hlocal (Or.inl h))
      · exact Or.inl (hlocal (Or.inr (Or.inl h)))
      · exact Or.inr (Or.inr ⟨hb, s, h, Or.inr ⟨rfl, hp⟩⟩)

theorem IsStrayBracket.reached {s : String} (h : IsStrayBracket s) : isLoopbackAuthority s = true := by
  obtain ⟨a, r, rfl, ha, hr, hname, -⟩ := h
  unfold isLoopbackAuthority
  rw [authorityHost_bracket ha, hname]
  exact hr.imp_right fun h => (startsWith_iff r "]").mp h

theorem IsBareV6.reached {s : String} (h : IsBareV6 s) : isLoopbackAuthority s = true := by
  obtain ⟨hb, a, hv6, ⟨digits, rfl, hd⟩ | ⟨rfl, hp⟩⟩ := h
  · unfold isLoopbackAuthority
    rw [authorityHost_port hb hd, isLoopbackHost_iff]
    exact Or.inr (Or.inr hv6)
  · unfold isLoopbackAuthority
    rw [authorityHost_no_port hb hp, isLoopbackHost_iff]
    exact Or.inr (Or.inr hv6)

/-- A name of the loopback interface without brackets holds no colon, and is no IPv6 address. -/
theorem IsLoopbackName.bracket_or {name : String} (h : IsLoopbackName name) :
    (∃ a, name = "[" ++ a ++ "]" ∧ IsLoopbackV6 a) ∨
      ((∀ c ∈ name.toList, c ≠ ':' ∧ c ≠ '[') ∧ ¬ IsLoopbackV6 name) := by
  rcases h with h | h | h
  · exact Or.inr ⟨(localhost_chars h).2, not_v6_of_localhost h⟩
  · refine Or.inr ⟨?_, not_v6_of_v4 h⟩
    intro c hc
    rcases h.chars c hc with hd | rfl
    · constructor
      · rintro rfl
        exact absurd hd (by decide)
      · rintro rfl
        exact absurd hd (by decide)
    · decide
  · exact Or.inl h

theorem IsPort.bracket_notMem {port : String} (h : IsPort port) : '[' ∉ port.toList := by
  rcases h with rfl | ⟨digits, rfl, hd⟩
  · simp
  · rw [String.toList_append, List.mem_append, not_or]
    refine ⟨by decide, fun hm => ?_⟩
    exact absurd (hd _ hm) (by decide)

theorem IsStrayBracket.not_local {s : String} (h : IsStrayBracket s) : ¬ IsLocalAuthority s := by
  obtain ⟨a, r, rfl, ha, hr, -, hstray⟩ := h
  rintro ⟨name, port, e, hname, hport⟩
  rcases hname.bracket_or with ⟨a', rfl, hv6⟩ | ⟨hno, -⟩
  · have ha' := bracket_notMem_v6 hv6
    have e' : a ++ r = a' ++ ("]" ++ port) := by
      apply String.toList_inj.mp
      have := congrArg String.toList e
      simpa using this
    have haa : a = a' := by
      have h1 := beforeFirst_append ha (hr.imp_right fun h => (startsWith_iff r "]").mp h)
      have h2 := beforeFirst_append (r := "]" ++ port) ha' (Or.inr ⟨port, rfl⟩)
      rw [← h1, ← h2, e']
    subst haa
    have hrp : r = "]" ++ port := by
      apply String.toList_inj.mp
      have := congrArg String.toList e'
      simpa using this
    exact hstray ⟨hv6, port, hrp, hport⟩
  · have hmem : '[' ∈ (name ++ port).toList := by
      rw [← e]
      simp
    rw [String.toList_append, List.mem_append] at hmem
    rcases hmem with hm | hm
    · exact (hno _ hm).2 rfl
    · exact hport.bracket_notMem hm

theorem IsBareV6.not_local {s : String} (h : IsBareV6 s) : ¬ IsLocalAuthority s := by
  obtain ⟨hb, a, hv6, hkind⟩ := h
  rintro ⟨name, port, rfl, hname, hport⟩
  rcases hname.bracket_or with ⟨a', rfl, -⟩ | ⟨hno, hnot6⟩
  · apply hb
    rw [String.append_assoc, String.append_assoc]
    exact startsWith_append _ _
  · rcases hkind with ⟨digits, e, hd⟩ | ⟨e, hp⟩
    · rcases hport with rfl | ⟨digits', rfl, hd'⟩
      · have hmem : ':' ∈ (a ++ ":" ++ digits).toList := by simp
        rw [← e, String.append_empty] at hmem
        exact (hno _ hmem).1 rfl
      · have h1 := rsplitOnce_append a (colon_notMem_of_digits hd)
        have h2 := rsplitOnce_append name (colon_notMem_of_digits hd')
        have e' : name ++ String.ofList [':'] ++ digits' = a ++ String.ofList [':'] ++ digits := by
          rw [String.append_assoc]
          exact e
        rw [e', h1] at h2
        cases h2
        exact hnot6 hv6
    · rcases hport with rfl | ⟨digits', rfl, hd'⟩
      · rw [String.append_empty] at e
        exact hnot6 (e ▸ hv6)
      · exact hp ⟨name, digits', (String.append_assoc ..).symm, hd'⟩

/-- An authority passes for loopback without being that of this machine exactly if it is odd. -/
theorem odd_iff (s : String) :
    isLoopbackAuthority s = true ∧ ¬ IsLocalAuthority s ↔ IsStrayBracket s ∨ IsBareV6 s := by
  constructor
  · rintro ⟨h, hno⟩
    exact (isLoopbackAuthority_cases h).resolve_left hno
  · rintro (h | h)
    · exact ⟨h.reached, h.not_local⟩
    · exact ⟨h.reached, h.not_local⟩

/-! ## The three rules -/

theorem topLevel_iff (headers : HeaderMap) :
    topLevel headers = true ↔ headers.get "sec-fetch-dest" = some (HeaderValue.ofAscii "document") := by
  unfold topLevel
  match headers.get "sec-fetch-dest" with
  | none => simp
  | some dest => simp

theorem siteIsOwn_iff (headers : HeaderMap) :
    (fromAnotherSite headers && !topLevel headers) = false ↔ SiteIsOwn headers := by
  unfold SiteIsOwn
  rw [Bool.and_eq_false_iff, Bool.not_eq_false', topLevel_iff]
  unfold fromAnotherSite
  match headers.get "sec-fetch-site" with
  | none => simp
  | some site =>
    simp only [Option.any_some, Option.some.injEq, forall_eq', Bool.not_eq_false', Bool.or_eq_true, beq_iff_eq,
      or_assoc]

/-- What the code makes of a `Host`: one that is not read is not there. -/
def HostPasses (headers : HeaderMap) : Prop :=
  ∀ v, headers.get "host" = some v → ∀ s, v.toStr = some s → isLoopbackAuthority s = true

theorem hostPasses_iff (headers : HeaderMap) :
    ((headers.get "host").bind HeaderValue.toStr).any (fun h => !isLoopbackAuthority h) = false ↔
      HostPasses headers := by
  unfold HostPasses
  match headers.get "host" with
  | none => simp
  | some v =>
    match hv : v.toStr with
    | none => simp [hv]
    | some s => simp [hv]

theorem reachableWithoutToken_iff (headers : HeaderMap) :
    reachableWithoutToken headers = true ↔ SiteIsOwn headers ∧ HostPasses headers ∧ OriginIsHost headers := by
  unfold reachableWithoutToken
  by_cases hsite : (fromAnotherSite headers && !topLevel headers) = true
  · rw [if_pos hsite]
    have hno : ¬ SiteIsOwn headers := fun h => by
      rw [(siteIsOwn_iff headers).mpr h] at hsite
      cases hsite
    simp [hno]
  · rw [if_neg hsite]
    have hown := (siteIsOwn_iff headers).mp (Bool.not_eq_true _ ▸ hsite)
    simp only [hown, true_and]
    by_cases hhost : ((headers.get "host").bind HeaderValue.toStr).any (fun h => !isLoopbackAuthority h) = true
    · rw [if_pos hhost]
      have hno : ¬ HostPasses headers := fun h => by
        rw [(hostPasses_iff headers).mpr h] at hhost
        cases hhost
      simp [hno]
    · rw [if_neg hhost]
      have hpass := (hostPasses_iff headers).mp (Bool.not_eq_true _ ▸ hhost)
      simp only [hpass, true_and]
      unfold OriginIsHost
      match headers.get "origin" with
      | none => simp
      | some v =>
        match hv : v.toStr with
        | none => simp [hv]
        | some o =>
          match headers.get "host" with
          | none => simp [hv]
          | some w =>
            match hw : w.toStr with
            | none => simp [hv, hw]
            | some h => simp [hv, hw]

theorem hostIsLocal_iff_of_passes {headers : HeaderMap} (h : HostPasses headers) :
    HostIsLocal headers ↔ ¬ ∃ v, headers.get "host" = some v ∧ IsOddHost v := by
  constructor
  · rintro hlocal ⟨v, hv, hodd⟩
    obtain ⟨s, hs, hloc⟩ := hlocal v hv
    rcases hodd with hnone | ⟨s', hs', hodd⟩
    · rw [hs] at hnone
      cases hnone
    · rw [hs] at hs'
      cases hs'
      exact ((odd_iff s).mpr hodd).2 hloc
  · intro hno v hv
    match hs : v.toStr with
    | none => exact absurd ⟨v, hv, Or.inl hs⟩ hno
    | some s =>
      refine ⟨s, rfl, ?_⟩
      by_contra hloc
      exact hno ⟨v, hv, Or.inr ⟨s, hs, (odd_iff s).mp ⟨h v hv s hs, hloc⟩⟩⟩

theorem passes_of_odd {headers : HeaderMap} {v : HeaderValue} (hv : headers.get "host" = some v)
    (h : IsOddHost v) : HostPasses headers := by
  intro w hw s hs
  rw [hv] at hw
  cases hw
  rcases h with hnone | ⟨s', hs', hodd⟩
  · rw [hs] at hnone
    cases hnone
  · rw [hs] at hs'
    cases hs'
    exact ((odd_iff s).mpr hodd).1

/-- **Who is let through.**  Every request that is let through is a local client's, except where
`Sec-Fetch-Site` and `Origin` are in order and `Host` is odd: not readable, an address in brackets
with more than a port behind it or that is no IPv6 address, or an IPv6 address without brackets. -/
theorem reachable_local_iff (headers : HeaderMap) :
    (reachableWithoutToken headers = true → LocalRequest headers) ↔
      ¬ (SiteIsOwn headers ∧ OriginIsHost headers ∧ ∃ v, headers.get "host" = some v ∧ IsOddHost v) := by
  rw [reachableWithoutToken_iff]
  constructor
  · rintro h ⟨hsite, horigin, v, hv, hodd⟩
    have hpass := passes_of_odd hv hodd
    exact (hostIsLocal_iff_of_passes hpass).mp (h ⟨hsite, hpass, horigin⟩).host ⟨v, hv, hodd⟩
  · rintro hno ⟨hsite, hpass, horigin⟩
    refine ⟨(hostIsLocal_iff_of_passes hpass).mpr fun hodd => hno ⟨hsite, horigin, hodd⟩, horigin, hsite⟩

/-- What stands behind the bracket is not looked at. -/
theorem junk_after_bracket_passes :
    ¬ ∀ headers, reachableWithoutToken headers = true → LocalRequest headers := by
  intro h
  have hlocal := (h ⟨[("host", .ofAscii "[::1]junk")]⟩ (by decide)).host
  obtain ⟨s, hs, hauth⟩ := hlocal (.ofAscii "[::1]junk") rfl
  have e : s = "[" ++ "::1" ++ "]junk" := by
    have hread : (HeaderValue.ofAscii "[::1]junk").toStr = some "[::1]junk" := by decide
    rw [hread] at hs
    exact (Option.some.inj hs).symm
  refine IsStrayBracket.not_local (s := s) ⟨"::1", "]junk", e, by decide, by decide, by decide, ?_⟩ hauth
  rintro ⟨-, port, hport, hp⟩
  have e' : port = "junk" := by
    apply String.toList_inj.mp
    have := congrArg String.toList hport
    simpa using this.symm
  rcases hp with rfl | ⟨digits, hd, -⟩
  · exact absurd e' (by decide)
  · rw [e'] at hd
    have := congrArg String.toList hd
    simp at this

end Afhttp.Host

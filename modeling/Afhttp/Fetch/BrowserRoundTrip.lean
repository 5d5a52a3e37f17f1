import Afhttp.Fetch.BrowserCookies
import Afhttp.Profile.JarScope

/-!
# From the jar to the browser and back

What the browser reports for a cookie that the jar installed and nobody touched
(`asInstalled`), and the entry that this comes back as (`asReported`).  The snapshot
should hold it unchanged.  Three things do not come back as they went: a date past the last
one of the library, which is no date to the browser; a cookie with `SameSite=None` and no
`Secure`, which is installed as secure; and a host that begins with a dot.

    the snapshot holds it unchanged iff none of the three applies          (round_trip)
    a sync of nothing but such cookies merges nothing and overwrites nothing
-/

namespace Afhttp.Fetch

open Profile Text

/-- A session cookie has the date -1. -/
def reportedDate : Option Int → Option ℚ
  | some t => some (t : ℚ)
  | none => some (-1)

/-- What the browser reports for an installed cookie. -/
def asInstalled (url : Url) (param : CookieParam) : CdpCookie where
  name := some param.name
  value := some param.value
  domain :=
    match param.domain with
    | some d => some ("." ++ d)
    | none => url.hostStr
  path := some (param.path.getD (defaultPath url))
  secure := some (param.secure.getD false)
  httpOnly := some (param.httpOnly.getD false)
  sameSite := param.sameSite
  expires := reportedDate param.expires

/-- The dates that survive: after the start of 1970, and within the years of the library. -/
def portableDate (t : Int) : Bool := 0 < t && JarEntry.dateInRange t

/-- The entry that `url` would store for `e` as the browser reports it. -/
def asReported (e : JarEntry) (url : Url) : JarEntry :=
  let dotted := startsWith (url.hostStr.getD "") "."
  { e with
    domain := if e.hostOnly then (if dotted then url.hostStr.map canon else url.hostStr) else e.domain
    hostOnly := e.hostOnly && !dotted
    expiresEpochS := e.expiresEpochS.filter portableDate
    secure := e.secure || e.sameSite == some "None" }

/-- What merges store: a path from the root, a domain without its dot. -/
structure Stored (e : JarEntry) : Prop where
  path : ∃ p, e.path = some p ∧ startsWith p "/" = true
  domain : e.hostOnly = false → ∃ d, e.domain = some d ∧ canon d = d ∧ d ≠ ""

/-! ## What merges store -/

/-- What stands before the last `c` is a beginning of the text. -/
theorem startsWith_beforeLast {c : Char} {s dir : String} (h : beforeLast c s = some dir) :
    startsWith s dir = true := by
  unfold beforeLast at h
  split at h
  · cases h
    unfold startsWith
    rw [List.isPrefixOf_iff_prefix, String.toList_ofList]
    have hsuffix : (s.toList.reverse.dropWhile (· != c)).tail <:+ s.toList.reverse :=
      (List.tail_suffix _).trans (List.dropWhile_suffix _)
    have hpre := List.reverse_prefix.mpr hsuffix
    rwa [List.reverse_reverse] at hpre
  · cases h

/-- A nonempty beginning of a path from the root is from the root. -/
theorem startsWith_of_beginning {s dir : String} (hs : startsWith s "/" = true)
    (hd : startsWith s dir = true) (hne : dir ≠ "") : startsWith dir "/" = true := by
  obtain ⟨t, rfl⟩ := (startsWith_iff s "/").mp hs
  unfold startsWith at hd ⊢
  rw [List.isPrefixOf_iff_prefix] at hd ⊢
  cases hl : dir.toList with
  | nil => exact absurd (String.toList_eq_nil_iff.mp hl) hne
  | cons c cs =>
    rw [hl, String.toList_append] at hd
    obtain ⟨rest, hrest⟩ := hd
    have hc : c = '/' := (List.cons.inj hrest).1
    rw [hc]
    exact ⟨cs, rfl⟩

theorem startsWith_defaultPath (url : Url) : startsWith (defaultPath url) "/" = true := by
  have hroot : startsWith "/" "/" = true := by decide
  unfold defaultPath
  simp only []
  split
  · exact hroot
  · next hs =>
    rw [Bool.not_eq_true', Bool.not_eq_false] at hs
    split
    · next dir hd =>
      split
      · exact hroot
      · next hne => exact startsWith_of_beginning hs (startsWith_beforeLast hd) (by simpa using hne)
    · exact hroot

theorem stored_fromSetCookie {suffixStr : String → Option String} {c : Cookie} {host : String}
    (hm : CookieJar.maySetDomain suffixStr c.domain host = true) (now : Int) (url : Url) :
    Stored (JarEntry.fromSetCookie now c url) := by
  refine ⟨?_, fun hh => ?_⟩
  · cases hp : c.path.filter (startsWith · "/") with
    | none =>
      refine ⟨defaultPath url, ?_, startsWith_defaultPath url⟩
      unfold JarEntry.fromSetCookie
      rw [hp]
      rfl
    | some p =>
      refine ⟨p, ?_, (Option.filter_eq_some_iff.mp hp).2⟩
      unfold JarEntry.fromSetCookie
      rw [hp]
      rfl
  · cases hd : c.domain with
    | none =>
      unfold JarEntry.fromSetCookie at hh
      rw [hd] at hh
      cases hh
    | some d =>
      rw [hd] at hm
      obtain ⟨hne, -⟩ := maySetDomain_some suffixStr hm
      refine ⟨canon d, ?_, canon_canon d, hne⟩
      unfold JarEntry.fromSetCookie
      rw [hd]
      rfl

/-! ## There and back -/

section
variable {lib : HttpLib}

theorem stripPrefix_dot (d : String) : (stripPrefix ("." ++ d) ".").getD ("." ++ d) = d := by
  have hs : startsWith ("." ++ d) "." = true := (startsWith_iff _ _).mpr ⟨d, rfl⟩
  unfold stripPrefix
  rw [if_pos hs]
  apply String.toList_inj.mp
  simp

/-- A domain without its dot has none to lose. -/
theorem stripPrefix_of_canon {d : String} (h : canon d = d) : (stripPrefix d ".").getD d = d := by
  have hno : ¬startsWith d "." = true := by
    intro hs
    obtain ⟨t, rfl⟩ := (startsWith_iff d ".").mp hs
    have hlen := congrArg (fun s : String => s.toList.length) h
    have hle : (t.toList.dropWhile (· == '.')).length ≤ t.toList.length := (List.dropWhile_suffix _).length_le
    simp [canon] at hlen
    omega
  unfold stripPrefix
  rw [if_neg hno]
  rfl

/-- What the jar installs of a stored entry. -/
theorem prepared_of_stored {now : Int} {e : JarEntry} (hs : Stored e) {c : PreparedCookie}
    (h : prepareCookie lib now e.toCookie "cookie_jar" = .ok c) :
    c = ⟨e.name, e.value, if e.hostOnly then none else e.domain, e.path, if e.secure then some true else none,
      if e.httpOnly then some true else none, e.toCookie.sameSite, none,
      e.expiresEpochS.filter JarEntry.dateInRange⟩ := by
  obtain ⟨-, rfl⟩ := prepareCookie_ok lib h
  have hdomain : e.toCookie.domain.map toAsciiLowercase = if e.hostOnly then none else e.domain := by
    cases hh : e.hostOnly with
    | true =>
      unfold JarEntry.toCookie
      rw [hh]
      rfl
    | false =>
      obtain ⟨d, hd, hcanon, -⟩ := hs.domain hh
      have hlow : toAsciiLowercase d = d := by
        conv_rhs => rw [← hcanon]
        conv_lhs => rw [← hcanon]
        exact toAsciiLowercase_idem _
      unfold JarEntry.toCookie
      rw [hh, hd]
      show some (toAsciiLowercase ((stripPrefix d ".").getD d)) = some d
      rw [stripPrefix_of_canon hcanon, hlow]
  have hexpires : cookieExpiresEpochS now e.toCookie = e.expiresEpochS.filter JarEntry.dateInRange := by
    unfold cookieExpiresEpochS JarEntry.toCookie
    simp only [Cookie.build]
    cases e.expiresEpochS.filter JarEntry.dateInRange <;> rfl
  rw [hdomain, hexpires]
  rfl

/-- A whole number of the range is itself as an `i64`. -/
theorem toI64_intCast {t : Int} (h : JarEntry.dateInRange t = true) : toI64 (t : ℚ) = t := by
  unfold JarEntry.dateInRange at h
  rw [Bool.and_eq_true, decide_eq_true_eq, decide_eq_true_eq] at h
  have hlow : i64Min ≤ t := by
    unfold i64Min
    omega
  have hhigh : t ≤ i64Max := by
    unfold i64Max
    omega
  unfold toI64
  rw [Rat.num_intCast, Rat.den_intCast, Nat.cast_one, Int.tdiv_one, min_eq_right hhigh, max_eq_right hlow]

/-- A date of the library comes back if it is after the start of 1970. -/
theorem cdpExpiration_installed (expires : Option Int) (h : ∀ t ∈ expires, JarEntry.dateInRange t = true) :
    cdpExpiration (reportedDate expires) = (expires.filter portableDate).map .dateTime := by
  cases expires with
  | none => rfl
  | some t =>
    have hrange := h t rfl
    unfold reportedDate cdpExpiration
    simp only []
    rw [toI64_intCast hrange]
    have hcast : (0 : ℚ) < t ↔ 0 < t := Int.cast_pos
    by_cases hpos : 0 < t
    · rw [if_pos ⟨hcast.mpr hpos, hrange⟩, Option.filter_some, if_pos]
      · rfl
      · unfold portableDate
        rw [hrange, decide_eq_true hpos]
        rfl
    · rw [if_neg (fun h => hpos (hcast.mp h.1)), Option.filter_some, if_neg]
      · rfl
      · unfold portableDate
        rw [decide_eq_false hpos]
        simp

/-- Where the browser says a cookie of `e` belongs. -/
def reportedDomain (e : JarEntry) (url : Url) : Option String :=
  if e.hostOnly then (url.hostStr.filter (startsWith · ".")).map fun d => (stripPrefix d ".").getD d
  else e.domain

/-- A stored cookie that may be prepared is secure to the browser with `SameSite=None` too. -/
theorem effectiveCookieSecure_of_stored {e : JarEntry} {c : PreparedCookie}
    (hsec : c.secure = if e.secure then some true else none) (hsame : c.sameSite = e.toCookie.sameSite)
    (hpart : c.partitioned = none) :
    effectiveCookieSecure c = (e.secure || e.sameSite == some "None") := by
  have hnone : (e.toCookie.sameSite == some .none) = (e.sameSite == some "None") := by
    unfold JarEntry.toCookie
    simp only []
    split
    · next h =>
      rw [h]
      decide
    · next h =>
      rw [h]
      decide
    · next h =>
      rw [h]
      decide
    · next h =>
      have hne : ¬e.sameSite = some "None" := h
      rw [beq_eq_false_iff_ne.mpr hne]
      rfl
  unfold effectiveCookieSecure
  rw [hsec, hsame, hpart, hnone]
  cases e.secure <;> cases e.sameSite == some "None" <;> rfl

/-- **There and back.**  The cookie that comes back from an installed one. -/
theorem cdpCookieToSetCookie_asInstalled {now : Int} {e : JarEntry} (hs : Stored e) {c : PreparedCookie}
    (h : prepareCookie lib now e.toCookie "cookie_jar" = .ok c) (url : Url) :
    ∃ sameSite, cdpCookieToSetCookie (asInstalled url (cdpCookieParam c url)) =
      some ⟨e.name, e.value, reportedDomain e url, e.path, none,
        (e.expiresEpochS.filter portableDate).map .dateTime,
        if e.secure || e.sameSite == some "None" then some true else none,
        if e.httpOnly then some true else none, sameSite, none⟩ := by
  have hc := prepared_of_stored hs h
  have heff : effectiveCookieSecure c = (e.secure || e.sameSite == some "None") :=
    effectiveCookieSecure_of_stored (by rw [hc]) (by rw [hc]) (by rw [hc])
  obtain ⟨p, hp, hroot⟩ := hs.path
  generalize hr : asInstalled url (cdpCookieParam c url) = r
  have hdomain : (r.domain.filter (startsWith · ".")).map (fun d => (stripPrefix d ".").getD d) =
      reportedDomain e url := by
    rw [← hr, hc]
    unfold asInstalled cdpCookieParam reportedDomain
    cases hh : e.hostOnly with
    | true => rfl
    | false =>
      obtain ⟨d, hd, -⟩ := hs.domain hh
      have hdot : startsWith ("." ++ d) "." = true := (startsWith_iff _ _).mpr ⟨d, rfl⟩
      rw [hd]
      show ((some ("." ++ d)).filter _).map _ = some d
      rw [Option.filter_some, if_pos hdot, Option.map_some, stripPrefix_dot]
  have hpath : r.path.filter (· ≠ "") = e.path := by
    have hpne : p ≠ "" := by
      rintro rfl
      revert hroot
      decide
    rw [← hr, hc]
    show (some (e.path.getD _)).filter _ = _
    rw [hp, Option.getD_some, Option.filter_some, if_pos (by simpa using hpne)]
  have hsecure : r.secure.getD false = (e.secure || e.sameSite == some "None") := by
    rw [← hr, ← heff]
    show (if c.secure.isSome || effectiveCookieSecure c then some (effectiveCookieSecure c) else none).getD false = _
    cases effectiveCookieSecure c <;> cases c.secure <;> rfl
  have hhttp : r.httpOnly.getD false = e.httpOnly := by
    rw [← hr, hc]
    show (if e.httpOnly then some true else none : Option Bool).getD false = _
    cases e.httpOnly <;> rfl
  have hdates : cdpExpiration r.expires = (e.expiresEpochS.filter portableDate).map .dateTime := by
    have hrange : (e.expiresEpochS.filter JarEntry.dateInRange).filter portableDate =
        e.expiresEpochS.filter portableDate := by
      rw [Option.filter_filter]
      congr 1
      funext t
      unfold portableDate
      cases JarEntry.dateInRange t <;> simp
    rw [← hr, ← hrange, hc]
    exact cdpExpiration_installed _ fun t ht => (Option.filter_eq_some_iff.mp ht).2
  have hname : r.name = some e.name ∧ r.value = some e.value := by
    rw [← hr, hc]
    exact ⟨rfl, rfl⟩
  unfold cdpCookieToSetCookie
  rw [hname.1, hname.2]
  simp only []
  rw [hdomain, hpath, hsecure, hhttp, hdates]
  exact ⟨_, rfl⟩

/-! ## The entry that comes back -/

theorem canon_stripPrefix (d : String) : canon ((stripPrefix d ".").getD d) = canon d := by
  by_cases hs : startsWith d "." = true
  · obtain ⟨t, rfl⟩ := (startsWith_iff d ".").mp hs
    rw [stripPrefix_dot]
    apply String.toList_inj.mp
    simp [canon]
  · unfold stripPrefix
    rw [if_neg hs]
    rfl

theorem canon_of_dotless {d : String} (h : startsWith d "." = false) : canon d = toAsciiLowercase d := by
  have htrim : trimStartMatches '.' d = d := by
    apply String.toList_inj.mp
    rw [toList_trimStartMatches]
    cases hl : d.toList with
    | nil => rfl
    | cons c cs =>
      have hc : c ≠ '.' := by
        rintro rfl
        unfold startsWith at h
        rw [hl] at h
        simp at h
      rw [List.dropWhile_cons_of_neg (by simpa using hc)]
  unfold canon
  rw [htrim]

theorem startsWith_dot_lowercase (d : String) : startsWith (toAsciiLowercase d) "." = startsWith d "." := by
  unfold startsWith
  rw [toList_toAsciiLowercase]
  cases d.toList with
  | nil => rfl
  | cons c cs =>
    have hc : ('.' == c.toLower) = ('.' == c) := by
      rw [Bool.eq_iff_iff, beq_iff_eq, beq_iff_eq, eq_comm, toLower_eq_dot, eq_comm]
    have hdot : ".".toList = ['.'] := rfl
    rw [hdot]
    simp only [List.map_cons, List.isPrefixOf, hc]

theorem sameContent_iff (e other : JarEntry) : e.sameContent other = true ↔
    e.identity = other.identity ∧ e.value = other.value ∧ e.hostOnly = other.hostOnly ∧
      e.expiresEpochS = other.expiresEpochS ∧ e.secure = other.secure ∧ e.httpOnly = other.httpOnly := by
  unfold JarEntry.sameContent
  simp only [Bool.and_eq_true, beq_iff_eq, e.sameIdentity_iff, and_assoc]

/-- What comes back is stored as `asReported`, but for a `SameSite` that nothing compares. -/
theorem fromSetCookie_reported {e : JarEntry} (hs : Stored e) (now : Int) (url : Url) (sameSite : Option SameSite)
    (x : JarEntry) :
    x.sameContent (.fromSetCookie now ⟨e.name, e.value, reportedDomain e url, e.path, none,
        (e.expiresEpochS.filter portableDate).map .dateTime,
        if e.secure || e.sameSite == some "None" then some true else none,
        if e.httpOnly then some true else none, sameSite, none⟩ url) =
      x.sameContent (asReported e url) := by
  generalize hsc : (⟨e.name, e.value, reportedDomain e url, e.path, none,
    (e.expiresEpochS.filter portableDate).map .dateTime,
    if e.secure || e.sameSite == some "None" then some true else none,
    if e.httpOnly then some true else none, sameSite, none⟩ : Cookie) = sc
  have hscope : (JarEntry.fromSetCookie now sc url).domain = (asReported e url).domain ∧
      (JarEntry.fromSetCookie now sc url).hostOnly = (asReported e url).hostOnly := by
    rw [← hsc]
    unfold JarEntry.fromSetCookie asReported reportedDomain
    cases hh : e.hostOnly with
    | true =>
      cases hu : url.hostStr with
      | none => exact ⟨rfl, rfl⟩
      | some host =>
        simp only [if_true, Option.filter_some, Option.getD_some]
        by_cases hd : startsWith host "." = true
        · rw [if_pos hd, if_pos hd, hd]
          refine ⟨?_, rfl⟩
          show (some (canon _)).or _ = some (canon host)
          rw [canon_stripPrefix]
          rfl
        · rw [if_neg hd, if_neg hd, Bool.eq_false_iff.mpr hd]
          exact ⟨rfl, rfl⟩
    | false =>
      obtain ⟨d, hd, hcanon, -⟩ := hs.domain hh
      rw [hd]
      refine ⟨?_, rfl⟩
      show (some (canon d)).or url.hostStr = some d
      rw [hcanon]
      rfl
  have hpath : (JarEntry.fromSetCookie now sc url).path = e.path := by
    obtain ⟨p, hp, hroot⟩ := hs.path
    rw [← hsc, hp]
    unfold JarEntry.fromSetCookie
    simp only [Option.filter_some]
    rw [if_pos hroot]
    rfl
  have hdate : (JarEntry.fromSetCookie now sc url).expiresEpochS = e.expiresEpochS.filter portableDate := by
    rw [← hsc]
    unfold JarEntry.fromSetCookie
    simp only []
    cases e.expiresEpochS.filter portableDate <;> rfl
  have hflags : (JarEntry.fromSetCookie now sc url).secure = (e.secure || e.sameSite == some "None") ∧
      (JarEntry.fromSetCookie now sc url).httpOnly = e.httpOnly := by
    rw [← hsc]
    constructor
    · show (if _ then _ else _ : Option Bool).getD false = _
      cases e.secure || e.sameSite == some "None" <;> rfl
    · show (if _ then _ else _ : Option Bool).getD false = _
      cases e.httpOnly <;> rfl
  have hname : (JarEntry.fromSetCookie now sc url).name = e.name ∧
      (JarEntry.fromSetCookie now sc url).value = e.value := by
    rw [← hsc]
    exact ⟨rfl, rfl⟩
  have hidentity : (JarEntry.fromSetCookie now sc url).identity = (asReported e url).identity := by
    unfold JarEntry.identity
    rw [hname.1, hscope.1, hpath]
    rfl
  rw [Bool.eq_iff_iff, sameContent_iff, sameContent_iff, hidentity, hname.2, hscope.2, hdate, hflags.1, hflags.2]
  rfl

end

/-! ## What the snapshot holds unchanged -/

/-- A date that survives, and no `SameSite=None` without `Secure`. -/
structure Portable (e : JarEntry) : Prop where
  date : ∀ t ∈ e.expiresEpochS, portableDate t = true
  secure : e.sameSite = some "None" → e.secure = true

/-- Neither the host of `url` nor that of the entry begins with a dot. -/
def Dotless (e : JarEntry) (url : Url) : Prop :=
  startsWith (url.hostStr.getD "") "." = false ∧ startsWith (e.domain.getD "") "." = false

instance (e : JarEntry) (url : Url) : Decidable (Dotless e url) := inferInstanceAs (Decidable (_ ∧ _))

/-- The exact condition.  Where a host-only entry is about a host with a dot in front, another
entry may be what the browser reports. -/
def ReturnsAlike (injected : CookieJar) (e : JarEntry) (url : Url) : Prop :=
  (Portable e ∧ (e.hostOnly = true → Dotless e url)) ∨
    (e.hostOnly = true ∧ ¬Dotless e url ∧ ∃ x ∈ injected.entries, x ≠ e ∧ x.sameContent (asReported e url) = true)

theorem asReported_identity {e : JarEntry} {url : Url}
    (hm : domainMatches e.domain e.hostOnly (url.hostStr.getD "") = true)
    (hd : e.hostOnly = true → Dotless e url) : (asReported e url).identity = e.identity := by
  unfold JarEntry.identity
  have hdomain : toAsciiLowercase ((asReported e url).domain.getD "") = toAsciiLowercase (e.domain.getD "") := by
    unfold asReported
    cases hh : e.hostOnly with
    | false => rfl
    | true =>
      obtain ⟨hhost, hentry⟩ := hd hh
      rw [hh] at hm
      simp only [if_true, hhost, Bool.false_eq_true, if_false]
      cases hdom : e.domain with
      | none =>
        rw [hdom] at hm
        cases hm
      | some d =>
        rw [hdom] at hm hentry
        rw [Option.getD_some] at hentry
        rw [domainMatches_hostOnly, canon_of_dotless hhost, canon_of_dotless hentry] at hm
        exact hm
  rw [hdomain]
  rfl

/-- **The entry itself** is what the browser reports exactly where nothing is lost. -/
theorem sameContent_asReported {e : JarEntry} {url : Url}
    (hm : domainMatches e.domain e.hostOnly (url.hostStr.getD "") = true) :
    e.sameContent (asReported e url) = true ↔ Portable e ∧ (e.hostOnly = true → Dotless e url) := by
  rw [sameContent_iff]
  have hdate : e.expiresEpochS = (asReported e url).expiresEpochS ↔
      ∀ t ∈ e.expiresEpochS, portableDate t = true := by
    show e.expiresEpochS = e.expiresEpochS.filter portableDate ↔ _
    cases e.expiresEpochS with
    | none => simp
    | some t => by_cases ht : portableDate t = true <;> simp [Option.filter_some, ht]
  have hsecure : e.secure = (asReported e url).secure ↔ (e.sameSite = some "None" → e.secure = true) := by
    show e.secure = (e.secure || e.sameSite == some "None") ↔ _
    by_cases hn : e.sameSite = some "None"
    · rw [hn]
      cases e.secure <;> simp
    · rw [beq_eq_false_iff_ne.mpr hn]
      simp [hn]
  constructor
  · rintro ⟨hid, -, hho, hexp, hsec, -⟩
    refine ⟨⟨hdate.mp hexp, hsecure.mp hsec⟩, fun hh => ?_⟩
    have hhost : startsWith (url.hostStr.getD "") "." = false := by
      have hboth : e.hostOnly = (e.hostOnly && !startsWith (url.hostStr.getD "") ".") := hho
      rw [hh] at hboth
      simpa using hboth.symm
    refine ⟨hhost, ?_⟩
    have hdomain : toAsciiLowercase (e.domain.getD "") = toAsciiLowercase ((asReported e url).domain.getD "") :=
      congrArg (fun id => id.2.1) hid
    have hreported : (asReported e url).domain = url.hostStr := by
      unfold asReported
      rw [hh]
      simp only [if_true, hhost, Bool.false_eq_true, if_false]
    rw [hreported] at hdomain
    rw [← startsWith_dot_lowercase, hdomain, startsWith_dot_lowercase, hhost]
  · rintro ⟨⟨hd, hs⟩, hh⟩
    refine ⟨(asReported_identity hm hh).symm, rfl, ?_, hdate.mpr hd, hsecure.mpr hs, rfl⟩
    show e.hostOnly = (e.hostOnly && !startsWith (url.hostStr.getD "") ".")
    cases hho : e.hostOnly with
    | false => rfl
    | true =>
      rw [(hh hho).1]
      rfl

/-- Of a jar with one entry for each identity, what the browser reports is the entry itself,
but for the hosts with a dot in front. -/
theorem any_sameContent_iff {injected : CookieJar} (hu : Overlay.UniqueKeys JarEntry.identity injected.entries)
    {e : JarEntry} (he : e ∈ injected.entries) {url : Url}
    (hm : domainMatches e.domain e.hostOnly (url.hostStr.getD "") = true) :
    injected.entries.any (·.sameContent (asReported e url)) = true ↔ ReturnsAlike injected e url := by
  rw [List.any_eq_true]
  constructor
  · rintro ⟨x, hx, hsame⟩
    by_cases hdot : e.hostOnly = true ∧ ¬Dotless e url
    · right
      refine ⟨hdot.1, hdot.2, x, hx, ?_, hsame⟩
      rintro rfl
      exact hdot.2 (((sameContent_asReported hm).mp hsame).2 hdot.1)
    · left
      have hd : e.hostOnly = true → Dotless e url := by
        intro hh
        by_contra hn
        exact hdot ⟨hh, hn⟩
      have hid : x.identity = e.identity := by
        rw [((sameContent_iff x _).mp hsame).1, asReported_identity hm hd]
      have heq : x = e := List.inj_on_of_nodup_map hu hx he hid
      rw [heq] at hsame
      exact (sameContent_asReported hm).mp hsame
  · rintro (h | ⟨-, -, x, hx, -, hsame⟩)
    · exact ⟨e, he, (sameContent_asReported hm).mpr h⟩
    · exact ⟨x, hx, hsame⟩

/-! ## A whole fetch -/

section
variable (lib : HttpLib)

theorem injectJar_some {builder : FetchBuilder} {options : PreparedRequestOptions} {now : Int} {file : JarFile}
    {injected : CookieJar} (h : (injectJar lib builder options now file).2 = some injected) :
    ∃ path, builder.cookieJar.path = some path ∧ injected = ⟨path, file.list, ∅⟩ := by
  unfold injectJar at h
  split at h
  · next jarPath url hp hu =>
    split at h
    · next jar hload =>
      cases h
      exact ⟨jarPath, hp, CookieJar.load_ok hload⟩
    · cases h
  · cases h

/-- The browser reports this cookie, as the jar installed it for its entry `e`. -/
structure ReportedAsInstalled (injected : CookieJar) (now : Int) (url : Url) (e : JarEntry) (entry : CdpCookie) :
    Prop where
  applicable : e ∈ injected.applicableEntries now url
  installed : ∃ c installNow, prepareCookie lib now e.toCookie "cookie_jar" = .ok c ∧
    c.goesTo lib installNow url = true ∧ entry = asInstalled url (cdpCookieParam c url)

variable {lib}

/-- A merge of a list that the snapshot holds unchanged does nothing. -/
theorem mergeBrowserCookies_unchanged {suffixStr : String → Option String} {now : Int} {url : Url}
    {injected jar : CookieJar} {cookies : List CdpCookie}
    (h : ∀ entry ∈ cookies, ∃ c, cdpCookieToSetCookie entry = some c ∧ injected.holdsUnchanged now c url = true) :
    mergeBrowserCookies suffixStr now url (some injected) jar cookies = (jar, 0) := by
  have hfold : ∀ (l : List CdpCookie) (acc : CookieJar × ℕ), (∀ entry ∈ l, entry ∈ cookies) →
      l.foldl (mergeBrowserCookie suffixStr now url (some injected)) acc = acc := by
    intro l
    induction l with
    | nil => exact fun acc _ => rfl
    | cons entry l ih =>
      intro acc hl
      obtain ⟨c, hc, hholds⟩ := h entry (hl entry List.mem_cons_self)
      have hstep : mergeBrowserCookie suffixStr now url (some injected) acc entry = acc := by
        unfold mergeBrowserCookie
        rw [hc]
        exact if_pos hholds
      rw [List.foldl_cons, hstep]
      exact ih acc fun entry' h' => hl entry' (List.mem_cons_of_mem _ h')
  exact hfold cookies (jar, 0) fun entry he => he

/-- A jar that has merged nothing leaves the file as it is, but for the expired entries. -/
theorem persist_unmerged {path : JarPath} {file onDisk file' : JarFile} {jar : CookieJar} {now : Int}
    {io : CookieJar.PersistCall → Option String} (hl : CookieJar.load path file = .ok jar)
    (h : jar.persist now io onDisk = .ok file') : file' = .entries (CookieJar.pruneExpired now onDisk.list) := by
  have hnone : jar.changed = [] := by
    rw [CookieJar.load_ok hl]
    unfold CookieJar.changed CookieJar.tracked Overlay.Tracked.changed
    simp
  rw [CookieJar.persist_ok h, hnone]
  rfl

/-- **What a sync that succeeds has done**: nothing without a list, or with an empty one, and else the
merge and the write. -/
theorem sync_cases {finalUrl : String} {jarPath : JarPath} {injected : Option CookieJar} {sync : BrowserSync}
    {out : Option JarFile} {rejected : ℕ}
    (h : syncBrowserCookiesToJar lib finalUrl jarPath injected sync = .ok (out, rejected)) :
    (out = none ∧ (sync.answer = .ok none ∨ sync.answer = .ok (some []))) ∨
    ∃ url cookies jar file, out = some file ∧ lib.parseUrl finalUrl = .ok url ∧ sync.answer = .ok (some cookies) ∧
      CookieJar.load jarPath sync.loadFile = .ok jar ∧
      (mergeBrowserCookies lib.suffixStr sync.mergeNow url injected jar cookies).1.persist sync.persistNow sync.io
        sync.persistFile = .ok file ∧
      (mergeBrowserCookies lib.suffixStr sync.mergeNow url injected jar cookies).2 = rejected := by
  unfold syncBrowserCookiesToJar at h
  split at h
  · cases h
  · next url hu =>
    obtain ⟨answer, ha, h⟩ := except_bind_ok h
    cases answer with
    | none =>
      cases h
      exact Or.inl ⟨rfl, Or.inl ha⟩
    | some cookies =>
      simp only [] at h
      split at h
      · next hempty =>
        cases h
        exact Or.inl ⟨rfl, Or.inr (hempty ▸ ha)⟩
      · obtain ⟨jar, hl, h⟩ := except_bind_ok h
        cases hf : sync.taskFault with
        | some e =>
          rw [hf] at h
          cases h
        | none =>
          rw [hf] at h
          obtain ⟨file, hp, h⟩ := except_bind_ok h
          cases h
          exact Or.inr ⟨url, cookies, jar, file, rfl, hu, ha, hl, hp, rfl⟩

theorem sync_ok {finalUrl : String} {jarPath : JarPath} {injected : Option CookieJar} {sync : BrowserSync}
    {file : JarFile} {rejected : ℕ}
    (h : syncBrowserCookiesToJar lib finalUrl jarPath injected sync = .ok (some file, rejected)) :
    ∃ url cookies jar, lib.parseUrl finalUrl = .ok url ∧ sync.answer = .ok (some cookies) ∧
      CookieJar.load jarPath sync.loadFile = .ok jar ∧
      (mergeBrowserCookies lib.suffixStr sync.mergeNow url injected jar cookies).1.persist sync.persistNow sync.io
        sync.persistFile = .ok file ∧
      (mergeBrowserCookies lib.suffixStr sync.mergeNow url injected jar cookies).2 = rejected := by
  rcases sync_cases h with ⟨hout, -⟩ | ⟨url, cookies, jar, file', hout, hrest⟩
  · cases hout
  · cases hout
    exact ⟨url, cookies, jar, hrest⟩

/-- Nothing is written where there is no list, or an empty one. -/
theorem sync_none {finalUrl : String} {jarPath : JarPath} {injected : Option CookieJar} {sync : BrowserSync}
    {rejected : ℕ} (h : syncBrowserCookiesToJar lib finalUrl jarPath injected sync = .ok (none, rejected))
    {cookies : List CdpCookie} (ha : sync.answer = .ok (some cookies)) : cookies = [] := by
  rcases sync_cases h with ⟨-, hanswer | hanswer⟩ | ⟨url, cookies', jar, file, hout, -⟩
  · rw [ha] at hanswer
    cases hanswer
  · rw [ha] at hanswer
    cases hanswer
    rfl
  · cases hout

variable {S : Type} [DecidableEq S]

/-- Every file that merges have written holds one entry for each identity, all of them stored. -/
theorem stored_of_run {suffixStr : String → Option String} {path : JarPath} {start : Int}
    {es : List (JarEvent S)} {w : World S}
    (h : Run.run (World.step suffixStr) (World.start S path .notFound start) es = some w) :
    Overlay.UniqueKeys JarEntry.identity w.file.list ∧ ∀ e ∈ w.file.list, Stored e := by
  refine ⟨((jar_serializable suffixStr h).2.1 List.nodup_nil).1, fun e he => ?_⟩
  obtain ⟨c, url, xs, ev, ys, w', -, -, haccepts, rfl⟩ := (World.stored suffixStr h).1 e he
  obtain ⟨host, -, hm⟩ := haccepts.maySetDomain
  exact stored_fromSetCookie hm w'.now url

/-- **Jar to browser to jar.**  Of every jar that merges have written, and every entry that is
installed for `url` and reported back as it was installed: the snapshot holds it unchanged
exactly where it returns alike.  If the browser reports nothing but such cookies that do, the
sync merges none, refuses none, and leaves what others have stored as it finds it. -/
theorem round_trip {path : JarPath} {start : Int} {es : List (JarEvent S)} {w : World S}
    (hrun : Run.run (World.step lib.suffixStr) (World.start S path .notFound start) es = some w)
    {builder : FetchBuilder} {options : PreparedRequestOptions} {now : Int} {injected : CookieJar}
    (hinj : (injectJar lib builder options now w.file).2 = some injected) (url : Url) :
    (∀ e entry, ReportedAsInstalled lib injected now url e entry → ∀ syncNow,
      ∃ c, cdpCookieToSetCookie entry = some c ∧
        (injected.holdsUnchanged syncNow c url = true ↔ ReturnsAlike injected e url)) ∧
    (∀ finalUrl jarPath sync cookies file rejected, lib.parseUrl finalUrl = .ok url →
      sync.answer = .ok (some cookies) →
      (∀ entry ∈ cookies, ∃ e, ReportedAsInstalled lib injected now url e entry ∧ ReturnsAlike injected e url) →
      syncBrowserCookiesToJar lib finalUrl jarPath (some injected) sync = .ok (some file, rejected) →
      rejected = 0 ∧ file = .entries (CookieJar.pruneExpired sync.persistNow sync.persistFile.list)) := by
  obtain ⟨hunique, hstored⟩ := stored_of_run hrun
  obtain ⟨jarPath, -, rfl⟩ := injectJar_some lib hinj
  have hone : ∀ e entry, ReportedAsInstalled lib ⟨jarPath, w.file.list, ∅⟩ now url e entry → ∀ syncNow,
      ∃ c, cdpCookieToSetCookie entry = some c ∧
        ((⟨jarPath, w.file.list, ∅⟩ : CookieJar).holdsUnchanged syncNow c url = true ↔
          ReturnsAlike ⟨jarPath, w.file.list, ∅⟩ e url) := by
    rintro e entry ⟨happ, c, installNow, hc, -, rfl⟩ syncNow
    obtain ⟨hmem, -, -, hdom, -⟩ := mem_applicableEntries happ
    obtain ⟨sameSite, hback⟩ := cdpCookieToSetCookie_asInstalled (hstored e hmem) hc url
    refine ⟨_, hback, ?_⟩
    rw [← any_sameContent_iff hunique hmem hdom]
    unfold CookieJar.holdsUnchanged
    simp only [fromSetCookie_reported (hstored e hmem)]
  refine ⟨hone, ?_⟩
  intro finalUrl jarPath' sync cookies file rejected hu ha hall hsync
  obtain ⟨url', cookies', jar, hu', ha', hload, hpersist, hrej⟩ := sync_ok hsync
  rw [hu] at hu'
  cases hu'
  rw [ha] at ha'
  cases ha'
  have hnothing : mergeBrowserCookies lib.suffixStr sync.mergeNow url (some ⟨jarPath, w.file.list, ∅⟩) jar cookies =
      (jar, 0) := by
    apply mergeBrowserCookies_unchanged
    intro entry he
    obtain ⟨e, hrep, halike⟩ := hall entry he
    obtain ⟨c, hc, hiff⟩ := hone e entry hrep sync.mergeNow
    exact ⟨c, hc, hiff.mpr halike⟩
  rw [hnothing] at hpersist hrej
  exact ⟨hrej.symm, persist_unmerged hload hpersist⟩

end

/-! ## A cookie that comes back, and one that does not -/

def pageUrl : Url := sampleUrl "https" "a.test" "/"

/-- The libraries on one page. -/
def browserLib : HttpLib :=
  { sampleLib with
    parseUrl := fun s => if s = "https://a.test/" then .ok pageUrl else .error "relative URL without a base" }

def pageBuilder : FetchBuilder := ⟨"https://a.test/", ⟨some samplePath⟩⟩

/-- One response stores a cookie. -/
def storing (c : Cookie) : List (JarEvent Bool) :=
  [.load true, .mergeResponse true c pageUrl, .persist true noFault]

def storedJar (c : Cookie) : CookieJar := ⟨samplePath, [.fromSetCookie 0 c pageUrl], ∅⟩

def laxSid : Cookie := { Cookie.build "sid" "1" with maxAge := some ⟨3600, 0⟩, sameSite := some .lax }

/-- `sid=1; SameSite=None`, from a page over https. -/
def noneSid : Cookie := { Cookie.build "sid" "1" with sameSite := some .none }

/-- What the browser says of either. -/
def sidReported (secure : Bool) (sameSite : String) (expires : ℚ) : CdpCookie where
  name := some "sid"
  value := some "1"
  domain := some "a.test"
  path := some "/"
  secure := some secure
  httpOnly := some false
  sameSite := some sameSite
  expires := some expires

theorem laxSid_reported : ReportedAsInstalled browserLib (storedJar laxSid) 0 pageUrl
    (.fromSetCookie 0 laxSid pageUrl) (sidReported false "Lax" 3600) where
  applicable := by decide
  installed := ⟨⟨"sid", "1", none, some "/", none, none, some .lax, none, some 3600⟩, 0, by rfl, by decide, by
    decide⟩

theorem noneSid_reported : ReportedAsInstalled browserLib (storedJar noneSid) 0 pageUrl
    (.fromSetCookie 0 noneSid pageUrl) (sidReported true "None" (-1)) where
  applicable := by decide
  installed := ⟨⟨"sid", "1", none, some "/", none, none, some .none, none, none⟩, 0, by rfl, by decide, by decide⟩

theorem round_trip_laxSid : ∃ c, cdpCookieToSetCookie (sidReported false "Lax" 3600) = some c ∧
    (storedJar laxSid).holdsUnchanged 0 c pageUrl = true := by
  have hf : (Run.run (World.step browserLib.suffixStr) (World.start Bool samplePath .notFound 0)
      (storing laxSid)).map (fun w => w.file) = some (.entries [.fromSetCookie 0 laxSid pageUrl]) := by decide
  obtain ⟨w, hw, hfile⟩ := Option.map_eq_some_iff.mp hf
  have hinj : (injectJar browserLib pageBuilder (loginOptions "pref") 0 w.file).2 = some (storedJar laxSid) := by
    rw [hfile]
    decide
  have halike : ReturnsAlike (storedJar laxSid) (.fromSetCookie 0 laxSid pageUrl) pageUrl := by
    left
    exact ⟨⟨by decide, by decide⟩, by decide⟩
  obtain ⟨c, hc, hiff⟩ := (round_trip hw hinj pageUrl).1 _ _ laxSid_reported 0
  exact ⟨c, hc, hiff.mpr halike⟩

/-- **A cookie rewritten by a fetch that did not touch it.**  The browser reports the cookie as
secure, the snapshot has it otherwise, and the sync puts it over what another fetch has stored
in the meantime. -/
theorem none_rewritten :
    ((Run.run (World.step browserLib.suffixStr) (World.start Bool samplePath .notFound 0)
      (storing noneSid)).map fun w => (injectJar browserLib pageBuilder (loginOptions "pref") 0 w.file).2) =
        some (some (storedJar noneSid)) ∧
    ReportedAsInstalled browserLib (storedJar noneSid) 0 pageUrl (.fromSetCookie 0 noneSid pageUrl)
      (sidReported true "None" (-1)) ∧
    (cdpCookieToSetCookie (sidReported true "None" (-1))).map
      (fun c => (storedJar noneSid).holdsUnchanged 0 c pageUrl) = some false ∧
    ((syncBrowserCookiesToJar browserLib "https://a.test/" samplePath (some (storedJar noneSid))
      { answer := .ok (some [sidReported true "None" (-1)])
        loadFile := .entries [.fromSetCookie 0 { noneSid with value := "2" } pageUrl]
        mergeNow := 0
        taskFault := none
        persistFile := .entries [.fromSetCookie 0 { noneSid with value := "2" } pageUrl]
        persistNow := 0
        io := noFault }).toOption.bind fun r => r.1.map fun file => file.list.map (·.value)) = some ["1"] :=
  ⟨by decide, noneSid_reported, by decide, by decide⟩

end Afhttp.Fetch

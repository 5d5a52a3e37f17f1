import Afhttp.Fetch.BrowserRoundTrip

/-!
# A logout in the browser

A site that logs out deletes its cookie.  On the HTTP path the jar sees an expiring
`Set-Cookie` line, and the entry goes (`expiring_line_logs_out`).  On the browser path it sees
a list without the cookie, and merges what the list holds: nothing tells it that something is
missing (`logout_lost`).

    the entry goes iff a cookie of the list takes its place            (logout_reaches_jar)
-/

namespace Afhttp.Fetch

open Profile Text Overlay

/-! ## What a sync merges -/

section
variable (suffixStr : String → Option String) (now : Int) (url : Url)

/-- The entry that a cookie of the list is merged as: the snapshot does not hold it unchanged,
and the final URL may set it. -/
def mergedEntry (injected : Option CookieJar) (entry : CdpCookie) : Option JarEntry :=
  (cdpCookieToSetCookie entry).bind fun c =>
    if injected.any (·.holdsUnchanged now c url) then none
    else if url.hostStr.any (CookieJar.maySetDomain suffixStr c.domain ·) then some (.fromSetCookie now c url)
    else none

/-- A cookie of the list takes the place of `e`. -/
def Displaces (injected : CookieJar) (cookies : List CdpCookie) (e : JarEntry) : Prop :=
  ∃ entry ∈ cookies, ∃ x, mergedEntry suffixStr now url (some injected) entry = some x ∧ x.identity = e.identity

/-- **One merge**, by whether the URL may set the domain. -/
theorem merge_tracked (jar : CookieJar) (c : Cookie) :
    (jar.merge suffixStr now c url).1.tracked =
      if url.hostStr.any (CookieJar.maySetDomain suffixStr c.domain ·) then
        jar.tracked.write JarEntry.identity (.fromSetCookie now c url)
      else jar.tracked := by
  cases hh : url.hostStr with
  | none =>
    unfold CookieJar.merge
    rw [hh]
    rfl
  | some host =>
    cases hm : CookieJar.maySetDomain suffixStr c.domain host with
    | false =>
      have hrefused : jar.merge suffixStr now c url = (jar, false) := by
        unfold CookieJar.merge
        rw [hh]
        simp only [hm]
        rfl
      rw [hrefused]
      simp [hm]
    | true =>
      have htaken : (jar.merge suffixStr now c url).2 = true := by
        unfold CookieJar.merge
        rw [hh]
        simp only [hm]
        split
        · next h => cases h
        · split <;> rfl
      rcases CookieJar.merge_cases suffixStr now jar c url with hr | ⟨_, -, -, -, -, ht⟩
      · rw [hr] at htaken
        cases htaken
      · rw [ht]
        simp [hm]

/-- **One sync** writes the entries of the list into the jar. -/
theorem mergeBrowserCookies_tracked (injected : Option CookieJar) (jar : CookieJar) (cookies : List CdpCookie) :
    (mergeBrowserCookies suffixStr now url injected jar cookies).1.tracked =
      writes JarEntry.identity jar.tracked (cookies.filterMap (mergedEntry suffixStr now url injected)) := by
  have hfold : ∀ (l : List CdpCookie) (acc : CookieJar × ℕ),
      (l.foldl (mergeBrowserCookie suffixStr now url injected) acc).1.tracked =
        writes JarEntry.identity acc.1.tracked (l.filterMap (mergedEntry suffixStr now url injected)) := by
    intro l
    induction l with
    | nil => exact fun acc => rfl
    | cons entry l ih =>
      intro acc
      rw [List.foldl_cons, ih]
      unfold mergeBrowserCookie
      cases hc : cdpCookieToSetCookie entry with
      | none =>
        have hnone : mergedEntry suffixStr now url injected entry = none := by
          unfold mergedEntry
          rw [hc]
          rfl
        rw [List.filterMap_cons_none hnone]
      | some c =>
        simp only []
        by_cases hh : injected.any (·.holdsUnchanged now c url) = true
        · have hnone : mergedEntry suffixStr now url injected entry = none := by
            unfold mergedEntry
            rw [hc]
            exact if_pos hh
          rw [if_pos hh, List.filterMap_cons_none hnone]
        · rw [if_neg hh, merge_tracked]
          by_cases hm : url.hostStr.any (CookieJar.maySetDomain suffixStr c.domain ·) = true
          · have hsome : mergedEntry suffixStr now url injected entry = some (.fromSetCookie now c url) := by
              unfold mergedEntry
              rw [hc]
              show (if _ then _ else _) = _
              rw [if_neg hh, if_pos hm]
            rw [if_pos hm, List.filterMap_cons_some hsome]
            rfl
          · have hnone : mergedEntry suffixStr now url injected entry = none := by
              unfold mergedEntry
              rw [hc]
              show (if _ then _ else _) = _
              rw [if_neg hh, if_neg hm]
            rw [if_neg hm, List.filterMap_cons_none hnone]
  exact hfold cookies (jar, 0)

end

/-! ## What a persist leaves of one entry -/

/-- An entry that is alone in its identity is left exactly if no change has the identity, or
the change is the entry. -/
theorem mem_persist {file file' : JarFile} (hu : UniqueKeys JarEntry.identity file.list) {e : JarEntry}
    (he : e ∈ file.list) {now : Int} (hexp : e.isExpired now = false) {jar : CookieJar}
    {io : CookieJar.PersistCall → Option String} (h : jar.persist now io file = .ok file') :
    e ∈ file'.list ↔ ∀ x, lastOf JarEntry.identity e.identity jar.changed = some x → x = e := by
  have halone : entriesOf JarEntry.identity e.identity file.list = [e] := by
    have hmem : e ∈ entriesOf JarEntry.identity e.identity file.list := (mem_entriesOf _).mpr ⟨he, rfl⟩
    have hlen := (uniqueKeys_iff _ _).mp hu e.identity
    cases hl : entriesOf JarEntry.identity e.identity file.list with
    | nil =>
      rw [hl] at hmem
      cases hmem
    | cons x rest =>
      rw [hl] at hmem hlen
      have hrest : rest = [] := by
        rw [List.length_cons] at hlen
        exact List.length_eq_zero_iff.mp (by omega)
      subst hrest
      rw [List.mem_singleton.mp hmem]
  have hiff : e ∈ file'.list ↔ e ∈ replaceHead (lastOf JarEntry.identity e.identity jar.changed) [e] := by
    rw [CookieJar.persist_ok h, ← halone, ← entriesOf_overlay, mem_entriesOf]
    show e ∈ (_ : List JarEntry).filter _ ↔ _
    rw [List.mem_filter, hexp]
    simp
  rw [hiff]
  cases lastOf JarEntry.identity e.identity jar.changed with
  | none => simp
  | some x =>
    rw [replaceHead_some, List.tail_cons, List.mem_singleton]
    constructor
    · rintro rfl y hy
      exact (Option.some.inj hy).symm
    · intro hall
      exact (hall x rfl).symm

/-! ## The logout -/

/-- The jar file after a sync: what it wrote, or what was there. -/
def jarAfter (sync : BrowserSync) (result : Except Error (Option JarFile × ℕ)) : JarFile :=
  match result with
  | .ok (some file, _) => file
  | _ => sync.persistFile

section
variable {lib : HttpLib} {S : Type} [DecidableEq S]

/-- Of one sync that writes. -/
theorem mem_after_write {file : JarFile} (hu : UniqueKeys JarEntry.identity file.list) {e : JarEntry}
    (he : e ∈ file.list) {injected : CookieJar} (hinj : e ∈ injected.entries) {url : Url}
    {cookies : List CdpCookie} {jarPath : JarPath} {loadFile file' : JarFile} {jar : CookieJar}
    (hload : CookieJar.load jarPath loadFile = .ok jar) {mergeNow persistNow : Int}
    (hexp : e.isExpired persistNow = false) {io : CookieJar.PersistCall → Option String}
    (hp : (mergeBrowserCookies lib.suffixStr mergeNow url (some injected) jar cookies).1.persist persistNow io
      file = .ok file') :
    e ∉ file'.list ↔ Displaces lib.suffixStr mergeNow url injected cookies e := by
  have hlast : lastOf JarEntry.identity e.identity
      (mergeBrowserCookies lib.suffixStr mergeNow url (some injected) jar cookies).1.changed =
      lastOf JarEntry.identity e.identity
        (cookies.filterMap (mergedEntry lib.suffixStr mergeNow url (some injected))) := by
    have htaken : jar.tracked = Tracked.take loadFile.list := by
      rw [CookieJar.load_ok hload]
      rfl
    unfold CookieJar.changed
    rw [mergeBrowserCookies_tracked, htaken, lastOf_changed_writes]
  -- the snapshot holds the entry itself unchanged, so it is never what is merged
  have hother : ∀ x ∈ cookies.filterMap (mergedEntry lib.suffixStr mergeNow url (some injected)), x ≠ e := by
    rintro x hx rfl
    obtain ⟨entry, -, hmerged⟩ := List.mem_filterMap.mp hx
    unfold mergedEntry at hmerged
    obtain ⟨c, -, hmerged⟩ := Option.bind_eq_some_iff.mp hmerged
    split at hmerged
    · cases hmerged
    · next hnot =>
      split at hmerged
      · apply hnot
        have heq : JarEntry.fromSetCookie mergeNow c url = x := Option.some.inj hmerged
        show (injected.entries.any fun e => e.sameContent (.fromSetCookie mergeNow c url)) = true
        rw [heq, List.any_eq_true]
        exact ⟨x, hinj, (sameContent_iff x x).mpr ⟨rfl, rfl, rfl, rfl, rfl, rfl⟩⟩
      · cases hmerged
  rw [mem_persist hu he hexp hp, hlast]
  constructor
  · intro h
    rw [not_forall] at h
    obtain ⟨x, hx⟩ := h
    rw [Classical.not_imp] at hx
    obtain ⟨hmem, hid⟩ := mem_of_lastOf JarEntry.identity hx.1
    obtain ⟨entry, he', hmerged⟩ := List.mem_filterMap.mp hmem
    exact ⟨entry, he', x, hmerged, hid⟩
  · rintro ⟨entry, he', x, hmerged, hid⟩ hall
    have hmem : x ∈ cookies.filterMap (mergedEntry lib.suffixStr mergeNow url (some injected)) :=
      List.mem_filterMap.mpr ⟨entry, he', hmerged⟩
    cases hl : lastOf JarEntry.identity e.identity
        (cookies.filterMap (mergedEntry lib.suffixStr mergeNow url (some injected))) with
    | none => exact (lastOf_eq_none _).mp hl x hmem hid
    | some y => exact hother y (mem_of_lastOf JarEntry.identity hl).1 (hall y hl)

/-- No cookie of the list has the identity of `e` in the jar. -/
def Absent (now : Int) (url : Url) (cookies : List CdpCookie) (e : JarEntry) : Prop :=
  ∀ entry ∈ cookies, ∀ c, cdpCookieToSetCookie entry = some c →
    (JarEntry.fromSetCookie now c url).identity ≠ e.identity

theorem Absent.not_displaces {suffixStr : String → Option String} {now : Int} {url : Url}
    {cookies : List CdpCookie} {e : JarEntry} (h : Absent now url cookies e) (injected : CookieJar) :
    ¬Displaces suffixStr now url injected cookies e := by
  rintro ⟨entry, he, x, hmerged, hid⟩
  unfold mergedEntry at hmerged
  obtain ⟨c, hc, hmerged⟩ := Option.bind_eq_some_iff.mp hmerged
  split at hmerged
  · cases hmerged
  · split at hmerged
    · have heq : JarEntry.fromSetCookie now c url = x := Option.some.inj hmerged
      rw [← heq] at hid
      exact h entry he c hc hid
    · cases hmerged

/-- **A logout in the browser.**  Of an entry that the fetch took into its snapshot and that
the file still holds when the sync writes, unexpired: it is gone after the sync exactly if the
sync succeeds and a cookie of the browser's list takes its place.  Where the list holds none of
its identity, deleted as it is, it stays. -/
theorem logout_reaches_jar {path : JarPath} {start : Int} {es : List (JarEvent S)} {w : World S}
    (hrun : Run.run (World.step lib.suffixStr) (World.start S path .notFound start) es = some w)
    {e : JarEntry} (he : e ∈ w.file.list) {injected : CookieJar} (hinj : e ∈ injected.entries)
    {sync : BrowserSync} (hfile : sync.persistFile = w.file) (hexp : e.isExpired sync.persistNow = false)
    (finalUrl : String) (jarPath : JarPath) {result : Except Error (Option JarFile × ℕ)}
    (hresult : syncBrowserCookiesToJar lib finalUrl jarPath (some injected) sync = result) :
    (e ∉ (jarAfter sync result).list ↔ (∃ r, result = .ok r) ∧ ∃ url cookies,
      lib.parseUrl finalUrl = .ok url ∧ sync.answer = .ok (some cookies) ∧
        Displaces lib.suffixStr sync.mergeNow url injected cookies e) ∧
    (∀ url cookies, lib.parseUrl finalUrl = .ok url → sync.answer = .ok (some cookies) →
      Absent sync.mergeNow url cookies e → e ∈ (jarAfter sync result).list) := by
  have hu : UniqueKeys JarEntry.identity w.file.list := (stored_of_run hrun).1
  have hstays : e ∈ sync.persistFile.list := by
    rw [hfile]
    exact he
  have hiff : e ∉ (jarAfter sync result).list ↔ (∃ r, result = .ok r) ∧ ∃ url cookies,
      lib.parseUrl finalUrl = .ok url ∧ sync.answer = .ok (some cookies) ∧
        Displaces lib.suffixStr sync.mergeNow url injected cookies e := by
    cases result with
    | error err =>
      refine iff_of_false (fun h => h hstays) ?_
      rintro ⟨⟨r, hr⟩, -⟩
      cases hr
    | ok r =>
      obtain ⟨file, rejected⟩ := r
      cases file with
      | none =>
        refine iff_of_false (fun h => h hstays) ?_
        rintro ⟨-, url, cookies, hurl, ha, entry, hentry, -⟩
        rw [sync_none hresult ha] at hentry
        cases hentry
      | some file =>
        obtain ⟨url, cookies, jar, hurl, ha, hload, hpersist, -⟩ := sync_ok hresult
        rw [hfile] at hpersist
        have hwrite := mem_after_write hu he hinj hload hexp hpersist
        show e ∉ file.list ↔ _
        rw [hwrite]
        constructor
        · intro h
          exact ⟨⟨_, rfl⟩, url, cookies, hurl, ha, h⟩
        · rintro ⟨-, url', cookies', hurl', ha', h⟩
          rw [hurl] at hurl'
          rw [ha] at ha'
          cases hurl'
          cases ha'
          exact h
  refine ⟨hiff, fun url cookies hurl ha habsent => ?_⟩
  by_contra hgone
  obtain ⟨-, url', cookies', hurl', ha', h⟩ := hiff.mp hgone
  rw [hurl] at hurl'
  rw [ha] at ha'
  cases hurl'
  cases ha'
  exact habsent.not_displaces injected h

/-! ## The same on the HTTP path -/

theorem mergeResponse_writes (suffixStr : String → Option String) (now : Int) (jar : CookieJar) (c : Cookie)
    (url : Url) :
    ((jar.mergeResponse suffixStr now c url).2 = false ∧ (jar.mergeResponse suffixStr now c url).1 = jar) ∨
      (jar.mergeResponse suffixStr now c url).1.tracked =
        jar.tracked.write JarEntry.identity (.fromSetCookie now c url) := by
  rcases CookieJar.mergeResponse_cases suffixStr now jar c url with hr | ⟨hr, -⟩
  · rw [hr]
    exact Or.inl ⟨rfl, rfl⟩
  · rw [hr]
    rcases CookieJar.merge_cases suffixStr now jar c url with hr' | ⟨_, -, -, -, -, ht⟩
    · rw [hr']
      exact Or.inl ⟨rfl, rfl⟩
    · exact Or.inr ht

variable (lib) in
/-- The lines of a response are writes into the jar. -/
theorem mergeLines_writes (now : Int) (url : Url) (lines : List String) (jar : CookieJar) :
    ∃ cs, (lines.foldl (mergeLine lib now url) jar).tracked = writes JarEntry.identity jar.tracked cs := by
  induction lines using List.reverseRecOn with
  | nil => exact ⟨[], rfl⟩
  | append_singleton lines line ih =>
    obtain ⟨cs, hcs⟩ := ih
    rw [List.foldl_append, List.foldl_cons, List.foldl_nil]
    generalize lines.foldl (mergeLine lib now url) jar = before at hcs ⊢
    unfold mergeLine
    split
    · next c _ =>
      rcases mergeResponse_writes lib.suffixStr now before c url with ⟨-, hr⟩ | hr
      · exact ⟨cs, by rw [hr, hcs]⟩
      · exact ⟨cs ++ [.fromSetCookie now c url], by rw [hr, hcs, writes_snoc]⟩
    · exact ⟨cs, hcs⟩

/-- **A logout on the HTTP path.**  An accepted line that has expired takes the entry out. -/
theorem expiring_line_logs_out {path : JarPath} {start : Int} {es : List (JarEvent S)} {w : World S}
    (hrun : Run.run (World.step lib.suffixStr) (World.start S path .notFound start) es = some w)
    {e : JarEntry} {hop : Hop} (hfile : hop.persistFile = w.file) {jar : CookieJar} {jarPath : JarPath}
    (hload : CookieJar.load jarPath hop.mergeFile = .ok jar) {lines : List String} {line : String} {c : Cookie}
    {url : Url} (hparse : lib.parseCookie line = some c)
    (haccepted : ((lines.foldl (mergeLine lib hop.mergeNow url) jar).mergeResponse lib.suffixStr hop.mergeNow c
      url).2 = true)
    (hid : (JarEntry.fromSetCookie hop.mergeNow c url).identity = e.identity)
    (hexp : (JarEntry.fromSetCookie hop.mergeNow c url).isExpired hop.persistNow = true) {file : JarFile}
    (h : persistSetCookies lib jarPath (lines ++ [line]) url hop = .ok (some file)) :
    e ∉ file.list := by
  have hu : UniqueKeys JarEntry.identity w.file.list := (stored_of_run hrun).1
  unfold persistSetCookies at h
  rw [if_neg (by simp)] at h
  obtain ⟨jar', hload', h⟩ := except_bind_ok h
  rw [hload] at hload'
  cases hload'
  obtain ⟨file', hp, h⟩ := except_bind_ok h
  cases h
  rw [hfile] at hp
  intro hmem
  obtain ⟨cs, hcs⟩ := mergeLines_writes lib hop.mergeNow url lines jar
  have hlast : lastOf JarEntry.identity e.identity
      ((lines ++ [line]).foldl (mergeLine lib hop.mergeNow url) jar).changed =
      some (.fromSetCookie hop.mergeNow c url) := by
    have htaken : jar.tracked = Tracked.take hop.mergeFile.list := by
      rw [CookieJar.load_ok hload]
      rfl
    have hwritten : ((lines ++ [line]).foldl (mergeLine lib hop.mergeNow url) jar).tracked =
        writes JarEntry.identity (Tracked.take hop.mergeFile.list) (cs ++ [.fromSetCookie hop.mergeNow c url]) := by
      rw [List.foldl_append, List.foldl_cons, List.foldl_nil, writes_snoc, ← htaken, ← hcs]
      generalize lines.foldl (mergeLine lib hop.mergeNow url) jar = before at haccepted ⊢
      unfold mergeLine
      rw [hparse]
      rcases mergeResponse_writes lib.suffixStr hop.mergeNow before c url with ⟨hno, -⟩ | hr
      · exact absurd (hno.symm.trans haccepted) Bool.false_ne_true
      · exact hr
    unfold CookieJar.changed
    rw [hwritten, lastOf_changed_writes, lastOf_snoc, if_pos hid]
  have hafter := entriesOf_overlay JarEntry.identity e.identity w.file.list
    ((lines ++ [line]).foldl (mergeLine lib hop.mergeNow url) jar).changed
  rw [hlast, replaceHead_some] at hafter
  have hlen := (uniqueKeys_iff _ _).mp hu e.identity
  have htail : (entriesOf JarEntry.identity e.identity w.file.list).tail = [] := by
    apply List.length_eq_zero_iff.mp
    rw [List.length_tail]
    omega
  rw [CookieJar.persist_ok hp] at hmem
  obtain ⟨hover, hlive⟩ := List.mem_filter.mp hmem
  have hentry := (mem_entriesOf JarEntry.identity).mpr ⟨hover, rfl⟩
  rw [hafter, htail, List.mem_singleton] at hentry
  rw [hentry, hexp] at hlive
  cases hlive

end

/-! ## A logout that is lost -/

/-- The session of a page, to the end of the year 9999. -/
def sessionSid : Cookie := { Cookie.build "sid" "1" with expires := some (.dateTime 253402300799) }

/-- After the navigation the browser holds this list for the page. -/
def pageSync (cookies : List CdpCookie) : BrowserSync where
  answer := .ok (some cookies)
  loadFile := .entries [.fromSetCookie 0 sessionSid pageUrl]
  mergeNow := 0
  taskFault := none
  persistFile := .entries [.fromSetCookie 0 sessionSid pageUrl]
  persistNow := 0
  io := noFault

/-- The page's own cookie, for the whole domain or the host alone. -/
def reported (name domain : String) : CdpCookie where
  name := some name
  value := some "2"
  domain := some domain
  path := some "/"
  secure := some false
  httpOnly := some false
  sameSite := none
  expires := some (-1)

theorem storing_sessionSid : ∃ w, Run.run (World.step browserLib.suffixStr)
    (World.start Bool samplePath .notFound 0) (storing sessionSid) = some w ∧
      w.file = .entries [.fromSetCookie 0 sessionSid pageUrl] := by
  have hf : (Run.run (World.step browserLib.suffixStr) (World.start Bool samplePath .notFound 0)
      (storing sessionSid)).map (fun w => w.file) = some (.entries [.fromSetCookie 0 sessionSid pageUrl]) := by
    decide
  obtain ⟨w, hw, hfile⟩ := Option.map_eq_some_iff.mp hf
  exact ⟨w, hw, hfile⟩

/-- A cookie of the whole domain takes the place of the host's own. -/
theorem logout_reaches_jar_displaced :
    (JarEntry.fromSetCookie 0 sessionSid pageUrl) ∉ (jarAfter (pageSync [reported "sid" ".a.test"])
      (syncBrowserCookiesToJar browserLib "https://a.test/" samplePath (some (storedJar sessionSid))
        (pageSync [reported "sid" ".a.test"]))).list := by
  obtain ⟨w, hw, hfile⟩ := storing_sessionSid
  have he : JarEntry.fromSetCookie 0 sessionSid pageUrl ∈ w.file.list := by
    rw [hfile]
    exact List.mem_singleton_self _
  have hinj : JarEntry.fromSetCookie 0 sessionSid pageUrl ∈ (storedJar sessionSid).entries :=
    List.mem_singleton_self _
  have hpersist : (pageSync [reported "sid" ".a.test"]).persistFile = w.file := hfile.symm
  have hexp : (JarEntry.fromSetCookie 0 sessionSid pageUrl).isExpired
      (pageSync [reported "sid" ".a.test"]).persistNow = false := by decide
  apply (logout_reaches_jar hw he hinj hpersist hexp "https://a.test/" samplePath rfl).1.mpr
  refine ⟨⟨(some (.entries [.fromSetCookie 0 ⟨"sid", "2", some "a.test", some "/", none, none, none, none, none,
    none⟩ pageUrl]), 0), by rfl⟩, pageUrl, [reported "sid" ".a.test"], by rfl, rfl, reported "sid" ".a.test",
    List.mem_singleton_self _, _, rfl, by decide⟩

/-- **A logout that is lost.**  The jar installed `sid` for the page, the page deletes it, and
the browser's list is another cookie or none at all: `sid` is in the jar after the sync. -/
theorem logout_lost :
    (∃ w, Run.run (World.step browserLib.suffixStr) (World.start Bool samplePath .notFound 0)
      (storing sessionSid) = some w ∧ w.file = .entries [.fromSetCookie 0 sessionSid pageUrl]) ∧
    (injectJar browserLib pageBuilder (loginOptions "pref") 0 (.entries [.fromSetCookie 0 sessionSid pageUrl])).2 =
      some (storedJar sessionSid) ∧
    JarEntry.fromSetCookie 0 sessionSid pageUrl ∈ (storedJar sessionSid).applicableEntries 0 pageUrl ∧
    (∀ cookies, cookies = [] ∨ cookies = [reported "pref" "a.test"] →
      JarEntry.fromSetCookie 0 sessionSid pageUrl ∈ (jarAfter (pageSync cookies)
        (syncBrowserCookiesToJar browserLib "https://a.test/" samplePath (some (storedJar sessionSid))
          (pageSync cookies))).list) := by
  refine ⟨storing_sessionSid, by decide, by decide, ?_⟩
  rintro cookies (rfl | rfl)
  · decide
  · decide

end Afhttp.Fetch

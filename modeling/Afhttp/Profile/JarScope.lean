import Afhttp.Profile.JarRuns

/-!
# Where a jar cookie goes

A jar serves every site of a profile.  `Within host d` is domain membership in its own
terms: `host` is `d`, or ends in `.d`.  A cookie set without `Domain` goes back to the
host that set it; a cookie set with one goes to the hosts of a domain that is no public
suffix, has a dot, and holds the host that set it, which is not an address.

    domainMatches (some d) false host  iff  Within (canon host) (canon d)      (domainMatches_iff)
    what may_set_domain accepts                                                (maySetDomain_some)
    every entry of every jar of a run was stored by an accepted merge          (World.stored)
    where the cookies of a jar go, over whole runs                             (scope_safe)
-/

namespace Afhttp.Profile

open Text Overlay

/-- `host` is `d` or a subdomain of it. -/
def Within (host d : String) : Prop := host = d ∨ ∃ sub, host = sub ++ ("." ++ d)

theorem within_iff (host d : String) :
    (host == d || endsWith host ("." ++ d)) = true ↔ Within host d := by
  rw [Bool.or_eq_true, beq_iff_eq, endsWith_iff, Within]

theorem domainMatches_iff (d host : String) :
    domainMatches (some d) false host = true ↔ Within (canon host) (canon d) :=
  within_iff (canon host) (canon d)

theorem domainMatches_hostOnly (d host : String) :
    domainMatches (some d) true host = true ↔ canon host = canon d := by
  unfold domainMatches
  simp

/-! ## What may be set -/

theorem mem_canon_dot {s : String} (h : '.' ∈ (canon s).toList) : '.' ∈ s.toList := by
  unfold canon at h
  rw [toList_toAsciiLowercase, toList_trimStartMatches] at h
  obtain ⟨c, hc, he⟩ := List.mem_map.mp h
  rw [(toLower_eq_dot c).mp he] at hc
  exact (List.dropWhile_sublist _).subset hc

theorem Within.mem {host d : String} {c : Char} (h : Within host d) (hc : c ∈ d.toList) :
    c ∈ host.toList := by
  rcases h with rfl | ⟨sub, rfl⟩
  · exact hc
  · simp [hc]

section
variable (suffixStr : String → Option String)

/-- **What `may_set_domain` accepts** of a `Domain` attribute. -/
theorem maySetDomain_some {d host : String}
    (h : CookieJar.maySetDomain suffixStr (some d) host = true) :
    canon d ≠ "" ∧ '.' ∈ (canon d).toList ∧ endsWith (canon d) "." = false ∧
      suffixStr (canon d) ≠ some (canon d) ∧ parsesAsIpAddr (canon host) = false ∧
      Within (canon host) (canon d) := by
  unfold CookieJar.maySetDomain at h
  simp only [] at h
  split at h
  · cases h
  · next h1 =>
    split at h
    · cases h
    · next h2 =>
      split at h
      · cases h
      · next h3 =>
        simp only [Bool.or_eq_true, beq_iff_eq, Bool.not_eq_true', not_or, Bool.not_eq_true] at h1 h2 h3
        have hdot : contains (canon d) '.' = true := by simpa using h3.1
        exact ⟨h1.1, (contains_iff _ _).mp hdot, h1.2, h3.2, h2, (within_iff _ _).mp h⟩

/-- A `Domain` attribute is never accepted from an address. -/
theorem not_isAddress_of_maySetDomain {d : String} {host : Host}
    (h : CookieJar.maySetDomain suffixStr (some d) host.str = true) : host.isAddress = false := by
  obtain ⟨-, hdot, -, -, hip, hw⟩ := maySetDomain_some suffixStr h
  cases host with
  | domain name => exact hip
  | ipv4 addr =>
    have hp : parsesAsIpAddr (canon addr.display) = true := by
      unfold parsesAsIpAddr
      rw [addr.canon_display, addr.parses, Bool.true_or]
    rw [show (Host.ipv4 addr).str = addr.display from rfl, hp] at hip
    cases hip
  | ipv6 addr => exact absurd (mem_canon_dot (hw.mem hdot)) addr.no_dot

/-! ## Which merge stored an entry -/

variable {S : Type}

/-- The event merges the cookie `c` of a response from `u`, and the jar does not refuse it. -/
def World.Accepts (w : World S) (e : JarEvent S) (c : Cookie) (u : Url) : Prop :=
  (∃ s x, e = .merge s c u ∧ w.sessions s = some x ∧ (x.jar.merge suffixStr w.now c u).2 = true) ∨
  (∃ s x, e = .mergeResponse s c u ∧ w.sessions s = some x ∧
    (x.jar.mergeResponse suffixStr w.now c u).2 = true)

/-- An accepted merge passed `may_set_domain`. -/
theorem World.Accepts.maySetDomain {w : World S} {e : JarEvent S} {c : Cookie} {u : Url}
    (h : w.Accepts suffixStr e c u) :
    ∃ host, u.host = some host ∧ CookieJar.maySetDomain suffixStr c.domain host.str = true := by
  have key : ∀ jar : CookieJar, (jar.merge suffixStr w.now c u).2 = true →
      ∃ host, u.host = some host ∧ CookieJar.maySetDomain suffixStr c.domain host.str = true := by
    intro jar hj
    rcases CookieJar.merge_cases suffixStr w.now jar c u with hr | ⟨host, hh, hm, -⟩
    · rw [hr] at hj
      cases hj
    · obtain ⟨h', hu, rfl⟩ := Option.map_eq_some_iff.mp hh
      exact ⟨h', hu, hm⟩
  rcases h with ⟨s, x, -, -, hj⟩ | ⟨s, x, -, -, hj⟩
  · exact key x.jar hj
  · rcases CookieJar.mergeResponse_cases suffixStr w.now x.jar c u with hr | ⟨hr, -⟩
    · rw [hr] at hj
      cases hj
    · exact key x.jar (hr ▸ hj)

variable [DecidableEq S]

/-- In the run `es` an accepted merge of `c` from `u` stored the entry. -/
def StoredBy (w₀ : World S) (es : List (JarEvent S)) (entry : JarEntry) (c : Cookie) (u : Url) : Prop :=
  ∃ xs e ys w, es = xs ++ e :: ys ∧ Run.run (World.step suffixStr) w₀ xs = some w ∧
    w.Accepts suffixStr e c u ∧ entry = .fromSetCookie w.now c u

theorem StoredBy.snoc {w₀ : World S} {es : List (JarEvent S)} {entry : JarEntry} {c : Cookie}
    {u : Url} (h : StoredBy suffixStr w₀ es entry c u) (e : JarEvent S) :
    StoredBy suffixStr w₀ (es ++ [e]) entry c u := by
  obtain ⟨xs, e', ys, w, rfl, h'⟩ := h
  exact ⟨xs, e', ys ++ [e], w, by simp, h'⟩

/-- Every entry of the file and of the loaded jars meets `P`. -/
def World.All (P : JarEntry → Prop) (w : World S) : Prop :=
  (∀ e ∈ w.file.list, P e) ∧ ∀ s x, w.sessions s = some x → ∀ e ∈ x.jar.entries, P e

/-- Writing one entry adds no other. -/
theorem all_write {P : JarEntry → Prop} {t : Tracked JarEntry} {entry : JarEntry}
    (h : ∀ e ∈ t.entries, P e) (he : P entry) : ∀ e ∈ (t.write JarEntry.identity entry).entries, P e := by
  intro e hm
  rw [write_entries] at hm
  rcases mem_upsert JarEntry.identity hm with hm | rfl
  · exact h e hm
  · exact he

theorem mem_changed {jar : CookieJar} {e : JarEntry} (h : e ∈ jar.changed) : e ∈ jar.entries := by
  obtain ⟨p, hp, rfl⟩ := List.mem_map.mp h
  exact List.fst_mem_of_mem_zipIdx (List.mem_filter.mp hp).1

/-- **What a step adds to the jars**: nothing but the entry of the merge it accepts. -/
theorem World.All.step {P : JarEntry → Prop} {w w' : World S} {e : JarEvent S} (hw : w.All P)
    (hnew : ∀ c u, w.Accepts suffixStr e c u → P (.fromSetCookie w.now c u))
    (h : w.step suffixStr e = some w') : w'.All P := by
  refine ⟨fun entry he => ?_, fun s x' hx => ?_⟩
  · rcases World.step_file suffixStr h with ⟨hf, -⟩ | ⟨s, io, x, -, hs, hf, -⟩
    · rw [hf] at he
      exact hw.1 entry he
    · rw [hf] at he
      rcases mem_overlay JarEntry.identity (List.mem_filter.mp he).1 with hm | hm
      · exact hw.1 entry hm
      · exact hw.2 s x hs entry (mem_changed (mem_of_lastOf JarEntry.identity hm).1)
  · rcases World.step_session suffixStr h hx with hx | ⟨-, rfl⟩ | ⟨x, c, u, host, hs, hm, -, -, he⟩
    · exact hw.2 s x' hx
    · exact hw.1
    · have hp : P (.fromSetCookie w.now c u) := by
        apply hnew c u
        rcases he with ⟨he, h2⟩ | ⟨he, h2, -⟩
        · exact Or.inl ⟨s, x, he, hs, h2⟩
        · exact Or.inr ⟨s, x, he, hs, h2⟩
      show ∀ e ∈ x'.jar.tracked.entries, P e
      rw [hm.tracked]
      exact all_write (hw.2 s x hs) hp

/-- **Provenance.**  From an empty jar, every entry of the file and of the loaded jars was
stored by an accepted merge of the run. -/
theorem World.stored {path : JarPath} {now : Int} {es : List (JarEvent S)} {w : World S}
    (h : Run.run (World.step suffixStr) (World.start S path .notFound now) es = some w) :
    w.All fun entry => ∃ c u, StoredBy suffixStr (World.start S path .notFound now) es entry c u := by
  refine Run.run_history (World.step suffixStr) (P := fun es w => World.All (fun entry =>
    ∃ c u, StoredBy suffixStr (World.start S path .notFound now) es entry c u) w) ?_ ?_ h
  · exact ⟨fun e he => absurd he List.not_mem_nil, fun s x hx => by cases hx⟩
  · intro es w e w' hr ih he
    refine World.All.step suffixStr ⟨fun e' h' => ?_, fun s x hs e' h' => ?_⟩ ?_ he
    · obtain ⟨c, u, hst⟩ := ih.1 e' h'
      exact ⟨c, u, hst.snoc suffixStr e⟩
    · obtain ⟨c, u, hst⟩ := ih.2 s x hs e' h'
      exact ⟨c, u, hst.snoc suffixStr e⟩
    · intro c u ha
      exact ⟨c, u, es, e, [], w, rfl, hr, ha, rfl⟩

/-! ## Scope -/

/-- A cookie `c` set by a response from `source` may go to `url`. -/
def ScopeAllows (c : Cookie) (source url : Url) : Prop :=
  ∃ a, source.host = some a ∧
    match c.domain with
    | none => canon (url.hostStr.getD "") = canon a.str
    | some d =>
      '.' ∈ (canon d).toList ∧ endsWith (canon d) "." = false ∧ suffixStr (canon d) ≠ some (canon d) ∧
        a.isAddress = false ∧ Within (canon a.str) (canon d) ∧
        Within (canon (url.hostStr.getD "")) (canon d)

omit [DecidableEq S] in
/-- **The scope of one entry.**  What acceptance checked and what sending checks together. -/
theorem scopeAllows_of_matches {w : World S} {e : JarEvent S} {c : Cookie} {source url : Url} {now : Int}
    (ha : w.Accepts suffixStr e c source)
    (hm : domainMatches (JarEntry.fromSetCookie now c source).domain
      (JarEntry.fromSetCookie now c source).hostOnly (url.hostStr.getD "") = true) :
    ScopeAllows suffixStr c source url := by
  obtain ⟨a, hu, hmay⟩ := ha.maySetDomain
  refine ⟨a, hu, ?_⟩
  cases hd : c.domain with
  | none =>
    have hdom : (JarEntry.fromSetCookie now c source).domain = some a.str := by
      simp [JarEntry.fromSetCookie, hd, Url.hostStr, hu]
    have hho : (JarEntry.fromSetCookie now c source).hostOnly = true := by
      simp [JarEntry.fromSetCookie, hd]
    rw [hdom, hho] at hm
    exact (domainMatches_hostOnly _ _).mp hm
  | some d =>
    rw [hd] at hmay
    have hdom : (JarEntry.fromSetCookie now c source).domain = some (canon d) := by
      simp [JarEntry.fromSetCookie, hd]
    have hho : (JarEntry.fromSetCookie now c source).hostOnly = false := by
      simp [JarEntry.fromSetCookie, hd]
    rw [hdom, hho, domainMatches_iff, canon_canon] at hm
    obtain ⟨-, hdot, hend, hpsl, -, hw⟩ := maySetDomain_some suffixStr hmay
    exact ⟨hdot, hend, hpsl, not_isAddress_of_maySetDomain suffixStr hmay, hw, hm⟩

theorem mem_applicableEntries {now : Int} {jar : CookieJar} {url : Url} {e : JarEntry}
    (h : e ∈ jar.applicableEntries now url) :
    e ∈ jar.entries ∧ e.isExpired now = false ∧ (e.secure = true → url.scheme = "https") ∧
      domainMatches e.domain e.hostOnly (url.hostStr.getD "") = true ∧
      pathMatches e.path url.path = true := by
  obtain ⟨hm, hp⟩ := List.mem_filter.mp h
  simp only [Bool.and_eq_true, Bool.not_eq_true', Bool.or_eq_true, beq_iff_eq] at hp
  refine ⟨hm, hp.1.1.1, fun hs => ?_, hp.1.2, hp.2⟩
  rcases hp.1.1.2 with hn | hn
  · rw [hs] at hn
    cases hn
  · exact hn

/-- A merge that is refused leaves the jar as it is. -/
theorem refused_unchanged (now : Int) (jar : CookieJar) (c : Cookie) (u : Url) :
    ((jar.merge suffixStr now c u).2 = false → (jar.merge suffixStr now c u).1 = jar) ∧
    ((jar.mergeResponse suffixStr now c u).2 = false → (jar.mergeResponse suffixStr now c u).1 = jar) := by
  have hmerge : (jar.merge suffixStr now c u).2 = false → (jar.merge suffixStr now c u).1 = jar := by
    intro h
    rcases CookieJar.merge_cases suffixStr now jar c u with hr | ⟨_, -, -, h2, -⟩
    · rw [hr]
    · rw [h2] at h
      cases h
  refine ⟨hmerge, fun h => ?_⟩
  rcases CookieJar.mergeResponse_cases suffixStr now jar c u with hr | ⟨hr, -⟩
  · rw [hr]
  · rw [hr] at h ⊢
    exact hmerge h

/-- **Scope safety over whole runs.**  From an empty jar, whatever is merged, persisted and
loaded: each cookie a jar returns for `url` is an entry some response set; every accepted
merge that stored this entry had the right to reach `url`; the path matches, a `Secure`
entry goes to https only, and an expired one nowhere.  A refused merge changes nothing. -/
theorem scope_safe {path : JarPath} {now : Int} {es : List (JarEvent S)} {w : World S}
    (h : Run.run (World.step suffixStr) (World.start S path .notFound now) es = some w)
    {s : S} {x : Session} (hs : w.sessions s = some x) :
    (∀ (t : Int) (url : Url), ∀ k ∈ x.jar.applicableCookies t url, ∃ entry ∈ x.jar.entries,
      k = entry.toCookie ∧
      (∃ c source, StoredBy suffixStr (World.start S path .notFound now) es entry c source) ∧
      (∀ c source, StoredBy suffixStr (World.start S path .notFound now) es entry c source →
        ScopeAllows suffixStr c source url) ∧
      pathMatches entry.path url.path = true ∧ (entry.secure = true → url.scheme = "https") ∧
      entry.isExpired t = false) ∧
    (∀ (t : Int) (c : Cookie) (u : Url),
      ((x.jar.merge suffixStr t c u).2 = false → (x.jar.merge suffixStr t c u).1 = x.jar) ∧
      ((x.jar.mergeResponse suffixStr t c u).2 = false →
        (x.jar.mergeResponse suffixStr t c u).1 = x.jar)) := by
  refine ⟨fun t url k hk => ?_, fun t c u => refused_unchanged suffixStr t x.jar c u⟩
  obtain ⟨entry, hentry, rfl⟩ := List.mem_map.mp hk
  obtain ⟨hmem, hexp, hsec, hdom, hpath⟩ := mem_applicableEntries hentry
  refine ⟨entry, hmem, rfl, (World.stored suffixStr h).2 s x hs entry hmem, ?_, hpath, hsec, hexp⟩
  rintro c source ⟨xs, e, ys, w', -, -, ha, rfl⟩
  exact scopeAllows_of_matches suffixStr ha hdom

end

/-- `pref` set by `shop.example.com` for its parent domain. -/
def broadened : List (JarEvent Bool) :=
  [.load true, .mergeResponse true { Cookie.build "pref" "dark" with domain := some "Example.com" }
    (sampleUrl "https" "shop.example.com" "/cart/view")]

theorem scope_safe_broadened : ∃ w x,
    Run.run (World.step fun _ => some "com") (World.start Bool samplePath .notFound 0) broadened = some w ∧
    w.sessions true = some x ∧
    (x.jar.applicableCookies 0 (sampleUrl "http" "www.example.com" "/cart")).map (·.name) = ["pref"] ∧
    ∀ (t : Int) (url : Url), ∀ k ∈ x.jar.applicableCookies t url, ∃ entry ∈ x.jar.entries,
      k = entry.toCookie ∧ pathMatches entry.path url.path = true := by
  have hf : (Run.run (World.step fun _ => some "com") (World.start Bool samplePath .notFound 0)
      broadened).bind (fun w => (w.sessions true).map fun x =>
        (x.jar.applicableCookies 0 (sampleUrl "http" "www.example.com" "/cart")).map (·.name)) =
      some ["pref"] := by decide
  obtain ⟨w, hw, h⟩ := Option.bind_eq_some_iff.mp hf
  obtain ⟨x, hx, hnames⟩ := Option.map_eq_some_iff.mp h
  refine ⟨w, x, hw, hx, hnames, fun t url k hk => ?_⟩
  obtain ⟨entry, hm, he, -, -, hpath, -⟩ := (scope_safe (fun _ => some "com") hw hx).1 t url k hk
  exact ⟨entry, hm, he, hpath⟩

end Afhttp.Profile

import Afhttp.Fetch.BrowserLogout

/-!
# What the jar adds to a request

The jar's cookies go into a header that the HTTP library has to accept and, with a list of
the caller's, through the scope check that refuses the whole request.  What the jar stores
passes that check (`scope_of_stored`).  What it stores from the browser may hold control
characters, which no header value may: a raw `Cookie` header leaves such a cookie out, a list
of cookies does not (`unsendable_stored`).

    the headers build with the jar iff the cookies it adds are header text          (jar_sendable)
-/

namespace Afhttp.Fetch

open Profile Text

/-! ## The scope of a stored entry -/

/-- A host in lower case is its canonical form behind its dots. -/
theorem toAsciiLowercase_dots (h : String) : ∃ n, (toAsciiLowercase h).toList =
    List.replicate n '.' ++ (canon h).toList := by
  refine ⟨(h.toList.takeWhile (· == '.')).length, ?_⟩
  have hdots : (h.toList.takeWhile (· == '.')).map Char.toLower =
      List.replicate (h.toList.takeWhile (· == '.')).length '.' := by
    rw [List.eq_replicate_iff]
    refine ⟨by simp, fun c hc => ?_⟩
    obtain ⟨c', hmem, rfl⟩ := List.mem_map.mp hc
    have hdot : c' = '.' := by simpa using List.mem_takeWhile_imp hmem
    rw [hdot]
    rfl
  unfold canon
  rw [toList_toAsciiLowercase, toList_toAsciiLowercase, toList_trimStartMatches, ← hdots, ← List.map_append,
    List.takeWhile_append_dropWhile]

/-- What the jar's comparison of hosts accepts, the scope check accepts. -/
theorem scope_of_within {h d : String} (hw : Within (canon h) d) :
    toAsciiLowercase h = d ∨ endsWith (toAsciiLowercase h) ("." ++ d) = true := by
  obtain ⟨n, hn⟩ := toAsciiLowercase_dots h
  rcases hw with heq | ⟨sub, heq⟩
  · cases n with
    | zero =>
      left
      apply String.toList_inj.mp
      rw [hn, heq]
      rfl
    | succ n =>
      right
      rw [endsWith_iff]
      refine ⟨String.ofList (List.replicate n '.'), String.toList_inj.mp ?_⟩
      rw [hn, heq, List.replicate_succ']
      simp
  · right
    rw [endsWith_iff]
    refine ⟨String.ofList (List.replicate n '.') ++ sub, String.toList_inj.mp ?_⟩
    rw [hn, heq]
    simp

section
variable {lib : HttpLib}

/-- **Scope.**  A stored entry that applies to `url` passes the check of the header. -/
theorem scope_of_stored {now now' : Int} {jar : CookieJar} {url : Url} {e : JarEntry} (hs : Stored e)
    (happ : e ∈ jar.applicableEntries now url) {c : PreparedCookie}
    (h : prepareCookie lib now' e.toCookie "cookie_jar" = .ok c) (source : String) :
    validateCookieScope lib c url source = .ok () := by
  obtain ⟨-, -, -, hdom, hpath⟩ := mem_applicableEntries happ
  have hc := prepared_of_stored hs h
  have hdomain : validateCookieDomain lib c url source = .ok () := by
    unfold validateCookieDomain
    rw [hc]
    cases hh : e.hostOnly with
    | true => rfl
    | false =>
      obtain ⟨d, hd, hcanon, hne⟩ := hs.domain hh
      rw [hh, hd, domainMatches_iff, hcanon] at hdom
      simp only [Bool.false_eq_true, if_false, hd]
      cases hu : url.hostStr with
      | none =>
        exfalso
        rw [hu] at hdom
        rcases hdom with heq | ⟨sub, heq⟩
        · exact hne heq.symm
        · have hlen := congrArg (fun s : String => s.toList.length) heq
          simp [canon] at hlen
      | some host =>
        rw [hu] at hdom
        simp only [Option.map_some]
        rw [if_neg]
        rintro ⟨hne', hends⟩
        rcases scope_of_within hdom with heq | hends'
        · exact hne' heq
        · rw [Option.getD_some] at hends'
          rw [hends'] at hends
          cases hends
  have hpathOk : validateCookiePath lib c url source = .ok () := by
    obtain ⟨p, hp, -⟩ := hs.path
    unfold validateCookiePath
    rw [hc, hp]
    rw [hp] at hpath
    simp only [hpath, if_true]
  unfold validateCookieScope
  rw [hdomain, hpathOk]
  rfl

/-! ## The text of the header -/

theorem isHeaderText_intercalate (pairs : List String) :
    isHeaderText ("; ".intercalate pairs) = pairs.all isHeaderText := by
  induction pairs with
  | nil => rfl
  | cons pair pairs ih =>
    cases pairs with
    | nil =>
      rw [String.intercalate_singleton]
      simp
    | cons pair' pairs =>
      have hsep : isHeaderText "; " = true := by decide
      rw [String.intercalate_cons_cons, isHeaderText_append, isHeaderText_append, ih, hsep, Bool.and_true]
      rfl

/-- A header that builds has its cookies in scope. -/
theorem scope_of_cookiePairs {now : Int} {url : Url} {cookies : List PreparedCookie} {pairs : List String}
    (h : cookiePairs lib now url cookies = .ok pairs) :
    ∀ c ∈ cookies, (validateCookieScope lib c url ".cookie(...)").isOk = true := by
  induction cookies generalizing pairs with
  | nil =>
    intro c hc
    cases hc
  | cons cookie cookies ih =>
    unfold cookiePairs at h
    obtain ⟨_, hv, h⟩ := except_bind_ok h
    obtain ⟨rest, hrest, -⟩ := except_bind_ok h
    intro c hc
    rcases List.mem_cons.mp hc with rfl | hc
    · rw [hv]
      rfl
    · exact ih hrest c hc

/-- **One header.**  Of cookies in scope it builds exactly if those that go are header text. -/
theorem cookieHeaderForUrl_isOk (ht : lib.HeaderText) {now : Int} {url : Url} {cookies : List PreparedCookie}
    {text : String} (hu : lib.parseUrl text = .ok url)
    (hs : ∀ c ∈ cookies, (validateCookieScope lib c url ".cookie(...)").isOk = true) :
    (∃ value, cookieHeaderForUrl lib now cookies text = .ok value) ↔
      ∀ c ∈ cookies, c.goesTo lib now url = true → isHeaderText c.pair = true := by
  generalize hd : (cookies.filter fun c => c.goesTo lib now url) = due
  have hdue : (∀ c ∈ cookies, c.goesTo lib now url = true → isHeaderText c.pair = true) ↔
      (due.map PreparedCookie.pair).all isHeaderText = true := by
    rw [List.all_eq_true, ← hd]
    constructor
    · intro h pair hp
      obtain ⟨c, hc, rfl⟩ := List.mem_map.mp hp
      obtain ⟨hmem, hg⟩ := List.mem_filter.mp hc
      exact h c hmem hg
    · intro h c hc hg
      exact h c.pair (List.mem_map_of_mem (List.mem_filter.mpr ⟨hc, hg⟩))
  rw [hdue, ← isHeaderText_intercalate, cookieHeaderForUrl_eq hu hs hd]
  by_cases hnone : due = []
  · rw [if_pos hnone, hnone]
    exact iff_of_true ⟨none, rfl⟩ (by decide)
  · rw [if_neg hnone]
    cases htext : isHeaderText ("; ".intercalate (due.map PreparedCookie.pair)) with
    | true =>
      rw [ht.accepts _ htext]
      exact iff_of_true ⟨_, rfl⟩ rfl
    | false =>
      obtain ⟨e, he⟩ := ht.rejects _ htext
      rw [he]
      refine iff_of_false ?_ Bool.false_ne_true
      rintro ⟨value, hv⟩
      cases hv

/-- Cookies that make a header for `url` are in its scope. -/
theorem scope_of_cookieHeader {now : Int} {url : Url} {cookies : List PreparedCookie} {text : String}
    (hu : lib.parseUrl text = .ok url) {value : Option HeaderValue}
    (h : cookieHeaderForUrl lib now cookies text = .ok value) :
    ∀ c ∈ cookies, (validateCookieScope lib c url ".cookie(...)").isOk = true := by
  have hparse : parseCookieUrl lib text = .ok url := by
    unfold parseCookieUrl
    rw [hu]
  unfold cookieHeaderForUrl at h
  by_cases hc : cookies = []
  · intro c hmem
    rw [hc] at hmem
    cases hmem
  · rw [if_neg hc, hparse] at h
    obtain ⟨url', heq, h⟩ := except_bind_ok h
    cases heq
    obtain ⟨pairs, hpairs, -⟩ := except_bind_ok h
    exact scope_of_cookiePairs hpairs

/-! ## With the jar -/

theorem mergeJarCookies_listed {options : PreparedRequestOptions} (hraw : options.rawCookieHeader = none)
    (prepared : List PreparedCookie) : options.mergeJarCookies lib prepared =
      { options with cookies := options.cookies ++ unmasked options.cookies prepared } := by
  unfold PreparedRequestOptions.mergeJarCookies
  rw [hraw]
  rfl

/-- A raw header is sent as it is. -/
theorem httpHeaderMap_raw {options : PreparedRequestOptions} {raw : String × HeaderValue}
    (hraw : options.rawCookieHeader = some raw) (now : Int) (text : String) :
    ∃ map, options.httpHeaderMap lib now text = .ok map := by
  unfold PreparedRequestOptions.httpHeaderMap
  rw [hraw]
  exact ⟨_, rfl⟩

theorem httpHeaderMap_listed {options : PreparedRequestOptions} (hraw : options.rawCookieHeader = none)
    (now : Int) (text : String) : (∃ map, options.httpHeaderMap lib now text = .ok map) ↔
      ∃ value, cookieHeaderForUrl lib now options.cookies text = .ok value := by
  unfold PreparedRequestOptions.httpHeaderMap
  rw [hraw]
  constructor
  · rintro ⟨map, h⟩
    obtain ⟨value, hv, -⟩ := except_bind_ok h
    exact ⟨value, hv⟩
  · rintro ⟨value, hv⟩
    simp only [hv]
    cases value with
    | none => exact ⟨_, rfl⟩
    | some value => exact ⟨_, rfl⟩

/-- Every cookie of a jar that merges have written passes the scope check of the header. -/
theorem scope_of_jarCookies {S : Type} [DecidableEq S] {path : JarPath} {start : Int} {es : List (JarEvent S)}
    {w : World S} (hrun : Run.run (World.step lib.suffixStr) (World.start S path .notFound start) es = some w)
    {jarPath : JarPath} {url : Url} {hop : Hop} (hfile : hop.jarFile = w.file) {prepared : List PreparedCookie}
    (hjar : jarCookies lib jarPath url hop = .ok prepared) {c : PreparedCookie} (hc : c ∈ prepared) :
    validateCookieScope lib c url ".cookie(...)" = .ok () := by
  unfold jarCookies at hjar
  obtain ⟨jar, hload, hjar⟩ := except_bind_ok hjar
  cases hjar
  obtain ⟨cookie, hcookie, hp⟩ := List.mem_filterMap.mp hc
  obtain ⟨e, happ, rfl⟩ := List.mem_map.mp hcookie
  have hmem : e ∈ w.file.list := by
    have he := (mem_applicableEntries happ).1
    rw [CookieJar.load_ok hload, hfile] at he
    exact he
  have hprepared : prepareCookie lib hop.resolveNow e.toCookie "cookie_jar" = .ok c := by
    cases hr : prepareCookie lib hop.resolveNow e.toCookie "cookie_jar" with
    | error err =>
      rw [hr] at hp
      cases hp
    | ok c' =>
      rw [hr] at hp
      cases hp
      rfl
  exact scope_of_stored ((stored_of_run hrun).2 e hmem) happ hprepared ".cookie(...)"

/-- **What the jar adds.**  Of every jar that merges have written, and every options whose
headers build without it: the headers build with it, and its cookies are in scope, exactly if
a raw `Cookie` header is sent or the cookies it adds for `url` are header text. -/
theorem jar_sendable {S : Type} [DecidableEq S] (ht : lib.HeaderText) {path : JarPath} {start : Int}
    {es : List (JarEvent S)} {w : World S}
    (hrun : Run.run (World.step lib.suffixStr) (World.start S path .notFound start) es = some w)
    {options : PreparedRequestOptions} {now : Int} {url : Url}
    (hu : lib.parseUrl url.serialization = .ok url)
    (hbase : ∃ map, options.httpHeaderMap lib now url.serialization = .ok map)
    {jarPath : JarPath} {hop : Hop} (hfile : hop.jarFile = w.file) {prepared : List PreparedCookie}
    (hjar : jarCookies lib jarPath url hop = .ok prepared) :
    ((∃ map, (options.mergeJarCookies lib prepared).httpHeaderMap lib now url.serialization = .ok map) ∧
      ∀ c ∈ prepared, validateCookieScope lib c url ".cookie(...)" = .ok ()) ↔
    (options.rawCookieHeader = none → ∀ c ∈ unmasked options.cookies prepared,
      c.goesTo lib now url = true → isHeaderText c.pair = true) := by
  have hscope : ∀ c ∈ prepared, validateCookieScope lib c url ".cookie(...)" = .ok () :=
    fun c hc => scope_of_jarCookies hrun hfile hjar hc
  rw [and_iff_left hscope]
  cases hraw : options.rawCookieHeader with
  | some raw =>
    have hmerged : ∃ raw', (options.mergeJarCookies lib prepared).rawCookieHeader = some raw' := by
      unfold PreparedRequestOptions.mergeJarCookies
      rw [hraw]
      exact ⟨_, rfl⟩
    obtain ⟨raw', hraw'⟩ := hmerged
    refine iff_of_true (httpHeaderMap_raw hraw' now _) fun hnone => ?_
    cases hnone
  | none =>
    obtain ⟨value, hvalue⟩ := (httpHeaderMap_listed hraw now _).mp hbase
    have hown := scope_of_cookieHeader hu hvalue
    -- the caller's own are header text, or the headers would not build without the jar
    have hcallers := (cookieHeaderForUrl_isOk ht hu hown).mp ⟨value, hvalue⟩
    have hall : ∀ c ∈ options.cookies ++ unmasked options.cookies prepared,
        (validateCookieScope lib c url ".cookie(...)").isOk = true := by
      intro c hc
      rcases List.mem_append.mp hc with hc | hc
      · exact hown c hc
      · rw [hscope c (mem_unmasked.mp hc).1]
        rfl
    have hlisted : (options.mergeJarCookies lib prepared).rawCookieHeader = none := by
      rw [mergeJarCookies_listed hraw]
      exact hraw
    rw [httpHeaderMap_listed hlisted, mergeJarCookies_listed hraw, cookieHeaderForUrl_isOk ht hu hall]
    constructor
    · intro h _ c hc
      exact h c (List.mem_append_right _ hc)
    · intro h c hc hg
      rcases List.mem_append.mp hc with hc | hc
      · exact hcallers c hc hg
      · exact h rfl c hc hg

end

/-! ## A cookie that stops every request -/

/-- The libraries on one page, with the header check of the HTTP library. -/
def headerLib : HttpLib :=
  { browserLib with
    headerValue := fun s => if isHeaderText s then .ok s else .error "failed to parse header value" }

theorem headerLib_headerText : headerLib.HeaderText where
  accepts := fun s h => if_pos h
  rejects := fun s h => ⟨_, if_neg (by simp [h])⟩

def noCookies : PreparedRequestOptions := { loginOptions "pref" with cookies := [] }

/-- A fetch of the page, with this jar. -/
def pageHop (file : JarFile) : Hop := { sampleHops 0 with jarFile := file }

/-- The page has set `sid` to a text with a control character. -/
def controlSid : CdpCookie := { reported "sid" "a.test" with value := some "a\x01b" }

/-- The cookie of the jar, as it is sent. -/
def preparedSid (value : String) (expires : Option Int) (sameSite : Option SameSite) : PreparedCookie :=
  ⟨"sid", value, none, some "/", none, none, sameSite, none, expires⟩

theorem jar_sendable_laxSid :
    ((noCookies.mergeJarCookies headerLib [preparedSid "1" (some 3600) (some .lax)]).httpHeaderMap headerLib 0
      pageUrl.serialization).toOption.bind (·.get .cookie) = some "sid=1" ∧
    (∃ map, (noCookies.mergeJarCookies headerLib [preparedSid "1" (some 3600) (some .lax)]).httpHeaderMap headerLib 0
      pageUrl.serialization = .ok map) ∧
    ∀ c ∈ [preparedSid "1" (some 3600) (some .lax)],
      validateCookieScope headerLib c pageUrl ".cookie(...)" = .ok () := by
  have hf : (Run.run (World.step headerLib.suffixStr) (World.start Bool samplePath .notFound 0)
      (storing laxSid)).map (fun w => w.file) = some (.entries [.fromSetCookie 0 laxSid pageUrl]) := by decide
  obtain ⟨w, hw, hfile⟩ := Option.map_eq_some_iff.mp hf
  have hu : headerLib.parseUrl pageUrl.serialization = .ok pageUrl := by decide
  have hbase : ∃ map, noCookies.httpHeaderMap headerLib 0 pageUrl.serialization = .ok map := ⟨.new, by rfl⟩
  have hjar : jarCookies headerLib samplePath pageUrl (pageHop w.file) =
      .ok [preparedSid "1" (some 3600) (some .lax)] := by
    rw [hfile]
    rfl
  exact ⟨by decide, (jar_sendable headerLib_headerText hw hu hbase rfl hjar).mpr fun _ => by decide⟩

/-- **A cookie that stops every request.**  The sync of a fetch stores the page's cookie; after
it the headers of a request for the page build without the jar and no longer with it. -/
theorem unsendable_stored :
    (Run.run (World.step headerLib.suffixStr) (World.start Bool samplePath .notFound 0)
      [.load true, .merge true (Cookie.build "sid" "a\x01b") pageUrl, .persist true noFault]).map
        (fun w => (w.file, jarCookies headerLib samplePath pageUrl (pageHop w.file))) =
      some (.entries [.fromSetCookie 0 (Cookie.build "sid" "a\x01b") pageUrl],
        .ok [preparedSid "a\x01b" none none]) ∧
    syncBrowserCookiesToJar headerLib "https://a.test/" samplePath (some ⟨samplePath, [], ∅⟩)
      { pageSync [controlSid] with
        loadFile := .notFound
        persistFile := .notFound } =
      .ok (some (.entries [.fromSetCookie 0 (Cookie.build "sid" "a\x01b") pageUrl]), 0) ∧
    headerLib.parseUrl pageUrl.serialization = .ok pageUrl ∧
    noCookies.httpHeaderMap headerLib 0 pageUrl.serialization = .ok .new ∧
    (noCookies.mergeJarCookies headerLib [preparedSid "a\x01b" none none]).httpHeaderMap headerLib 0
      pageUrl.serialization =
      .error (invalidArgument "cookie header value is invalid: failed to parse header value") := by
  refine ⟨by decide, by rfl, by decide, by rfl, by rfl⟩

end Afhttp.Fetch

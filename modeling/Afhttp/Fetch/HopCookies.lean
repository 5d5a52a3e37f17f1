import Afhttp.Fetch.FromBuilder
import Afhttp.Fetch.Redirects
import Mathlib

/-!
# The cookies of a redirect hop

The `Cookie` header of each hop of a chain, with a jar.  A hop should send the caller's
cookies that go to its URL, and under them the jar's (`dueCookies`).  The jar's are masked by
name before the caller's are scoped, so a cookie of the caller's that is not sent may hide one
of the jar's (`logged_out`); where it does not, the hop sends what it should:

    the header is made of the due cookies iff none is suppressed         (hop_cookies)
-/

namespace Afhttp.Fetch

open Profile Text

/-! ## One request -/

def PreparedCookie.pair (cookie : PreparedCookie) : String := s!"{cookie.name}={cookie.value}"

/-- A `Cookie` header of these cookies, none without any. -/
def cookieLine (cookies : List PreparedCookie) : Option HeaderValue :=
  if cookies = [] then none else some ("; ".intercalate (cookies.map PreparedCookie.pair))

/-- A raw `Cookie` header, with these cookies after it. -/
def rawLine (raw : String) (cookies : List PreparedCookie) : String :=
  cookies.foldl (fun line cookie => s!"{line}; {cookie.name}={cookie.value}") raw

/-- The cookies that have the name of none of `mask`. -/
def unmasked (mask cookies : List PreparedCookie) : List PreparedCookie :=
  cookies.filter fun cookie => !(mask.map PreparedCookie.name).contains cookie.name

theorem notContains_name {mask : List PreparedCookie} {name : String} :
    (!(mask.map PreparedCookie.name).contains name) = true ↔ ∀ c ∈ mask, c.name ≠ name := by
  rw [Bool.not_eq_true', List.contains_eq_mem, decide_eq_false_iff_not, List.mem_map]
  constructor
  · intro h c hc hn
    exact h ⟨c, hc, hn⟩
  · rintro h ⟨c, hc, hn⟩
    exact h c hc hn

theorem mem_unmasked {mask cookies : List PreparedCookie} {cookie : PreparedCookie} :
    cookie ∈ unmasked mask cookies ↔ cookie ∈ cookies ∧ ∀ c ∈ mask, c.name ≠ cookie.name := by
  unfold unmasked
  rw [List.mem_filter, notContains_name]

section
variable (lib : HttpLib) (now : Int) (url : Url)

/-- `cookie` goes with a request for `url`: it is in scope, not secure over plaintext, and has
not expired. -/
def PreparedCookie.goesTo (cookie : PreparedCookie) : Bool :=
  (validateCookieScope lib cookie url ".cookie(...)").isOk &&
    !(effectiveCookieSecure cookie && url.scheme != "https") && !cookieIsExpired now cookie

/-- What a hop should send: the caller's cookies that go there, and the jar's that do and
have the name of none of these. -/
def dueCookies (callers jar : List PreparedCookie) : List PreparedCookie :=
  let sent := callers.filter fun cookie => cookie.goesTo lib now url
  sent ++ unmasked sent (jar.filter fun cookie => cookie.goesTo lib now url)

/-- No cookie of the caller's that stays behind has the name of one of the jar's that is due. -/
def Unsuppressed (callers jar : List PreparedCookie) : Prop :=
  ∀ cookie ∈ jar, cookie.goesTo lib now url = true → (∃ caller ∈ callers, caller.name = cookie.name) →
    ∃ caller ∈ callers, caller.goesTo lib now url = true ∧ caller.name = cookie.name

instance (callers jar : List PreparedCookie) : Decidable (Unsuppressed lib now url callers jar) :=
  inferInstanceAs (Decidable (∀ cookie ∈ jar, _ → _ → _))

/-- What a hop sends: the jar's cookies are masked by every cookie of the caller's. -/
def sentCookies (callers jar : List PreparedCookie) : List PreparedCookie :=
  (callers ++ unmasked callers jar).filter fun cookie => cookie.goesTo lib now url

variable {lib now url}

theorem PreparedCookie.goesTo_scope {cookie : PreparedCookie} (h : cookie.goesTo lib now url = true) :
    (validateCookieScope lib cookie url ".cookie(...)").isOk = true := by
  unfold goesTo at h
  rw [Bool.and_eq_true, Bool.and_eq_true] at h
  exact h.1.1

/-- Among cookies in scope, the pairs of the header are those of the cookies that go there. -/
theorem cookiePairs_of_scope {cookies : List PreparedCookie}
    (h : ∀ cookie ∈ cookies, (validateCookieScope lib cookie url ".cookie(...)").isOk = true) :
    cookiePairs lib now url cookies =
      .ok ((cookies.filter fun cookie => cookie.goesTo lib now url).map PreparedCookie.pair) := by
  induction cookies with
  | nil => rfl
  | cons cookie cookies ih =>
    have hscope := h cookie List.mem_cons_self
    have hrest := ih fun c hc => h c (List.mem_cons_of_mem _ hc)
    unfold cookiePairs
    rw [hrest]
    cases hv : validateCookieScope lib cookie url ".cookie(...)" with
    | error e =>
      rw [hv] at hscope
      cases hscope
    | ok _ =>
      show (if _ then _ else _) = _
      by_cases hs : (effectiveCookieSecure cookie && url.scheme != "https") = true
      · have hgoes : ¬cookie.goesTo lib now url = true := by
          unfold PreparedCookie.goesTo
          rw [hs]
          simp
        rw [if_pos hs, List.filter_cons_of_neg hgoes]
        rfl
      · rw [if_neg hs]
        by_cases he : cookieIsExpired now cookie = true
        · have hgoes : ¬cookie.goesTo lib now url = true := by
            unfold PreparedCookie.goesTo
            rw [he]
            simp
          rw [if_pos he, List.filter_cons_of_neg hgoes]
          rfl
        · have hgoes : cookie.goesTo lib now url = true := by
            unfold PreparedCookie.goesTo
            rw [hscope, Bool.eq_false_iff.mpr hs, Bool.eq_false_iff.mpr he]
            rfl
          rw [if_neg he, List.filter_cons_of_pos hgoes]
          rfl

/-- Of cookies in scope, the header is made of those that go there. -/
theorem cookieHeaderForUrl_eq {cookies : List PreparedCookie} {text : String} (hu : lib.parseUrl text = .ok url)
    (hs : ∀ cookie ∈ cookies, (validateCookieScope lib cookie url ".cookie(...)").isOk = true)
    {due : List PreparedCookie} (hd : (cookies.filter fun cookie => cookie.goesTo lib now url) = due) :
    cookieHeaderForUrl lib now cookies text =
      if due = [] then .ok none
      else ((lib.headerValue ("; ".intercalate (due.map PreparedCookie.pair))).mapError fun e =>
        invalidArgument s!"cookie header value is invalid: {e}").map some := by
  have hparse : parseCookieUrl lib text = .ok url := by
    unfold parseCookieUrl
    rw [hu]
  have hpairs : cookiePairs lib now url cookies = .ok (due.map PreparedCookie.pair) := by
    rw [cookiePairs_of_scope hs, hd]
  unfold cookieHeaderForUrl
  by_cases hc : cookies = []
  · have hnone : due = [] := by
      rw [← hd, hc]
      rfl
    rw [if_pos hc, if_pos hnone]
  · rw [if_neg hc, hparse]
    show (cookiePairs lib now url cookies >>= _) = _
    rw [hpairs]
    show (if due.map PreparedCookie.pair = [] then _ else _) = _
    by_cases hnone : due = []
    · rw [if_pos hnone, hnone]
      rfl
    · rw [if_neg hnone, if_neg (by simpa using hnone)]
      cases lib.headerValue ("; ".intercalate (due.map PreparedCookie.pair)) with
      | ok value => rfl
      | error e => rfl

theorem cookieHeaderForUrl_of_scope (ht : lib.HeaderText) {cookies : List PreparedCookie} {text : String}
    (hu : lib.parseUrl text = .ok url)
    (hs : ∀ cookie ∈ cookies, (validateCookieScope lib cookie url ".cookie(...)").isOk = true)
    {value : Option HeaderValue} (h : cookieHeaderForUrl lib now cookies text = .ok value) :
    value = cookieLine (cookies.filter fun cookie => cookie.goesTo lib now url) := by
  rw [cookieHeaderForUrl_eq hu hs rfl] at h
  unfold cookieLine
  by_cases hnone : (cookies.filter fun cookie => cookie.goesTo lib now url) = []
  · rw [if_pos hnone] at h
    rw [if_pos hnone]
    exact (Except.ok.inj h).symm
  · rw [if_neg hnone] at h
    rw [if_neg hnone]
    cases hv : lib.headerValue ("; ".intercalate
        ((cookies.filter fun cookie => cookie.goesTo lib now url).map PreparedCookie.pair)) with
    | ok text' =>
      rw [hv] at h
      rw [← (ht.ok hv).1]
      exact (Except.ok.inj h).symm
    | error e =>
      rw [hv] at h
      cases h

/-- The cookies of a hop after the first, as the retained ones. -/
theorem filter_retainCookies {redirects : ℕ} (hr : 0 < redirects) (cookies : List PreparedCookie) :
    (retainCookies lib redirects url cookies).filter (fun cookie => cookie.goesTo lib now url) =
      cookies.filter fun cookie => cookie.goesTo lib now url := by
  unfold retainCookies
  rw [if_pos hr, List.filter_filter]
  apply List.filter_congr
  intro cookie _
  cases hg : cookie.goesTo lib now url with
  | false => rfl
  | true =>
    rw [Bool.true_and]
    exact PreparedCookie.goesTo_scope hg

/-- **One hop after the first**, with no raw `Cookie` header. -/
theorem prepareRequest_cookies (ht : lib.HeaderText) {builder : FetchBuilder} {jarPath : JarPath}
    (hj : builder.cookieJar.path = some jarPath) {redirects : ℕ} (hr : 0 < redirects)
    {options : PreparedRequestOptions} (hb : ∀ header ∈ options.headers, header.name ≠ .cookie)
    (hraw : options.rawCookieHeader = none) {hop : Hop} {request : Request}
    (hu : lib.parseUrl url.serialization = .ok url)
    (h : prepareRequest lib builder redirects options url hop = .ok request) :
    ∃ jar, jarCookies lib jarPath url hop = .ok jar ∧
      request.headers.get .cookie = cookieLine (sentCookies lib hop.sendNow url options.cookies jar) := by
  obtain ⟨-, -, -, -, resolved, hres, hcaller, hmap⟩ := prepareRequest_ok h
  unfold resolveJarCookies at hres
  rw [hj] at hres
  obtain ⟨jar, hjar, hres⟩ := except_bind_ok hres
  cases hres
  refine ⟨jar, hjar, ?_⟩
  have hmerge : options.mergeJarCookies lib jar =
      { options with cookies := options.cookies ++ unmasked options.cookies jar } := by
    unfold PreparedRequestOptions.mergeJarCookies
    rw [hraw]
    rfl
  have hnone : (options.mergeJarCookies lib jar).callerHeaders.get .cookie = none := by
    rw [hcaller]
    exact PreparedRequestOptions.get_callerHeaders hb (by decide)
  have hrawNone : (options.mergeJarCookies lib jar).rawCookieHeader = none := by
    rw [hmerge]
    exact hraw
  have hheader := PreparedRequestOptions.httpHeaderMap_cookie hmap hrawNone hnone
  rw [cookieHeaderForUrl_of_scope ht hu ?_ hheader, filter_retainCookies hr, hmerge]
  · rfl
  · intro cookie hc
    unfold retainCookies at hc
    rw [if_pos hr] at hc
    exact (List.mem_filter.mp hc).2

/-! ## What should be sent, and what is -/

theorem sentCookies_eq (callers jar : List PreparedCookie) : sentCookies lib now url callers jar =
    (callers.filter fun cookie => cookie.goesTo lib now url) ++
      unmasked callers (jar.filter fun cookie => cookie.goesTo lib now url) := by
  unfold sentCookies unmasked
  rw [List.filter_append, List.filter_filter, List.filter_filter]
  congr 1
  apply List.filter_congr
  intro cookie _
  exact Bool.and_comm _ _

/-- More names mask more. -/
theorem unmasked_sublist {mask mask' : List PreparedCookie} (h : ∀ c ∈ mask', c ∈ mask)
    (cookies : List PreparedCookie) : (unmasked mask cookies).Sublist (unmasked mask' cookies) := by
  apply List.monotone_filter_right
  intro cookie hc
  rw [notContains_name] at hc ⊢
  exact fun c ho => hc c (h c ho)

theorem sentCookies_sublist (callers jar : List PreparedCookie) :
    (sentCookies lib now url callers jar).Sublist (dueCookies lib now url callers jar) := by
  rw [sentCookies_eq]
  unfold dueCookies
  apply List.Sublist.append_left
  apply unmasked_sublist
  intro c hc
  exact (List.mem_filter.mp hc).1

/-- **What is sent is what is due** exactly where none of the jar's is suppressed. -/
theorem sentCookies_eq_due_iff (callers jar : List PreparedCookie) :
    sentCookies lib now url callers jar = dueCookies lib now url callers jar ↔
      Unsuppressed lib now url callers jar := by
  have hsub : (sentCookies lib now url callers jar).Sublist (dueCookies lib now url callers jar) :=
    sentCookies_sublist callers jar
  rw [sentCookies_eq] at hsub ⊢
  unfold dueCookies at hsub ⊢
  simp only [] at hsub ⊢
  rw [List.append_cancel_left_eq]
  constructor
  · rintro heq cookie hj hg ⟨caller, hc, hn⟩
    by_contra hnone
    have hdue : cookie ∈ unmasked (callers.filter fun c => c.goesTo lib now url)
        (jar.filter fun c => c.goesTo lib now url) := by
      rw [mem_unmasked]
      refine ⟨List.mem_filter.mpr ⟨hj, hg⟩, fun c hc' he => hnone ?_⟩
      obtain ⟨hmem, hgoes⟩ := List.mem_filter.mp hc'
      exact ⟨c, hmem, hgoes, he⟩
    rw [← heq, mem_unmasked] at hdue
    exact hdue.2 caller hc hn
  · intro hun
    apply List.filter_congr
    intro cookie hmem
    obtain ⟨hj, hg⟩ := List.mem_filter.mp hmem
    rw [Bool.eq_iff_iff, notContains_name, notContains_name]
    constructor
    · intro h c hc
      exact h c (List.mem_filter.mp hc).1
    · intro h c hc hn
      obtain ⟨c', hc', hgoes, hn'⟩ := hun cookie hj hg ⟨c, hc, hn⟩
      exact h c' (List.mem_filter.mpr ⟨hc', hgoes⟩) hn'

end

/-! ## From the cookies to the header -/

/-- The length of a header, with the separator counted after each pair. -/
theorem length_intercalate {pairs : List String} (h : pairs ≠ []) :
    ("; ".intercalate pairs).length + 2 = (pairs.map fun pair => pair.length + 2).sum := by
  induction pairs with
  | nil => exact absurd rfl h
  | cons pair pairs ih =>
    cases pairs with
    | nil => simp
    | cons pair' pairs =>
      have hrest := ih (List.cons_ne_nil pair' pairs)
      rw [String.intercalate_cons_cons, String.length_append, String.length_append, List.map_cons,
        List.sum_cons, ← hrest]
      have hsep : "; ".length = 2 := rfl
      omega

theorem sublist_eq_of_sum {l l' : List PreparedCookie} (h : l.Sublist l')
    (hs : ((l.map PreparedCookie.pair).map fun pair => pair.length + 2).sum =
      ((l'.map PreparedCookie.pair).map fun pair => pair.length + 2).sum) : l = l' := by
  induction h with
  | slnil => rfl
  | cons c h ih =>
    exfalso
    have hle := ((h.map PreparedCookie.pair).map fun pair => pair.length + 2).sum_le_sum (by simp)
    rw [List.map_cons, List.map_cons, List.sum_cons] at hs
    omega
  | cons_cons c h ih =>
    simp only [List.map_cons, List.sum_cons, Nat.add_left_cancel_iff] at hs
    rw [ih hs]

/-- Two headers are one text only if neither leaves a cookie out. -/
theorem cookieLine_inj {l l' : List PreparedCookie} (h : l.Sublist l') (he : cookieLine l = cookieLine l') :
    l = l' := by
  unfold cookieLine at he
  by_cases hl : l = []
  · by_cases hl' : l' = []
    · rw [hl, hl']
    · rw [if_pos hl, if_neg hl'] at he
      cases he
  · have hl' : l' ≠ [] := by
      rintro rfl
      exact hl (List.sublist_nil.mp h)
    rw [if_neg hl, if_neg hl'] at he
    have htext := Option.some.inj he
    have hpairs : l.map PreparedCookie.pair ≠ [] := by simpa using hl
    have hpairs' : l'.map PreparedCookie.pair ≠ [] := by simpa using hl'
    have hsum := length_intercalate hpairs
    have hsum' := length_intercalate hpairs'
    rw [htext] at hsum
    exact sublist_eq_of_sum h (hsum.symm.trans hsum')

/-! ## A raw header -/

section
variable {lib : HttpLib}

/-- The jar's cookies join a raw header one by one, but for those that are no header text. -/
theorem foldl_joinRaw (ht : lib.HeaderText) (existing : List String) {raw : String}
    (hraw : isHeaderText raw = true) (extras pairs : List PreparedCookie) :
    (extras.foldl (PreparedRequestOptions.joinRaw lib existing) ((raw, raw), pairs)).1 =
      (rawLine raw (extras.filter fun c => !existing.contains c.name && isHeaderText c.pair),
        rawLine raw (extras.filter fun c => !existing.contains c.name && isHeaderText c.pair)) := by
  induction extras generalizing raw pairs with
  | nil => rfl
  | cons c extras ih =>
    rw [List.foldl_cons]
    unfold PreparedRequestOptions.joinRaw
    by_cases he : existing.contains c.name = true
    · rw [if_pos he, List.filter_cons_of_neg (by rw [he]; simp)]
      exact ih hraw pairs
    · rw [if_neg he]
      have hjoined : isHeaderText s!"{raw}; {c.name}={c.value}" = isHeaderText c.pair := by
        show isHeaderText (raw ++ "; " ++ c.name ++ "=" ++ c.value) =
          isHeaderText (c.name ++ "=" ++ c.value)
        rw [isHeaderText_append, isHeaderText_append, isHeaderText_append, isHeaderText_append,
          isHeaderText_append, isHeaderText_append, hraw]
        rfl
      cases hc : isHeaderText c.pair with
      | true =>
        rw [hc] at hjoined
        simp only [ht.accepts _ hjoined]
        rw [List.filter_cons_of_pos (by rw [hc, Bool.eq_false_iff.mpr he]; rfl)]
        exact ih hjoined (pairs ++ [c])
      | false =>
        rw [hc] at hjoined
        obtain ⟨e, hrej⟩ := ht.rejects _ hjoined
        simp only [hrej]
        rw [List.filter_cons_of_neg (by rw [hc]; simp)]
        exact ih hraw pairs

/-- **One hop with a raw header.**  The header is the caller's, and the jar's cookies of other
names after it. -/
theorem prepareRequest_raw (ht : lib.HeaderText) {builder : FetchBuilder} {jarPath : JarPath}
    (hj : builder.cookieJar.path = some jarPath) {redirects : ℕ} {options : PreparedRequestOptions}
    {raw : String × HeaderValue} (hraw : options.rawCookieHeader = some raw)
    (hv : lib.headerValue raw.1 = .ok raw.2) {url : Url} {hop : Hop} {request : Request}
    (h : prepareRequest lib builder redirects options url hop = .ok request) :
    ∃ jar, jarCookies lib jarPath url hop = .ok jar ∧ request.headers.get .cookie =
      some (rawLine raw.1 ((unmasked options.rawCookiePairs jar).filter fun c => isHeaderText c.pair)) := by
  obtain ⟨-, -, -, -, resolved, hres, -, hmap⟩ := prepareRequest_ok h
  unfold resolveJarCookies at hres
  rw [hj] at hres
  obtain ⟨jar, hjar, hres⟩ := except_bind_ok hres
  cases hres
  refine ⟨jar, hjar, ?_⟩
  obtain ⟨htext, hvalid⟩ := ht.ok hv
  have hpair : raw = (raw.1, raw.1) := Prod.ext rfl htext
  have hmerge : (options.mergeJarCookies lib jar).rawCookieHeader =
      some (rawLine raw.1 ((unmasked options.rawCookiePairs jar).filter fun c => isHeaderText c.pair),
        rawLine raw.1 ((unmasked options.rawCookiePairs jar).filter fun c => isHeaderText c.pair)) := by
    unfold PreparedRequestOptions.mergeJarCookies
    rw [hraw]
    show some (jar.foldl _ (raw, _)).1 = _
    rw [hpair, foldl_joinRaw ht _ hvalid]
    unfold unmasked
    rw [List.filter_filter]
    simp only [Bool.and_comm]
  unfold PreparedRequestOptions.httpHeaderMap at hmap
  simp only [hmerge] at hmap
  rw [← Except.ok.inj hmap]
  exact HeaderMap.get_insert_self ..

end

/-! ## What a chain holds -/

/-- No URL of the list has another origin than the one before. -/
def stayed : List Url → Bool
  | url :: next :: urls => url.sameOrigin next && stayed (next :: urls)
  | _ => true

/-- The options of the hop at the end of `urls`, as far as cookies go. -/
structure PreparedRequestOptions.HeldAfter (options : PreparedRequestOptions) (urls : List Url)
    (held : PreparedRequestOptions) : Prop where
  headers : ∀ header ∈ held.headers, header ∈ options.headers
  cookies : held.cookies = if stayed urls then options.cookies else []
  rawCookieHeader : held.rawCookieHeader = if stayed urls then options.rawCookieHeader else none
  rawCookiePairs : held.rawCookiePairs = if stayed urls then options.rawCookiePairs else []

theorem PreparedRequestOptions.heldAfter_single (options : PreparedRequestOptions) (url : Url) :
    options.HeldAfter [url] options :=
  ⟨fun _ h => h, rfl, rfl, rfl⟩

/-- **One redirect** keeps the caller's cookies within the origin and drops them elsewhere. -/
theorem PreparedRequestOptions.HeldAfter.redirected {options held : PreparedRequestOptions} {url next : Url}
    {status : ℕ} {urls : List Url} (h : (options.redirected url next status).HeldAfter (next :: urls) held) :
    options.HeldAfter (url :: next :: urls) held := by
  obtain ⟨left, hleft, hr⟩ := options.redirected_cases url next status
  have hkept : (options.redirected url next status).cookies = left.cookies ∧
      (options.redirected url next status).rawCookieHeader = left.rawCookieHeader ∧
      (options.redirected url next status).rawCookiePairs = left.rawCookiePairs ∧
      ∀ header ∈ (options.redirected url next status).headers, header ∈ left.headers := by
    rcases hr with ⟨-, hr⟩ | ⟨-, hr⟩ <;> rw [hr]
    · exact ⟨rfl, rfl, rfl, fun header hh => (List.mem_filter.mp hh).1⟩
    · exact ⟨rfl, rfl, rfl, fun header hh => hh⟩
  obtain ⟨hc, hraw, hpairs, hh⟩ := hkept
  obtain ⟨h1, h2, h3, h4⟩ := h
  rw [hc] at h2
  rw [hraw] at h3
  rw [hpairs] at h4
  have hstay : stayed (url :: next :: urls) = (url.sameOrigin next && stayed (next :: urls)) := rfl
  rcases hleft with ⟨hs, rfl⟩ | ⟨hs, rfl⟩
  · rw [hs, Bool.true_and] at hstay
    exact ⟨fun header hm => hh header (h1 header hm), by rw [hstay, h2], by rw [hstay, h3], by rw [hstay, h4]⟩
  · rw [hs, Bool.false_and] at hstay
    refine ⟨fun header hm => (List.mem_filter.mp (hh header (h1 header hm))).1, ?_, ?_, ?_⟩
    · rw [hstay, h2]
      exact ite_self []
    · rw [hstay, h3]
      exact ite_self none
    · rw [hstay, h4]
      exact ite_self []

/-- Each request of a chain is prepared from what the chain still holds. -/
theorem Chain.prepared {lib : HttpLib} {builder : FetchBuilder} {hops : ℕ → Hop} {redirects : ℕ} {url : Url}
    {options : PreparedRequestOptions} {sent : List Request}
    (h : Chain lib builder hops redirects url options sent) {k : ℕ} {request : Request}
    (hr : sent[k]? = some request) :
    ∃ held, options.HeldAfter ((sent.take (k + 1)).map Request.url) held ∧
      prepareRequest lib builder (redirects + k) held request.url (hops (redirects + k)) = .ok request := by
  induction h generalizing k with
  | unsent => cases hr
  | @last redirects url options first prepared =>
    obtain ⟨-, hu, -⟩ := prepareRequest_ok prepared
    cases k with
    | zero =>
      cases hr
      refine ⟨options, options.heldAfter_single _, ?_⟩
      rw [hu]
      exact prepared
    | succ k => cases hr
  | @follow redirects url next options first response location rest prepared answered located after ih =>
    obtain ⟨-, hu, -⟩ := prepareRequest_ok prepared
    cases k with
    | zero =>
      cases hr
      refine ⟨options, options.heldAfter_single _, ?_⟩
      rw [hu]
      exact prepared
    | succ k =>
      rw [List.getElem?_cons_succ] at hr
      obtain ⟨held, hheld, hprep⟩ := ih hr
      refine ⟨held, ?_, ?_⟩
      · rw [List.take_succ_cons, List.map_cons, hu]
        -- the rest is not empty, and starts at `next`
        cases rest with
        | nil => cases hr
        | cons second rest =>
          have hfirst : (second :: rest)[0]? = some second := rfl
          obtain ⟨hu', -⟩ := after.head hfirst
          rw [List.take_succ_cons, List.map_cons, hu'] at hheld ⊢
          exact hheld.redirected
      · rw [shift]
        exact hprep

/-! ## Every hop -/

/-- `Url::join` gives what its text parses to. -/
def HttpLib.Reparses (lib : HttpLib) : Prop :=
  ∀ base text url, lib.joinUrl base text = .ok url → lib.parseUrl url.serialization = .ok url

/-- The target of a redirect has been joined. -/
theorem Chain.reparses {lib : HttpLib} (hparse : lib.Reparses) {builder : FetchBuilder} {hops : ℕ → Hop}
    {redirects : ℕ} {url : Url} {options : PreparedRequestOptions} {sent : List Request}
    (h : Chain lib builder hops redirects url options sent) {k : ℕ} (hk : 0 < k) {request : Request}
    (hr : sent[k]? = some request) : lib.parseUrl request.url.serialization = .ok request.url := by
  obtain ⟨k, rfl⟩ : ∃ k', k = k' + 1 := ⟨k - 1, by omega⟩
  obtain ⟨hlt, -⟩ := List.getElem?_eq_some_iff.mp hr
  have hprev : sent[k]? = some sent[k] := List.getElem?_eq_getElem (by omega)
  obtain ⟨response, -, hby⟩ := h.redirect hprev hr
  obtain ⟨location, -, hnext⟩ := hby.located
  unfold nextUrl at hnext
  split at hnext
  · cases hnext
  · split at hnext
    · cases hnext
    · next hjoin =>
      split at hnext
      · cases hnext
        exact hparse _ _ _ hjoin
      · cases hnext

/-- What is left of the caller's credentials after these URLs. -/
def PreparedRequestOptions.keptAfter (options : PreparedRequestOptions) (urls : List Url) :
    PreparedRequestOptions :=
  if stayed urls then options else options.leaveOrigin

theorem PreparedRequestOptions.HeldAfter.kept {options held : PreparedRequestOptions} {urls : List Url}
    (h : options.HeldAfter urls held) : held.cookies = (options.keptAfter urls).cookies ∧
      held.rawCookieHeader = (options.keptAfter urls).rawCookieHeader ∧
      held.rawCookiePairs = (options.keptAfter urls).rawCookiePairs := by
  obtain ⟨-, hc, hraw, hpairs⟩ := h
  unfold keptAfter
  cases hs : stayed urls with
  | true =>
    rw [hs] at hc hraw hpairs
    exact ⟨hc, hraw, hpairs⟩
  | false =>
    rw [hs] at hc hraw hpairs
    exact ⟨hc, hraw, hpairs⟩

/-- The cookies of `hop`, with what is left of the caller's and the jar's for its URL. -/
structure SendsCookies (lib : HttpLib) (now : Int) (kept : PreparedRequestOptions) (jar : List PreparedCookie)
    (hop : Request) : Prop where
  /-- The header is made of the due cookies exactly where none is suppressed. -/
  listed : kept.rawCookieHeader = none →
    (hop.headers.get .cookie = cookieLine (dueCookies lib now hop.url kept.cookies jar) ↔
      Unsuppressed lib now hop.url kept.cookies jar)
  /-- A raw header has the jar's cookies of other names after it. -/
  raw : ∀ raw ∈ kept.rawCookieHeader, hop.headers.get .cookie =
    some (rawLine raw.1 ((unmasked kept.rawCookiePairs jar).filter fun c => isHeaderText c.pair))

/-- **The cookies of every hop after the first**, whatever the caller's, the jar at each hop
and the answers. -/
theorem hop_cookies (lib : BuilderLib) (ht : lib.HeaderText) (hparse : lib.Reparses) {builder : FetchBuilder}
    {jarPath : JarPath} (hj : builder.cookieJar.path = some jarPath) {now : Int} {request : RequestOptions}
    {options : PreparedRequestOptions} (ho : fromBuilder lib now request = .ok options) (hops : ℕ → Hop)
    {sent : List Request} (hs : (sendHttpResponse lib.toHttpLib builder options hops).1 = sent)
    {k : ℕ} (hk : 0 < k) {hop : Request} (hr : sent[k]? = some hop) :
    ∃ jar, jarCookies lib.toHttpLib jarPath hop.url (hops k) = .ok jar ∧
      SendsCookies lib.toHttpLib (hops k).sendNow (options.keptAfter ((sent.take (k + 1)).map Request.url)) jar
        hop := by
  have hbuilt : options.Built lib.toHttpLib := fromBuilder_built ho
  have hchain : ∃ url, Chain lib.toHttpLib builder hops 0 url options sent := by
    unfold sendHttpResponse at hs
    split at hs
    · rw [← hs] at hr
      cases hr
    · next url _ =>
      rw [← hs]
      exact ⟨url, sendHops_chain builder hops 11 0 url options⟩
  obtain ⟨url, hchain⟩ := hchain
  have hu := hchain.reparses hparse hk hr
  obtain ⟨held, hheld, hprep⟩ := hchain.prepared hr
  rw [Nat.zero_add] at hprep
  obtain ⟨hc, hraw, hpairs⟩ := hheld.kept
  have hheaders : ∀ header ∈ held.headers, header.name ≠ .cookie :=
    fun header hm => hbuilt.headers header (hheld.headers header hm)
  cases hheldRaw : held.rawCookieHeader with
  | none =>
    obtain ⟨jar, hjar, hcookie⟩ := prepareRequest_cookies ht hj hk hheaders hheldRaw hu hprep
    refine ⟨jar, hjar, fun _ => ?_, fun raw hmem => ?_⟩
    · rw [← hc, hcookie, ← sentCookies_eq_due_iff]
      constructor
      · exact cookieLine_inj (sentCookies_sublist _ _)
      · intro heq
        rw [heq]
    · rw [← hraw, hheldRaw] at hmem
      cases hmem
  | some raw =>
    have hv : lib.headerValue raw.1 = .ok raw.2 := by
      apply hbuilt.raw
      have hmem := hheld.rawCookieHeader
      rw [hheldRaw] at hmem
      split at hmem
      · exact hmem.symm
      · cases hmem
    obtain ⟨jar, hjar, hcookie⟩ := prepareRequest_raw ht hj hheldRaw hv hprep
    refine ⟨jar, hjar, fun hnone => ?_, fun raw' hmem => ?_⟩
    · rw [← hraw, hheldRaw] at hnone
      cases hnone
    · rw [← hraw, hheldRaw] at hmem
      cases hmem
      rw [hcookie, hpairs]

/-! ## A login that redirects -/

/-- The libraries on the login below. -/
def loginLib : BuilderLib where
  toHttpLib := { sampleLib with
    headerValue := fun s => if isHeaderText s then .ok s else .error "failed to parse header value" }
  headerName := fun s => .ok ⟨toAsciiLowercase s, toAsciiLowercase_idem s⟩
  splitParse := fun _ => []
  toUppercase := fun s => String.ofList (s.toList.map Char.toUpper)

/-- A caller with one cookie, for the login page alone. -/
def loginRequest (name : String) : RequestOptions where
  headers := []
  userAgent := none
  cookies := [{ Cookie.build name "guest" with path := some "/login" }]
  evaluateAfterWait := []
  method := none
  body := none
  form := []

def loginOptions (name : String) : PreparedRequestOptions where
  headers := []
  userAgent := none
  rawCookieHeader := none
  cookies := [⟨name, "guest", none, some "/login", none, none, none, none, none⟩]
  rawCookiePairs := []
  evaluateAfterWait := []
  method := "GET"
  bodyPayload := .none

/-- The login stores `sid=1` and leads to the home page. -/
def loginHops (k : ℕ) : Hop :=
  { sampleHops k with
    response := .ok (
      if k = 0 then ⟨sampleUrl "http" "a.test" "/login", 302, [some "sid=1"], some (some "http://a.test/home")⟩
      else ⟨sampleUrl "http" "a.test" "/home", 200, [], none⟩) }

def loginSent (name : String) : List Request :=
  (sendHttpResponse loginLib.toHttpLib sampleBuilder (loginOptions name) loginHops).1

theorem loginLib_headerText : loginLib.HeaderText where
  accepts := fun s h => if_pos h
  rejects := fun s h => ⟨_, if_neg (by simp [h])⟩

theorem loginLib_reparses : loginLib.Reparses := by
  intro base text url h
  change (if text = "http://b.test/" then Except.ok (sampleUrl "http" "b.test" "/")
    else if text = "http://a.test/home" then .ok (sampleUrl "http" "a.test" "/home")
    else .error "invalid port number") = .ok url at h
  split at h
  · cases h
    decide
  · split at h
    · cases h
      decide
    · cases h

/-- What the jar holds for the home page. -/
def loginSid : PreparedCookie := ⟨"sid", "1", none, some "/", none, none, none, none, none⟩

theorem hop_cookies_login :
    ((loginSent "pref").map fun request => (request.url.path, request.headers.get .cookie)) =
      [("/login", some "pref=guest"), ("/home", some "sid=1")] ∧
    ∃ hop, (loginSent "pref")[1]? = some hop ∧
      ∃ jar, jarCookies loginLib.toHttpLib samplePath hop.url (loginHops 1) = .ok jar ∧
        SendsCookies loginLib.toHttpLib (loginHops 1).sendNow
          ((loginOptions "pref").keptAfter (((loginSent "pref").take 2).map Request.url)) jar hop := by
  have hlen : 1 < (loginSent "pref").length := by decide
  have hr : (loginSent "pref")[1]? = some (loginSent "pref")[1] := List.getElem?_eq_getElem hlen
  have hj : sampleBuilder.cookieJar.path = some samplePath := rfl
  have ho : fromBuilder loginLib 0 (loginRequest "pref") = .ok (loginOptions "pref") := by rfl
  refine ⟨by decide, (loginSent "pref")[1], hr, ?_⟩
  exact hop_cookies loginLib loginLib_headerText loginLib_reparses hj ho loginHops rfl Nat.one_pos hr

/-- **A login that logs nobody in.**  The caller's own `sid` is for the login page; at the
home page it is not sent, and the `sid` the login has stored is not either. -/
theorem logged_out :
    fromBuilder loginLib 0 (loginRequest "sid") = .ok (loginOptions "sid") ∧
    ((loginSent "sid").map fun request => (request.url, request.headers.get .cookie)) =
      [(sampleUrl "http" "a.test" "/login", some "sid=guest"), (sampleUrl "http" "a.test" "/home", none)] ∧
    jarCookies loginLib.toHttpLib samplePath (sampleUrl "http" "a.test" "/home") (loginHops 1) =
      .ok [loginSid] ∧
    cookieLine (dueCookies loginLib.toHttpLib (loginHops 1).sendNow (sampleUrl "http" "a.test" "/home")
      ((loginOptions "sid").keptAfter (((loginSent "sid").take 2).map Request.url)).cookies [loginSid]) =
        some "sid=1" := by
  refine ⟨by rfl, by decide, by rfl, by decide⟩

end Afhttp.Fetch

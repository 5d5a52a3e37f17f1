import Afhttp.Fetch.HttpOnly

/-!
# What a chain of redirects carries

The loop of `sendHttpResponse` as a chain of hops (`Chain`): each hop is prepared from the
URL and the options left by those before it.  From the first URL of another origin on, the
options hold nothing of the caller's credentials (`Stripped`), and from the first hop made
a `GET` on, nothing of its body (`BodyLess`); no redirect brings either back.

    every chain of requests keeps the rules, from any options and any answers   (redirects_confidential)
-/

namespace Afhttp.Fetch

open Profile

section
variable (lib : HttpLib)

/-! ## The headers of one request -/

namespace PreparedRequestOptions

theorem mergeJarCookies_method (options : PreparedRequestOptions) (extras : List PreparedCookie) :
    (options.mergeJarCookies lib extras).method = options.method := by
  unfold mergeJarCookies
  split <;> rfl

theorem mergeJarCookies_bodyPayload (options : PreparedRequestOptions) (extras : List PreparedCookie) :
    (options.mergeJarCookies lib extras).bodyPayload = options.bodyPayload := by
  unfold mergeJarCookies
  split <;> rfl

theorem mergeJarCookies_callerHeaders (options : PreparedRequestOptions) (extras : List PreparedCookie) :
    (options.mergeJarCookies lib extras).callerHeaders = options.callerHeaders := by
  unfold mergeJarCookies
  split <;> rfl

/-- With no cookie of the caller's, the jar's are the ones to send. -/
theorem mergeJarCookies_of_none {options : PreparedRequestOptions} (extras : List PreparedCookie)
    (hr : options.rawCookieHeader = none) (hc : options.cookies = []) :
    options.mergeJarCookies lib extras = { options with cookies := extras } := by
  unfold mergeJarCookies
  rw [hr, hc]
  simp

/-- A header the caller did not set is not sent. -/
theorem get_callerHeaders {options : PreparedRequestOptions} {name : HeaderName}
    (hh : ∀ header ∈ options.headers, header.name ≠ name) (hu : name ≠ .userAgent) :
    options.callerHeaders.get name = none := by
  have hfold : ∀ (headers : List PreparedHeader) (map : HeaderMap), map.get name = none →
      (∀ header ∈ headers, header.name ≠ name) →
      (headers.foldl (fun map header => map.insert header.name header.value) map).get name = none := by
    intro headers
    induction headers with
    | nil => exact fun map hmap _ => hmap
    | cons header headers ih =>
      intro map hmap hne
      rw [List.foldl_cons]
      refine ih _ ?_ fun header' h' => hne header' (List.mem_cons_of_mem _ h')
      rw [map.get_insert_of_ne _ (hne header List.mem_cons_self).symm]
      exact hmap
  unfold callerHeaders
  simp only []
  split
  · rw [HeaderMap.get_insert_of_ne _ _ hu]
    exact hfold _ _ rfl hh
  · exact hfold _ _ rfl hh

variable {lib}

/-- The `Cookie` header apart, the headers sent are the caller's. -/
theorem httpHeaderMap_get {now : Int} {options : PreparedRequestOptions} {url : String} {map : HeaderMap}
    (h : options.httpHeaderMap lib now url = .ok map) {name : HeaderName} (hn : name ≠ .cookie) :
    map.get name = options.callerHeaders.get name := by
  unfold httpHeaderMap at h
  split at h
  · cases h
    exact HeaderMap.get_insert_of_ne _ _ hn
  · obtain ⟨value, -, h⟩ := except_bind_ok h
    cases value with
    | none =>
      cases h
      rfl
    | some value =>
      cases h
      exact HeaderMap.get_insert_of_ne _ _ hn

/-- With no raw `Cookie` header, the one sent is made of `cookies`. -/
theorem httpHeaderMap_cookie {now : Int} {options : PreparedRequestOptions} {url : String} {map : HeaderMap}
    (h : options.httpHeaderMap lib now url = .ok map) (hr : options.rawCookieHeader = none)
    (hc : options.callerHeaders.get .cookie = none) :
    cookieHeaderForUrl lib now options.cookies url = .ok (map.get .cookie) := by
  unfold httpHeaderMap at h
  rw [hr] at h
  obtain ⟨value, hv, h⟩ := except_bind_ok h
  rw [hv]
  cases value with
  | none =>
    cases h
    rw [hc]
  | some value =>
    cases h
    rw [HeaderMap.get_insert_self]

end PreparedRequestOptions

/-- **One request.**  It has the method, the body and the headers of the options it is
prepared from; the jar touches the cookies only. -/
theorem prepareRequest_ok {lib : HttpLib} {builder : FetchBuilder} {redirects : ℕ}
    {options : PreparedRequestOptions} {url : Url} {hop : Hop} {request : Request}
    (h : prepareRequest lib builder redirects options url hop = .ok request) :
    request.method = options.method ∧ request.url = url ∧ request.bodyPayload = options.bodyPayload ∧
      (∀ name ≠ HeaderName.cookie, request.headers.get name = options.callerHeaders.get name) ∧
      ∃ resolved, resolveJarCookies lib builder options url hop = .ok resolved ∧
        resolved.callerHeaders = options.callerHeaders ∧
        { resolved with cookies := retainCookies lib redirects url resolved.cookies }.httpHeaderMap lib
          hop.sendNow url.serialization = .ok request.headers := by
  unfold prepareRequest at h
  obtain ⟨resolved, hres, h⟩ := except_bind_ok h
  have hkept : resolved.method = options.method ∧ resolved.bodyPayload = options.bodyPayload ∧
      resolved.callerHeaders = options.callerHeaders := by
    unfold resolveJarCookies at hres
    split at hres
    · cases hres
      exact ⟨rfl, rfl, rfl⟩
    · obtain ⟨prepared, -, hres⟩ := except_bind_ok hres
      cases hres
      exact ⟨options.mergeJarCookies_method lib prepared, options.mergeJarCookies_bodyPayload lib prepared,
        options.mergeJarCookies_callerHeaders lib prepared⟩
  obtain ⟨hm, hb, hh⟩ := hkept
  simp only [] at h
  split at h
  · cases h
  · obtain ⟨headers, hmap, h⟩ := except_bind_ok h
    cases h
    refine ⟨hm, rfl, hb, fun name hn => ?_, resolved, hres, hh, hmap⟩
    rw [PreparedRequestOptions.httpHeaderMap_get hmap hn, ← hh]
    rfl

/-! ## Options that have lost something -/

/-- Nothing of what the caller meant for its own origin is left. -/
structure PreparedRequestOptions.Stripped (options : PreparedRequestOptions) : Prop where
  headers : ∀ header ∈ options.headers, isOriginScopedHeader header.name.str = false
  rawCookieHeader : options.rawCookieHeader = none
  cookies : options.cookies = []

/-- No body is left, nor a header about one. -/
structure PreparedRequestOptions.BodyLess (options : PreparedRequestOptions) : Prop where
  bodyPayload : options.bodyPayload = .none
  headers : ∀ header ∈ options.headers, isContentHeader header.name.str = false

/-- The jar's own cookies for a request, none without a jar. -/
def ownCookies (builder : FetchBuilder) (url : Url) (hop : Hop) : Except Error (List PreparedCookie) :=
  match builder.cookieJar.path with
  | none => .ok []
  | some jarPath => jarCookies lib jarPath url hop

/-- `request` carries no credentials of the caller: of the origin-scoped headers it has none
but a `Cookie`, and that one is made of the jar's cookies. -/
structure Request.Redacted (builder : FetchBuilder) (redirects : ℕ) (hop : Hop) (request : Request) :
    Prop where
  originScoped : ∀ name : HeaderName, isOriginScopedHeader name.str = true → name ≠ .cookie →
    request.headers.get name = none
  cookie : ∃ cookies, ownCookies lib builder request.url hop = .ok cookies ∧
    cookieHeaderForUrl lib hop.sendNow (retainCookies lib redirects request.url cookies)
      request.url.serialization = .ok (request.headers.get .cookie)

/-- `request` carries no body, and no header about one. -/
structure Request.Bare (request : Request) : Prop where
  bodyPayload : request.bodyPayload = .none
  headers : ∀ name : HeaderName, isContentHeader name.str = true → request.headers.get name = none

theorem userAgent_not_scoped : isOriginScopedHeader HeaderName.userAgent.str = false := by decide

theorem userAgent_not_content : isContentHeader HeaderName.userAgent.str = false := by decide

theorem cookie_scoped : isOriginScopedHeader HeaderName.cookie.str = true := by decide

theorem cookie_not_content : isContentHeader HeaderName.cookie.str = false := by decide

/-- A kind of header the caller set none of is not among its headers. -/
theorem get_callerHeaders_of_kind {kind : String → Bool} {options : PreparedRequestOptions}
    (hh : ∀ header ∈ options.headers, kind header.name.str = false)
    (hu : kind HeaderName.userAgent.str = false) {name : HeaderName} (hn : kind name.str = true) :
    options.callerHeaders.get name = none := by
  apply PreparedRequestOptions.get_callerHeaders
  · rintro header hmem rfl
    rw [hh header hmem] at hn
    cases hn
  · rintro rfl
    rw [hu] at hn
    cases hn

theorem PreparedRequestOptions.Stripped.redacted {lib : HttpLib} {builder : FetchBuilder} {redirects : ℕ}
    {options : PreparedRequestOptions} {url : Url} {hop : Hop} {request : Request} (hs : options.Stripped)
    (h : prepareRequest lib builder redirects options url hop = .ok request) :
    request.Redacted lib builder redirects hop := by
  obtain ⟨-, rfl, -, hget, resolved, hres, hcaller, hmap⟩ := prepareRequest_ok h
  have hnone : ∀ name : HeaderName, isOriginScopedHeader name.str = true →
      options.callerHeaders.get name = none := by
    intro name hn
    exact get_callerHeaders_of_kind hs.headers userAgent_not_scoped hn
  refine ⟨fun name hn hc => ?_, ?_⟩
  · rw [hget name hc]
    exact hnone name hn
  · have hcookie : resolved.callerHeaders.get .cookie = none := by
      rw [hcaller]
      exact hnone .cookie cookie_scoped
    have hjar : resolved.rawCookieHeader = none ∧
        ownCookies lib builder request.url hop = .ok resolved.cookies := by
      unfold resolveJarCookies at hres
      unfold ownCookies
      cases hp : builder.cookieJar.path with
      | none =>
        rw [hp] at hres
        cases hres
        exact ⟨hs.rawCookieHeader, by rw [hs.cookies]⟩
      | some jarPath =>
        rw [hp] at hres
        obtain ⟨prepared, hprep, hres⟩ := except_bind_ok hres
        rw [options.mergeJarCookies_of_none lib prepared hs.rawCookieHeader hs.cookies] at hres
        cases hres
        exact ⟨hs.rawCookieHeader, hprep⟩
    refine ⟨resolved.cookies, hjar.2, ?_⟩
    exact PreparedRequestOptions.httpHeaderMap_cookie hmap hjar.1 hcookie

theorem PreparedRequestOptions.BodyLess.bare {lib : HttpLib} {builder : FetchBuilder} {redirects : ℕ}
    {options : PreparedRequestOptions} {url : Url} {hop : Hop} {request : Request} (hb : options.BodyLess)
    (h : prepareRequest lib builder redirects options url hop = .ok request) : request.Bare := by
  obtain ⟨-, -, hbody, hget, -⟩ := prepareRequest_ok h
  refine ⟨by rw [hbody, hb.bodyPayload], fun name hn => ?_⟩
  have hc : name ≠ .cookie := by
    rintro rfl
    rw [cookie_not_content] at hn
    cases hn
  rw [hget name hc]
  exact get_callerHeaders_of_kind hb.headers userAgent_not_content hn

/-! ## One redirect -/

/-- What HTTP makes a `GET` of: a 303 to anything but a `HEAD`, a 301 or 302 to a `POST`. -/
def BecomesGet (status : ℕ) (method : String) : Prop :=
  (status = 303 ∧ method ≠ "HEAD") ∨ ((status = 301 ∨ status = 302) ∧ method = "POST")

/-- `request'` is where `response` sends `request` to. -/
structure Request.RedirectedBy (response : Response) (request request' : Request) : Prop where
  located : ∃ location, response.location = some location ∧
    nextUrl lib request.url location = some request'.url
  rewritten : BecomesGet response.status request.method → request'.method = "GET"
  kept : ¬BecomesGet response.status request.method →
    request'.method = request.method ∧ request'.bodyPayload = request.bodyPayload

theorem rewritesMethod_iff (status : ℕ) (method : String) :
    rewritesMethod status method = true ↔ BecomesGet status method := by
  unfold rewritesMethod BecomesGet
  simp only [Bool.or_eq_true, Bool.and_eq_true, beq_iff_eq, bne_iff_ne]
  exact or_comm

namespace PreparedRequestOptions

theorem stripped_leaveOrigin (options : PreparedRequestOptions) : options.leaveOrigin.Stripped where
  headers := by
    intro header hmem
    simpa using (List.mem_filter.mp hmem).2
  rawCookieHeader := rfl
  cookies := rfl

theorem bodyLess_toGet (options : PreparedRequestOptions) : options.toGet.BodyLess where
  bodyPayload := rfl
  headers := by
    intro header hmem
    simpa using (List.mem_filter.mp hmem).2

theorem Stripped.toGet {options : PreparedRequestOptions} (h : options.Stripped) : options.toGet.Stripped where
  headers := fun header hmem => h.headers header (List.mem_filter.mp hmem).1
  rawCookieHeader := h.rawCookieHeader
  cookies := h.cookies

theorem BodyLess.leaveOrigin {options : PreparedRequestOptions} (h : options.BodyLess) :
    options.leaveOrigin.BodyLess where
  bodyPayload := h.bodyPayload
  headers := fun header hmem => h.headers header (List.mem_filter.mp hmem).1

/-- **One redirect.**  The options are left by the origin or not, then made a `GET` or not. -/
theorem redirected_cases (options : PreparedRequestOptions) (url next : Url) (status : ℕ) :
    ∃ left : PreparedRequestOptions,
      ((url.sameOrigin next = true ∧ left = options) ∨
        (url.sameOrigin next = false ∧ left = options.leaveOrigin)) ∧
      ((BecomesGet status options.method ∧ options.redirected url next status = left.toGet) ∨
        (¬BecomesGet status options.method ∧ options.redirected url next status = left)) := by
  refine ⟨if url.sameOrigin next then options else options.leaveOrigin, ?_, ?_⟩
  · cases url.sameOrigin next with
    | true => exact Or.inl ⟨rfl, rfl⟩
    | false => exact Or.inr ⟨rfl, rfl⟩
  · have hm : (if url.sameOrigin next then options else options.leaveOrigin).method = options.method := by
      split <;> rfl
    rw [← rewritesMethod_iff]
    unfold redirected
    simp only [hm]
    by_cases hr : rewritesMethod status options.method = true
    · exact Or.inl ⟨hr, by rw [if_pos hr]⟩
    · exact Or.inr ⟨hr, by rw [if_neg hr]⟩

/-- Another origin takes the credentials away, and no redirect brings them back. -/
theorem stripped_redirected {options : PreparedRequestOptions} {url next : Url} (status : ℕ)
    (h : options.Stripped ∨ url.sameOrigin next = false) :
    (options.redirected url next status).Stripped := by
  obtain ⟨left, hleft, hr⟩ := options.redirected_cases url next status
  have hl : left.Stripped := by
    rcases hleft with ⟨hsame, rfl⟩ | ⟨-, rfl⟩
    · refine h.resolve_right fun hother => ?_
      rw [hsame] at hother
      cases hother
    · exact options.stripped_leaveOrigin
  rcases hr with ⟨-, hr⟩ | ⟨-, hr⟩ <;> rw [hr]
  · exact hl.toGet
  · exact hl

theorem BodyLess.redirected {options : PreparedRequestOptions} (h : options.BodyLess) (url next : Url)
    (status : ℕ) : (options.redirected url next status).BodyLess := by
  obtain ⟨left, hleft, hr⟩ := options.redirected_cases url next status
  rcases hr with ⟨-, hr⟩ | ⟨-, hr⟩ <;> rw [hr]
  · exact left.bodyLess_toGet
  · rcases hleft with ⟨-, rfl⟩ | ⟨-, rfl⟩
    · exact h
    · exact h.leaveOrigin

/-- A hop made a `GET` loses its body; any other keeps its method and its body. -/
theorem redirected_method (options : PreparedRequestOptions) (url next : Url) (status : ℕ) :
    (BecomesGet status options.method → (options.redirected url next status).method = "GET" ∧
      (options.redirected url next status).BodyLess) ∧
    (¬BecomesGet status options.method → (options.redirected url next status).method = options.method ∧
      (options.redirected url next status).bodyPayload = options.bodyPayload) := by
  obtain ⟨left, hleft, hr⟩ := options.redirected_cases url next status
  have hkept : left.method = options.method ∧ left.bodyPayload = options.bodyPayload := by
    rcases hleft with ⟨-, rfl⟩ | ⟨-, rfl⟩
    · exact ⟨rfl, rfl⟩
    · exact ⟨rfl, rfl⟩
  rcases hr with ⟨hg, hr⟩ | ⟨hg, hr⟩ <;> rw [hr]
  · exact ⟨fun _ => ⟨rfl, left.bodyLess_toGet⟩, fun hn => absurd hg hn⟩
  · exact ⟨fun hy => absurd hy hg, fun _ => hkept⟩

end PreparedRequestOptions

/-! ## The chain of hops -/

/-- The requests of hop `redirects` and those after it, for a URL and options to start from. -/
inductive Chain (builder : FetchBuilder) (hops : ℕ → Hop) :
    ℕ → Url → PreparedRequestOptions → List Request → Prop
  | unsent {redirects : ℕ} {url : Url} {options : PreparedRequestOptions} :
    Chain builder hops redirects url options []
  | last {redirects : ℕ} {url : Url} {options : PreparedRequestOptions} {request : Request}
    (prepared : prepareRequest lib builder redirects options url (hops redirects) = .ok request) :
    Chain builder hops redirects url options [request]
  | follow {redirects : ℕ} {url next : Url} {options : PreparedRequestOptions} {request : Request}
    {response : Response} {location : Option String} {rest : List Request}
    (prepared : prepareRequest lib builder redirects options url (hops redirects) = .ok request)
    (answered : (hops redirects).response = .ok response)
    (located : response.location = some location ∧ nextUrl lib url location = some next)
    (after : Chain builder hops (redirects + 1) next (options.redirected url next response.status) rest) :
    Chain builder hops redirects url options (request :: rest)

variable {lib}

theorem afterResponse_follows {builder : FetchBuilder} {redirects : ℕ} {url next : Url}
    {options options' : PreparedRequestOptions} {hop : Hop} {response : Response}
    (h : afterResponse lib builder redirects url options hop response = .follows next options') :
    ∃ location, (response.location = some location ∧ nextUrl lib url location = some next) ∧
      options' = options.redirected url next response.status := by
  unfold afterResponse at h
  split at h
  · cases h
  · simp only [] at h
    split at h
    · cases h
    · split at h
      · cases h
      · split at h
        · cases h
        · next location hl =>
          split at h
          · cases h
          · split at h
            · cases h
            · next hn =>
              cases h
              exact ⟨location, ⟨hl, hn⟩, rfl⟩

theorem sendHops_chain (builder : FetchBuilder) (hops : ℕ → Hop) (left redirects : ℕ) (url : Url)
    (options : PreparedRequestOptions) :
    Chain lib builder hops redirects url options (sendHops lib builder hops left redirects url options).1 := by
  induction left generalizing redirects url options with
  | zero => exact .unsent
  | succ left ih =>
    unfold sendHops
    split
    · exact .unsent
    · next request hp =>
      split
      · exact .last hp
      · next response hr =>
        split
        · exact .last hp
        · next next options' ha =>
          obtain ⟨location, hl, rfl⟩ := afterResponse_follows ha
          exact .follow hp hr hl (ih _ _ _)

theorem sendHops_length (builder : FetchBuilder) (hops : ℕ → Hop) (left redirects : ℕ) (url : Url)
    (options : PreparedRequestOptions) :
    (sendHops lib builder hops left redirects url options).1.length ≤ left := by
  induction left generalizing redirects url options with
  | zero => exact Nat.le_refl 0
  | succ left ih =>
    have single : ∀ request : Request, [request].length ≤ left + 1 := by
      intro request
      rw [List.length_singleton]
      omega
    unfold sendHops
    split
    · exact Nat.zero_le _
    · next request _ =>
      split
      · exact single request
      · split
        · exact single request
        · next next options' _ =>
          show (request :: _).length ≤ left + 1
          have hrest := ih (redirects + 1) next options'
          rw [List.length_cons]
          omega

namespace Chain

variable {builder : FetchBuilder} {hops : ℕ → Hop} {redirects : ℕ} {url : Url}
  {options : PreparedRequestOptions} {sent : List Request}

/-- A hop of the rest of a chain, counted from the chain's start. -/
theorem shift (redirects k : ℕ) : redirects + (k + 1) = redirects + 1 + k := by omega

/-- The first request is the one prepared from the start. -/
theorem head (h : Chain lib builder hops redirects url options sent) {request : Request}
    (hr : sent[0]? = some request) :
    request.url = url ∧ request.method = options.method ∧ request.bodyPayload = options.bodyPayload := by
  cases h with
  | unsent => cases hr
  | last prepared =>
    cases hr
    obtain ⟨hm, hu, hb, -⟩ := prepareRequest_ok prepared
    exact ⟨hu, hm, hb⟩
  | follow prepared _ _ _ =>
    cases hr
    obtain ⟨hm, hu, hb, -⟩ := prepareRequest_ok prepared
    exact ⟨hu, hm, hb⟩

/-- **Rule of the chain.**  What a redirect keeps of the options, and each request shows of
its own, each request shows. -/
theorem rule {kept : PreparedRequestOptions → Prop} (shown : ℕ → Request → Prop)
    (hkept : ∀ options url next status, kept options → kept (options.redirected url next status))
    (hshown : ∀ redirects options url request, kept options →
      prepareRequest lib builder redirects options url (hops redirects) = .ok request →
      shown redirects request)
    (h : Chain lib builder hops redirects url options sent) (ho : kept options) {k : ℕ} {request : Request}
    (hr : sent[k]? = some request) : shown (redirects + k) request := by
  induction h generalizing k with
  | unsent => cases hr
  | last prepared =>
    cases k with
    | zero =>
      cases hr
      exact hshown _ _ _ _ ho prepared
    | succ k => cases hr
  | follow prepared answered located after ih =>
    cases k with
    | zero =>
      cases hr
      exact hshown _ _ _ _ ho prepared
    | succ k =>
      rw [List.getElem?_cons_succ] at hr
      rw [shift]
      exact ih (hkept _ _ _ _ ho) hr

/-- A URL of another origin leaves nothing of the caller's credentials to the requests from it on. -/
theorem redacted (h : Chain lib builder hops redirects url options sent) {j k : ℕ} {away request : Request}
    (hjk : j ≤ k) (ha : sent[j]? = some away) (hne : away.url.originTriple ≠ url.originTriple)
    (hr : sent[k]? = some request) :
    request.Redacted lib builder (redirects + k) (hops (redirects + k)) := by
  induction h generalizing j k with
  | unsent => cases hr
  | last prepared =>
    exfalso
    obtain ⟨-, hu, -⟩ := prepareRequest_ok prepared
    cases j with
    | zero =>
      cases ha
      exact hne (by rw [hu])
    | succ j => cases ha
  | @follow redirects url next options first response location rest prepared answered located after ih =>
    obtain ⟨-, hu, -⟩ := prepareRequest_ok prepared
    cases j with
    | zero =>
      cases ha
      exact absurd (by rw [hu]) hne
    | succ j =>
      obtain ⟨k, rfl⟩ : ∃ k', k = k' + 1 := ⟨k - 1, by omega⟩
      rw [List.getElem?_cons_succ] at ha hr
      rw [shift]
      -- the redirect at hand leaves the origin, or it is left further on
      by_cases ho : url.sameOrigin next = true
      · rw [Url.originTriple_eq_of_sameOrigin ho] at hne
        exact ih (by omega) ha hne hr
      · have hstripped : (options.redirected url next response.status).Stripped :=
          PreparedRequestOptions.stripped_redirected response.status (Or.inr (Bool.eq_false_iff.mpr ho))
        exact after.rule (fun redirects request => request.Redacted lib builder redirects (hops redirects))
          (fun _ _ _ status hs => PreparedRequestOptions.stripped_redirected status (Or.inl hs))
          (fun _ _ _ _ hs hp => hs.redacted hp) hstripped hr

/-- One redirect of the chain. -/
theorem redirect (h : Chain lib builder hops redirects url options sent) {k : ℕ} {request request' : Request}
    (hr : sent[k]? = some request) (hr' : sent[k + 1]? = some request') :
    ∃ response, (hops (redirects + k)).response = .ok response ∧
      request.RedirectedBy lib response request' := by
  induction h generalizing k with
  | unsent => cases hr
  | last prepared => cases hr'
  | @follow redirects url next options first response location rest prepared answered located after ih =>
    cases k with
    | zero =>
      cases hr
      rw [List.getElem?_cons_succ] at hr'
      obtain ⟨hm, hu, hb, -⟩ := prepareRequest_ok prepared
      obtain ⟨hu', hm', hb'⟩ := after.head hr'
      obtain ⟨hget, hkeep⟩ := options.redirected_method url next response.status
      refine ⟨response, answered, ⟨location, located.1, ?_⟩, fun hg => ?_, fun hg => ?_⟩
      · rw [hu, hu']
        exact located.2
      · rw [hm] at hg
        rw [hm', (hget hg).1]
      · rw [hm] at hg
        rw [hm', hb', hm, hb]
        exact hkeep hg
    | succ k =>
      rw [List.getElem?_cons_succ] at hr hr'
      rw [shift]
      exact ih hr hr'

/-- A hop made a `GET` leaves no body to the requests after it. -/
theorem bare (h : Chain lib builder hops redirects url options sent) {j k : ℕ} {request request' : Request}
    {response : Response} (hjk : j < k) (hr : sent[j]? = some request)
    (ha : (hops (redirects + j)).response = .ok response)
    (hg : BecomesGet response.status request.method) (hr' : sent[k]? = some request') : request'.Bare := by
  induction h generalizing j k with
  | unsent => cases hr
  | last prepared =>
    obtain ⟨k, rfl⟩ : ∃ k', k = k' + 1 := ⟨k - 1, by omega⟩
    cases hr'
  | @follow redirects url next options first response' location rest prepared answered located after ih =>
    obtain ⟨k, rfl⟩ : ∃ k', k = k' + 1 := ⟨k - 1, by omega⟩
    rw [List.getElem?_cons_succ] at hr'
    cases j with
    | zero =>
      cases hr
      obtain ⟨hm, -⟩ := prepareRequest_ok prepared
      rw [Nat.add_zero, answered] at ha
      cases ha
      rw [hm] at hg
      have hless := ((options.redirected_method url next response.status).1 hg).2
      exact after.rule (fun _ request => request.Bare) (fun _ _ _ _ hb => hb.redirected _ _ _)
        (fun _ _ _ _ hb hp => hb.bare hp) hless hr'
    | succ j =>
      rw [List.getElem?_cons_succ] at hr
      rw [shift] at ha
      exact ih (by omega) hr ha hr'

end Chain

/-- The rules of `sent`, the requests of one call for `url` with `options`. -/
structure RedirectRules (lib : HttpLib) (builder : FetchBuilder) (hops : ℕ → Hop) (url : Url)
    (options : PreparedRequestOptions) (sent : List Request) : Prop where
  limited : sent.length ≤ 11
  first : ∀ request, sent[0]? = some request →
    request.url = url ∧ request.method = options.method ∧ request.bodyPayload = options.bodyPayload
  redirected : ∀ (k : ℕ) request request', sent[k]? = some request → sent[k + 1]? = some request' →
    ∃ response, (hops k).response = .ok response ∧ request.RedirectedBy lib response request'
  /-- Once a URL had another origin than the first, no request carries the caller's credentials. -/
  confidential : ∀ (j k : ℕ) away request, j ≤ k → sent[j]? = some away →
    away.url.originTriple ≠ url.originTriple → sent[k]? = some request →
    request.Redacted lib builder k (hops k)
  /-- Once a hop was made a `GET`, no request carries a body or a header about one. -/
  bare : ∀ (j k : ℕ) request request' response, j < k → sent[j]? = some request →
    (hops j).response = .ok response → BecomesGet response.status request.method →
    sent[k]? = some request' → request'.Bare

/-- **Redirects are confidential.**  Whatever the options, the jar, the statuses and the
`Location`s, also on a chain that returns to the first origin. -/
theorem redirects_confidential (lib : HttpLib) (builder : FetchBuilder) (options : PreparedRequestOptions)
    (hops : ℕ → Hop) {url : Url} (hu : lib.parseUrl builder.url = .ok url) :
    RedirectRules lib builder hops url options (sendHttpResponse lib builder options hops).1 := by
  have hsend : sendHttpResponse lib builder options hops = sendHops lib builder hops 11 0 url options := by
    unfold sendHttpResponse
    rw [hu]
  rw [hsend]
  have hchain : Chain lib builder hops 0 url options (sendHops lib builder hops 11 0 url options).1 :=
    sendHops_chain builder hops 11 0 url options
  refine ⟨sendHops_length builder hops 11 0 url options, fun request hr => hchain.head hr, ?_, ?_, ?_⟩
  · intro k request request' hr hr'
    have h := hchain.redirect hr hr'
    rwa [Nat.zero_add] at h
  · intro j k away request hjk ha hne hr
    have h := hchain.redacted hjk ha hne hr
    rwa [Nat.zero_add] at h
  · intro j k request request' response hjk hr ha hg hr'
    rw [← Nat.zero_add j] at ha
    exact hchain.bare hjk hr ha hg hr'

end

/-! ## A chain that returns -/

/-- The libraries on three absolute URLs and the one `Set-Cookie` line below. -/
def sampleLib : HttpLib where
  parseUrl := fun s =>
    match [sampleUrl "http" "a.test" "/login", sampleUrl "http" "b.test" "/",
        sampleUrl "http" "a.test" "/home"].find? (·.serialization == s) with
    | some url => .ok url
    | none => .error "relative URL without a base"
  joinUrl := fun _ s =>
    if s = "http://b.test/" then .ok (sampleUrl "http" "b.test" "/")
    else if s = "http://a.test/home" then .ok (sampleUrl "http" "a.test" "/home")
    else .error "invalid port number"
  headerValue := .ok
  isMethod := fun method => method == "GET" || method == "POST"
  parseCookie := fun line => if line = "sid=1" then some (Cookie.build "sid" "1") else none
  suffixStr := fun _ => some "test"
  fmt := ⟨fun c => s!"'{c}'", fun s => "\"" ++ s ++ "\""⟩

def sampleBuilder : FetchBuilder := ⟨"http://a.test/login", ⟨some samplePath⟩⟩

/-- A `POST` with credentials of both kinds. -/
def sampleOptions : PreparedRequestOptions where
  headers := [⟨⟨"authorization", by decide⟩, "Bearer secret", "authorization", "Bearer secret"⟩,
    ⟨⟨"content-type", by decide⟩, "text/plain", "content-type", "text/plain"⟩]
  userAgent := none
  rawCookieHeader := some ("caller=secret", "caller=secret")
  cookies := []
  rawCookiePairs := [⟨"caller", "secret", none, none, none, none, none, none, none⟩]
  evaluateAfterWait := []
  method := "POST"
  bodyPayload := .bytes [108, 111, 103, 105, 110]

/-- The jar entry of the first response. -/
def sampleSid : JarEntry :=
  .fromSetCookie 0 (Cookie.build "sid" "1") (sampleUrl "http" "a.test" "/login")

/-- From `a.test` to `b.test` by a 302, and back by a 307. -/
def sampleHops (k : ℕ) : Hop :=
  let jar := if k = 0 then JarFile.notFound else .entries [sampleSid]
  { jarFile := jar
    resolveNow := 0
    sendNow := 0
    response := .ok (
      if k = 0 then ⟨sampleUrl "http" "a.test" "/login", 302, [some "sid=1"], some (some "http://b.test/")⟩
      else if k = 1 then ⟨sampleUrl "http" "b.test" "/", 307, [], some (some "http://a.test/home")⟩
      else ⟨sampleUrl "http" "a.test" "/home", 200, [], none⟩)
    taskFault := none
    mergeFile := jar
    mergeNow := 0
    persistFile := jar
    persistNow := 0
    io := noFault }

theorem redirects_confidential_thereAndBack :
    ((sendHttpResponse sampleLib sampleBuilder sampleOptions sampleHops).1.map fun request =>
      (request.method, request.url.serialization, request.headers.entries.map fun p => (p.1.str, p.2))) =
        [("POST", "http://a.test/login", [("cookie", "caller=secret"), ("content-type", "text/plain"),
            ("authorization", "Bearer secret")]),
          ("GET", "http://b.test/", []),
          ("GET", "http://a.test/home", [("cookie", "sid=1")])] ∧
    RedirectRules sampleLib sampleBuilder sampleHops (sampleUrl "http" "a.test" "/login") sampleOptions
      (sendHttpResponse sampleLib sampleBuilder sampleOptions sampleHops).1 :=
  ⟨by decide, redirects_confidential sampleLib sampleBuilder sampleOptions sampleHops (by decide)⟩

end Afhttp.Fetch

import Afhttp.Profile.JarScope

/-!
# `Secure` cookies and plaintext responses

`merge_response` refuses a plaintext response that would replace a `Secure` entry of the
snapshot.  Two things it does not see:

* the file.  `persist` overlays what the snapshot allowed onto a file that another fetch
  may have changed since (`plaintext_replaces_secure`).  The `Secure` entries are kept in
  the runs where each plaintext fetch had seen those its lines name (`secure_kept`).
* the other identities.  A cookie of another domain or path than the `Secure` entry's is
  another identity, and may be sent with it (`plaintext_overlays_secure`).  A call meets the
  wider rule iff `SparesSecure` holds before it (`leave_secure_alone`).
-/

namespace Afhttp.Profile

open Text Overlay

/-! ## Plaintext fetches on a shared jar -/

/-- One call of `persist_set_cookies`. -/
structure SetCookieFetch where
  lines : List String
  requestUrl : Url
  io : CookieJar.PersistCall → Option String

def JarEvent.session {S : Type} : JarEvent S → Option S
  | .tick _ => none
  | .load s => some s
  | .merge s _ _ => some s
  | .mergeResponse s _ _ => some s
  | .persist s _ => some s

section
variable (suffixStr : String → Option String) (parse : String → Option Cookie)
  {S : Type} (fetches : S → SetCookieFetch)

/-- The steps of `persist_set_cookies`: load, merge each line that parses, persist. -/
def persistSetCookies (s : S) (f : SetCookieFetch) : List (JarEvent S) :=
  if f.lines = [] then []
  else
    .load s :: (f.lines.filterMap fun line => (parse line).map fun c => .mergeResponse s c f.requestUrl) ++
      [.persist s f.io]

variable [DecidableEq S]

/-- Each session has taken the first steps of its fetch, in any order with the others'. -/
def Interleaves (es : List (JarEvent S)) : Prop :=
  ∀ s, es.filter (fun e => decide (e.session = some s)) <+: persistSetCookies parse s (fetches s)

/-- No persist of a plaintext fetch takes an unexpired `Secure` entry out of the file. -/
def PlaintextKeepsSecure (w₀ : World S) (es : List (JarEvent S)) : Prop :=
  ∀ xs s io ys w w', es = xs ++ .persist s io :: ys →
    Run.run (World.step suffixStr) w₀ xs = some w → w.step suffixStr (.persist s io) = some w' →
    (fetches s).requestUrl.scheme ≠ "https" →
    ∀ e ∈ w.file.list, e.secure = true → e.isExpired w.now = false → e ∈ w'.file.list

/-- A line of the fetch names the cookie, and the response may set it. -/
def MayName (f : SetCookieFetch) (id : String × String × String) : Prop :=
  ∃ line ∈ f.lines, ∃ c host, parse line = some c ∧ c.secure ≠ some true ∧
    f.requestUrl.hostStr = some host ∧ CookieJar.maySetDomain suffixStr c.domain host = true ∧
    ∀ t, (JarEntry.fromSetCookie t c f.requestUrl).identity = id

/-- Before a plaintext fetch persists: of each unexpired `Secure` entry of the file whose
cookie one of its lines may set, the jar it loaded held a `Secure` entry. -/
def SecureSeen (w : World S) : JarEvent S → Prop
  | .persist s _ => (fetches s).requestUrl.scheme ≠ "https" →
    ∀ x, w.sessions s = some x → ∀ e ∈ w.file.list, e.secure = true → e.isExpired w.now = false →
      MayName suffixStr parse (fetches s) e.identity →
      ∃ seen ∈ x.loaded, seen.secure = true ∧ seen.identity = e.identity
  | _ => True

/-- The event is one of the steps of its session's fetch. -/
def OfFetch : JarEvent S → Prop
  | .tick _ => True
  | .load _ => True
  | .merge _ _ _ => False
  | .mergeResponse s c u => u = (fetches s).requestUrl ∧ ∃ line ∈ (fetches s).lines, parse line = some c
  | .persist _ _ => True

theorem Interleaves.ofFetch {es : List (JarEvent S)} (h : Interleaves parse fetches es)
    {e : JarEvent S} (he : e ∈ es) : OfFetch parse fetches e := by
  have key : ∀ s, e.session = some s → e ∈ persistSetCookies parse s (fetches s) :=
    fun s hs => (h s).subset (List.mem_filter.mpr ⟨he, by simpa using hs⟩)
  have steps : ∀ s, e ∈ persistSetCookies parse s (fetches s) →
      e = .load s ∨ (∃ line ∈ (fetches s).lines, ∃ c, parse line = some c ∧
        e = .mergeResponse s c (fetches s).requestUrl) ∨ e = .persist s (fetches s).io := by
    intro s hm
    unfold persistSetCookies at hm
    split at hm
    · cases hm
    · simp only [List.cons_append, List.mem_cons, List.mem_append, List.mem_filterMap,
        Option.map_eq_some_iff, List.not_mem_nil, or_false] at hm
      rcases hm with hm | ⟨line, hl, c, hc, hm⟩ | hm
      · exact Or.inl hm
      · exact Or.inr (Or.inl ⟨line, hl, c, hc, hm.symm⟩)
      · exact Or.inr (Or.inr hm)
  cases e with
  | tick d => trivial
  | load s => trivial
  | persist s io => trivial
  | merge s c u =>
    rcases steps s (key s rfl) with hm | ⟨_, -, _, -, hm⟩ | hm <;> cases hm
  | mergeResponse s c u =>
    rcases steps s (key s rfl) with hm | ⟨line, hl, c', hc, hm⟩ | hm
    · cases hm
    · cases hm
      exact ⟨rfl, line, hl, hc⟩
    · cases hm

/-- What holds of a plaintext fetch between its load and its persist. -/
structure PlaintextInv (f : SetCookieFetch) (x : Session) : Prop where
  /-- The `Secure` entries it loaded are still in its jar. -/
  kept : ∀ e ∈ x.loaded, e.secure = true → e ∈ x.jar.entries
  /-- What it stored, a line names, and no loaded `Secure` entry is of that identity. -/
  stored : ∀ e ∈ x.accepted, MayName suffixStr parse f e.identity ∧
    ∀ e' ∈ x.loaded, e'.secure = true → e'.identity ≠ e.identity

/-- **Step.**  A step of the fetches keeps what holds of the plaintext ones. -/
theorem PlaintextInv.step {w w' : World S} {e : JarEvent S}
    (hw : ∀ s x, w.sessions s = some x → (fetches s).requestUrl.scheme ≠ "https" →
      PlaintextInv suffixStr parse (fetches s) x)
    (he : OfFetch parse fetches e) (h : w.step suffixStr e = some w') {s : S} {x' : Session}
    (hx : w'.sessions s = some x') (hs : (fetches s).requestUrl.scheme ≠ "https") :
    PlaintextInv suffixStr parse (fetches s) x' := by
  rcases World.step_session suffixStr h hx with hx | ⟨-, rfl⟩ | ⟨x, c, u, host, hsx, hm, hh, hmay, hev⟩
  · exact hw s x' hx hs
  · exact ⟨fun e he _ => he, fun e he => absurd he List.not_mem_nil⟩
  · rcases hev with ⟨rfl, -⟩ | ⟨rfl, -, hplain⟩
    · exact he.elim
    · obtain ⟨rfl, line, hl, hc⟩ := he
      obtain ⟨hsec, hne⟩ := hplain hs
      have hinv := hw s x hsx hs
      refine ⟨fun e he hes => ?_, fun e he => ?_⟩
      · rw [hm.loaded] at he
        have hmem : e ∈ x.jar.tracked.entries := hinv.kept e he hes
        show e ∈ x'.jar.tracked.entries
        rw [hm.tracked, write_entries]
        exact mem_upsert_of_ne JarEntry.identity hmem (hne e hmem hes)
      · rw [hm.accepted] at he
        rw [hm.loaded]
        rcases List.mem_append.mp he with he | he
        · exact hinv.stored e he
        · rw [List.mem_singleton.mp he]
          refine ⟨⟨line, hl, c, host, hc, hsec, hh, hmay, fun t => rfl⟩, fun e' he' hes' => ?_⟩
          exact hne e' (hinv.kept e' he' hes') hes'

/-- **`Secure` entries are kept** in every interleaving of fetches in which each plaintext
fetch, when it persists, had seen the `Secure` entries its lines name. -/
theorem secure_kept {path : JarPath} {file : JarFile} {now : Int} {es : List (JarEvent S)}
    (hi : Interleaves parse fetches es)
    (hok : Run.RunMeets (World.step suffixStr) (SecureSeen suffixStr parse fetches)
      (World.start S path file now) es) :
    PlaintextKeepsSecure suffixStr fetches (World.start S path file now) es := by
  rintro xs s io ys w w' rfl hxs hp hs e he hes hexp
  have hof : Run.RunMeets (World.step suffixStr) (fun _ e => OfFetch parse fetches e)
      (World.start S path file now) xs := by
    rintro as a bs u rfl -
    exact hi.ofFetch parse fetches (by simp)
  have hinv := Run.runMeets_invariant (World.step suffixStr)
    (I := fun w : World S => ∀ s x, w.sessions s = some x → (fetches s).requestUrl.scheme ≠ "https" →
      PlaintextInv suffixStr parse (fetches s) x)
    (fun s x hx => by cases hx)
    (fun w e w' hw he h s x hx hs => PlaintextInv.step suffixStr parse fetches hw he h hx hs) hof hxs
  have hseen := hok xs _ ys w rfl hxs hs
  rcases World.step_file suffixStr hp with ⟨hf, -⟩ | ⟨s', io', x, hev, hx, hf, -⟩
  · rw [hf]
    exact he
  · cases hev
    -- no accepted entry has the identity of `e`: its line would have been refused
    have hnone : lastOf JarEntry.identity e.identity x.jar.changed = none := by
      rw [(World.sessions_wf suffixStr hxs s x hx).lastOf_changed, lastOf_eq_none]
      intro a ha hid
      obtain ⟨hname, hne⟩ := (hinv s x hx hs).stored a ha
      rw [hid] at hname hne
      obtain ⟨seen, hseen', hsec, hid'⟩ := hseen x hx e he hes hexp hname
      exact hne seen hseen' hsec hid'
    rw [hf]
    exact List.mem_filter.mpr ⟨mem_overlay_of_unchanged _ he hnone, by simp [hexp]⟩

end

/-- A fetch over https sets `sid` as `Secure`; one over http, which loaded before, sets it plain. -/
def racingFetches : Bool → SetCookieFetch
  | true => ⟨["sid=real; Secure"], sampleUrl "https" "example.com" "/", noFault⟩
  | false => ⟨["sid=forged"], sampleUrl "http" "example.com" "/", noFault⟩

def parseSid (line : String) : Option Cookie :=
  if line = "sid=real; Secure" then some { Cookie.build "sid" "real" with secure := some true }
  else if line = "sid=forged" then some (.build "sid" "forged")
  else none

def racingRun : List (JarEvent Bool) :=
  [.load false, .load true,
   .mergeResponse true { Cookie.build "sid" "real" with secure := some true }
     (sampleUrl "https" "example.com" "/"),
   .persist true noFault,
   .mergeResponse false (.build "sid" "forged") (sampleUrl "http" "example.com" "/"),
   .persist false noFault]

/-- The plaintext fetch of `racingRun` takes the `Secure` entry that the other one stored. -/
theorem plaintext_replaces_secure :
    Interleaves parseSid racingFetches racingRun ∧
    ¬ PlaintextKeepsSecure (fun _ => some "com") racingFetches
      (World.start Bool samplePath .notFound 0) racingRun := by
  refine ⟨fun s => ?_, fun h => ?_⟩
  · cases s <;> exact ⟨[], rfl⟩
  · have hf : (Run.run (World.step fun _ => some "com") (World.start Bool samplePath .notFound 0)
        (racingRun.take 5)).bind (fun w => (w.step (fun _ => some "com") (.persist false noFault)).map
          fun w' => (w.now, w.file.list.map (·.secure), w.file.list.map (·.expiresEpochS),
            w'.file.list.map (·.secure))) = some (0, [true], [none], [false]) := by decide
    obtain ⟨w, hw, hf⟩ := Option.bind_eq_some_iff.mp hf
    obtain ⟨w', hw', hf⟩ := Option.map_eq_some_iff.mp hf
    simp only [Prod.mk.injEq, List.map_eq_singleton_iff] at hf
    obtain ⟨-, ⟨e, hl, hsec⟩, ⟨e', hl', hexp⟩, ⟨k, hk, hsec'⟩⟩ := hf
    rw [hl] at hl'
    cases hl'
    have hkept := h (racingRun.take 5) false noFault [] w w' rfl hw hw' (by decide) e
      (by rw [hl]; exact List.mem_cons_self) hsec (by rw [JarEntry.isExpired, hexp])
    rw [hk, List.mem_singleton] at hkept
    rw [hkept, hsec'] at hsec
    cases hsec

/-- The same fetches one after the other. -/
theorem secure_kept_serial :
    PlaintextKeepsSecure (fun _ => some "com") racingFetches (World.start Bool samplePath .notFound 0)
      (persistSetCookies parseSid true (racingFetches true)) := by
  refine secure_kept (fun _ => some "com") parseSid racingFetches (fun s => ?_) ?_
  · cases s
    · exact ⟨persistSetCookies parseSid false (racingFetches false), rfl⟩
    · exact ⟨[], rfl⟩
  · intro xs e ys w hes hw
    cases e with
    | persist s io =>
      intro hs
      have hm : JarEvent.persist s io ∈ persistSetCookies parseSid true (racingFetches true) := by
        rw [hes]
        simp
      have : s = true := by
        simp [persistSetCookies, racingFetches, parseSid] at hm
        exact hm.1
      subst this
      exact absurd rfl hs
    | _ => trivial

/-! ## The rule for every overlap -/

/-- One call of `merge_response`. -/
structure ResponseCall where
  now : Int
  setCookie : Cookie
  requestUrl : Url

/-- The entry the call would store. -/
def ResponseCall.entry (call : ResponseCall) : JarEntry :=
  .fromSetCookie call.now call.setCookie call.requestUrl

/-- `S` is an unexpired `Secure` entry of `E`'s name, the domain of one matches the domain
of the other, and `E`'s path path-matches `S`'s. -/
def Overlaps (now : Int) (S E : JarEntry) : Prop :=
  S.secure = true ∧ S.isExpired now = false ∧ S.name = E.name ∧
    ((∃ d, E.domain = some d ∧ domainMatches S.domain false d = true) ∨
      ∃ d, S.domain = some d ∧ domainMatches E.domain false d = true) ∧
    pathMatches S.path (E.path.getD "/") = true

section
variable (suffixStr : String → Option String)

/-- `merge_response` as a step of the jar. -/
def CookieJar.respond (jar : CookieJar) (call : ResponseCall) : Option CookieJar :=
  some (jar.mergeResponse suffixStr call.now call.setCookie call.requestUrl).1

/-- The jar takes the cookie of the call. -/
def CookieJar.Takes (jar : CookieJar) (call : ResponseCall) : Prop :=
  (jar.mergeResponse suffixStr call.now call.setCookie call.requestUrl).2 = true

/-- A plaintext call that overlaps a `Secure` entry of the jar is refused. -/
def LeavesSecureAlone (jar : CookieJar) (call : ResponseCall) : Prop :=
  call.requestUrl.scheme ≠ "https" → ∀ S ∈ jar.entries, Overlaps call.now S call.entry →
    ¬ jar.Takes suffixStr call

/-- The call is over https; or its cookie is `Secure`, or not for that host to set; or the
jar holds a `Secure` entry of exactly its identity, or none that overlaps it. -/
def SparesSecure (jar : CookieJar) (call : ResponseCall) : Prop :=
  call.requestUrl.scheme = "https" ∨ call.setCookie.secure = some true ∨
  (∀ host, call.requestUrl.hostStr = some host →
    CookieJar.maySetDomain suffixStr call.setCookie.domain host = false) ∨
  (∃ S ∈ jar.entries, S.secure = true ∧ S.identity = call.entry.identity) ∨
  ∀ S ∈ jar.entries, ¬ Overlaps call.now S call.entry

theorem CookieJar.merge_takes {now : Int} {jar : CookieJar} {c : Cookie} {u : Url} :
    (jar.merge suffixStr now c u).2 = true ↔
      ∃ host, u.hostStr = some host ∧ maySetDomain suffixStr c.domain host = true := by
  constructor
  · intro h
    rcases merge_cases suffixStr now jar c u with hr | ⟨host, hh, hm, -⟩
    · rw [hr] at h
      cases h
    · exact ⟨host, hh, hm⟩
  · rintro ⟨host, hh, hm⟩
    unfold merge
    rw [hh]
    simp only [hm, Bool.not_true, Bool.false_eq_true, if_false]
    split <;> rfl

/-- **When a call is taken.** -/
theorem CookieJar.takes_iff (jar : CookieJar) (call : ResponseCall) :
    jar.Takes suffixStr call ↔
      (call.requestUrl.scheme = "https" ∨ (call.setCookie.secure ≠ some true ∧
        ∀ S ∈ jar.entries, S.secure = true → S.identity ≠ call.entry.identity)) ∧
      ∃ host, call.requestUrl.hostStr = some host ∧
        maySetDomain suffixStr call.setCookie.domain host = true := by
  constructor
  · intro h
    unfold Takes at h
    rcases mergeResponse_cases suffixStr call.now jar call.setCookie call.requestUrl with hr | ⟨hr, hp⟩
    · rw [hr] at h
      cases h
    · rw [hr] at h
      refine ⟨?_, (merge_takes suffixStr).mp h⟩
      by_cases hs : call.requestUrl.scheme = "https"
      · exact Or.inl hs
      · exact Or.inr (hp hs)
  · rintro ⟨hplain, hmay⟩
    have hmerge : (jar.merge suffixStr call.now call.setCookie call.requestUrl).2 = true :=
      (merge_takes suffixStr).mpr hmay
    unfold Takes mergeResponse
    simp only []
    by_cases hs : call.requestUrl.scheme = "https"
    · rw [if_neg (fun h => h.1 hs), if_neg (fun h => h.1 hs)]
      exact hmerge
    · obtain ⟨hc, hne⟩ := hplain.resolve_left hs
      rw [if_neg (fun h => hc h.2), if_neg]
      · exact hmerge
      · rintro ⟨-, hany⟩
        obtain ⟨S, hS, h⟩ := List.any_eq_true.mp hany
        obtain ⟨hsec, hid⟩ := Bool.and_eq_true_iff.mp h
        exact hne S hS hsec ((S.sameIdentity_iff _).mp hid)

/-- **One call** meets the rule iff `SparesSecure` holds before it. -/
theorem leavesSecureAlone_iff (jar : CookieJar) (call : ResponseCall) :
    LeavesSecureAlone suffixStr jar call ↔ SparesSecure suffixStr jar call := by
  constructor
  · intro h
    by_contra hn
    simp only [SparesSecure, not_or] at hn
    obtain ⟨hs, hc, hmay, hid, hover⟩ := hn
    have htakes : jar.Takes suffixStr call := by
      refine (jar.takes_iff suffixStr call).mpr ⟨Or.inr ⟨hc, fun S hS hsec h => hid ⟨S, hS, hsec, h⟩⟩, ?_⟩
      by_contra hno
      refine hmay fun host hh => ?_
      by_contra hm
      exact hno ⟨host, hh, by simpa using hm⟩
    exact hover fun S hS ho => h hs S hS ho htakes
  · intro h hs S hS ho htakes
    obtain ⟨hplain, host, hh, hm⟩ := (jar.takes_iff suffixStr call).mp htakes
    obtain ⟨hc, hne⟩ := hplain.resolve_left hs
    rcases h with h | h | h | ⟨S', hS', hsec, hid⟩ | h
    · exact hs h
    · exact hc h
    · rw [h host hh] at hm
      cases hm
    · exact hne S' hS' hsec hid
    · exact h S hS ho

/-- In the run of the calls the jar took the entry, and if from a plaintext response then
while it held no `Secure` entry that overlaps it. -/
def TakenSparing (jar : CookieJar) (calls : List ResponseCall) (E : JarEntry) : Prop :=
  ∃ xs call ys j, calls = xs ++ call :: ys ∧ Run.run (CookieJar.respond suffixStr) jar xs = some j ∧
    E = call.entry ∧ j.Takes suffixStr call ∧
    (call.requestUrl.scheme ≠ "https" → ∀ S ∈ j.entries, ¬ Overlaps call.now S E)

theorem TakenSparing.snoc {jar : CookieJar} {calls : List ResponseCall} {E : JarEntry}
    (h : TakenSparing suffixStr jar calls E) (call : ResponseCall) :
    TakenSparing suffixStr jar (calls ++ [call]) E := by
  obtain ⟨xs, call', ys, j, rfl, h'⟩ := h
  exact ⟨xs, call', ys ++ [call], j, by simp, h'⟩

/-- What a call leaves in the jar was there before, or is the entry the jar took. -/
theorem CookieJar.respond_entries {jar jar' : CookieJar} {call : ResponseCall}
    (h : jar.respond suffixStr call = some jar') {E : JarEntry} (hE : E ∈ jar'.entries) :
    E ∈ jar.entries ∨ (E = call.entry ∧ jar.Takes suffixStr call) := by
  have hj : (jar.mergeResponse suffixStr call.now call.setCookie call.requestUrl).1 = jar' :=
    Option.some.inj h
  rcases mergeResponse_cases suffixStr call.now jar call.setCookie call.requestUrl with hr | ⟨hr, -⟩
  · rw [hr] at hj
    rw [← hj] at hE
    exact Or.inl hE
  · rcases merge_cases suffixStr call.now jar call.setCookie call.requestUrl with hm | ⟨_, _, _, h2, -, ht⟩
    · rw [hr, hm] at hj
      rw [← hj] at hE
      exact Or.inl hE
    · have htakes : jar.Takes suffixStr call := by
        unfold Takes
        rw [hr]
        exact h2
      have hmem : E ∈ jar'.tracked.entries := hE
      rw [← hj, hr, ht, write_entries] at hmem
      rcases mem_upsert JarEntry.identity hmem with hmem | hnew
      · exact Or.inl hmem
      · exact Or.inr ⟨hnew, htakes⟩

/-- **Leave `Secure` cookies alone.**  A call meets the rule iff `SparesSecure` holds before
it.  After calls that all meet it, a request is sent, besides what the jar held at first,
only cookies taken over https or while no `Secure` entry overlapped them. -/
theorem leave_secure_alone :
    (∀ jar call, LeavesSecureAlone suffixStr jar call ↔ SparesSecure suffixStr jar call) ∧
    ∀ (jar jar' : CookieJar) (calls : List ResponseCall),
      Run.RunMeets (CookieJar.respond suffixStr) (SparesSecure suffixStr) jar calls →
      Run.run (CookieJar.respond suffixStr) jar calls = some jar' →
      ∀ (now : Int) (url : Url), ∀ E ∈ jar'.applicableEntries now url,
        E ∈ jar.entries ∨ TakenSparing suffixStr jar calls E := by
  refine ⟨leavesSecureAlone_iff suffixStr, fun jar jar' calls hok hrun now url E hE => ?_⟩
  have hE : E ∈ jar'.entries := (List.mem_filter.mp hE).1
  refine Run.runMeets_history (CookieJar.respond suffixStr)
    (P := fun calls j => ∀ E ∈ j.entries, E ∈ jar.entries ∨ TakenSparing suffixStr jar calls E)
    (fun E hE => Or.inl hE) ?_ hok hrun E hE
  intro calls j call j' hj ih hspare hstep E hE
  rcases CookieJar.respond_entries suffixStr hstep hE with hE | ⟨rfl, htakes⟩
  · exact (ih E hE).imp_right fun h => h.snoc suffixStr call
  · right
    refine ⟨calls, call, [], j, rfl, hj, rfl, htakes, fun hs S hS ho => ?_⟩
    exact (leavesSecureAlone_iff suffixStr j call).mpr hspare hs S hS ho htakes

end

/-- A `Secure` entry for the whole of `example.com`. -/
def secureSid : JarEntry :=
  ⟨"sid", "real", some "example.com", false, some "/", none, true, false, none⟩

/-- A plaintext response sets a cookie of another name. -/
def sparingCall : ResponseCall :=
  ⟨0, .build "theme" "dark", sampleUrl "http" "example.com" "/"⟩

theorem leave_secure_alone_sparing :
    TakenSparing (fun _ => some "com") ⟨samplePath, [secureSid], ∅⟩ [sparingCall] sparingCall.entry := by
  have hok : Run.RunMeets (CookieJar.respond fun _ => some "com") (SparesSecure fun _ => some "com")
      ⟨samplePath, [secureSid], ∅⟩ [sparingCall] := by
    intro xs call ys j hes hrun
    obtain ⟨rfl, h⟩ : xs = [] ∧ call :: ys = [sparingCall] := by
      cases xs with
      | nil => exact ⟨rfl, hes.symm⟩
      | cons x xs => simp at hes
    cases h
    cases hrun
    refine Or.inr (Or.inr (Or.inr (Or.inr fun S hS ho => ?_)))
    rw [List.mem_singleton.mp hS] at ho
    exact absurd ho.2.2.1 (by decide)
  have hsent := (leave_secure_alone fun _ => some "com").2 _ _ _ hok rfl 0
    (sampleUrl "http" "example.com" "/") sparingCall.entry (by decide)
  exact hsent.resolve_left (by decide)

/-- A plaintext response sets a cookie of that name for one path. -/
def overlayingCall : ResponseCall :=
  ⟨0, { Cookie.build "sid" "forged" with path := some "/account" },
    sampleUrl "http" "example.com" "/account"⟩

/-- The jar takes it beside the `Secure` entry, and https requests are sent both. -/
theorem plaintext_overlays_secure :
    ¬ LeavesSecureAlone (fun _ => some "com") ⟨samplePath, [secureSid], ∅⟩ overlayingCall ∧
    ∃ jar', CookieJar.respond (fun _ => some "com") ⟨samplePath, [secureSid], ∅⟩ overlayingCall = some jar' ∧
      (jar'.applicableEntries 0 (sampleUrl "https" "example.com" "/account")).map (·.value) =
        ["real", "forged"] := by
  refine ⟨fun h => ?_, _, rfl, by decide⟩
  have hover : Overlaps overlayingCall.now secureSid overlayingCall.entry := by
    refine ⟨rfl, rfl, rfl, Or.inl ⟨"example.com", ?_, ?_⟩, ?_⟩ <;> decide
  refine h (by decide) secureSid List.mem_cons_self hover ?_
  show (CookieJar.mergeResponse (fun _ => some "com") overlayingCall.now ⟨samplePath, [secureSid], ∅⟩
    overlayingCall.setCookie overlayingCall.requestUrl).2 = true
  decide

end Afhttp.Profile

import Afhttp.Fetch.Download

/-!
# The exits of a browser fetch

`browser_path` of `sdk/fetch/pipeline/browser/mod.rs` and `finish_download_navigation` of
`download.rs`, from the reply to `Target.createTarget` on: each stage with what it may come to,
and the exits, each of which does its own cleanup.  `close_target_preserving_browser` is in
`sdk/cdp/session.rs`; the window anchor that it leaves in the browser belongs to no fetch.

A fetch ends with a result or an error, and with a trace.  What became of its tab is in `TabLog`.

    finish_failed_target closes the tab or names it in the trace    (finishFailedTarget_accounted)
    every exit but one accounts for the tab                         (afterAttach_accounted)
    the exit without a session does, or its close is confirmed      (tab_accounted)
-/

namespace Afhttp.Fetch

open Text

/-! ## Closing a tab -/

/-- What the browser answers to the commands of one cleanup: `none` where the time for all of
them runs out first. -/
structure CleanupReplies where
  getTargets : Option (Except Error Json)
  createTarget : Option (Except Error Json)
  closeTarget : Option (Except Error Json)

/-- A command of the cleanup: its reply, or the end of the cleanup. -/
def awaitReply (reply : Option (Except Error Json)) : Except Error Json :=
  reply.getD (.error (.new .cdpTimeout "safe target cleanup timed out; tab may remain open"))

def anchorUrl : String := "about:blank#afhttp-window-anchor"

/-- Another page is the window anchor. -/
def anchorExists (targetId : String) (pages : List Json) : Bool :=
  pages.any fun page => (page.index "type").asStr == some "page" &&
    (page.index "targetId").asStr.any (· != targetId) && (page.index "url").asStr == some anchorUrl

/-- Lightpanda's answer while its one page exists. -/
def refusesSecondTarget (error : Error) : Bool :=
  error.errorCode == .cdpError && endsWith error.detail ": TargetAlreadyLoaded"

/-- The browser keeps a window without this page. -/
def guarded (targetId : String) (replies : CleanupReplies) : Except Error Bool :=
  match awaitReply replies.createTarget with
  | .ok replacement => .ok ((replacement.index "targetId").asStr.any fun id => id != "" && id != targetId)
  | .error error => if refusesSecondTarget error then .ok true else .error error

/-- The steps before `Target.closeTarget`. -/
def protectWindow (targetId : String) (replies : CleanupReplies) : Except Error Unit := do
  let targets ← awaitReply replies.getTargets
  match (targets.index "targetInfos").asArray with
  | none => throw (.new .cdpError "cannot protect the last browser window: target list unavailable")
  | some pages =>
    if anchorExists targetId pages then return ()
    else if ← guarded targetId replies then return ()
    else throw (.new .cdpError "cannot close the last browser window: replacement target was not created")

/-- `close_target_preserving_browser`: its result, and whether `Target.closeTarget` was sent. -/
def closeTargetPreservingBrowser (targetId : String) (replies : CleanupReplies) : Except Error Unit × Bool :=
  match protectWindow targetId replies with
  | .error error => (.error error, false)
  | .ok () =>
    match awaitReply replies.closeTarget with
    | .error error => (.error error, true)
    | .ok response =>
      if (response.index "success").asBool = some true then (.ok (), true)
      else (.error (.new .cdpError "Target.closeTarget did not confirm closure"), true)

/-- The browser confirms that it has closed the tab. -/
def CleanupReplies.confirm (replies : CleanupReplies) (targetId : String) : Bool :=
  (closeTargetPreservingBrowser targetId replies).1.toOption.isSome

/-! ## What becomes of a tab -/

structure TabLog where
  /-- The tab that the fetch has created. -/
  created : Option String
  /-- Tabs whose close was asked for. -/
  closeSent : List String
  /-- Tabs whose close the browser has confirmed. -/
  closed : List String
  /-- `retained_tab_id` of the trace. -/
  retainedTabId : Option String
  deriving DecidableEq

/-- A tab that is attached. -/
structure Attached where
  targetId : String
  sessionId : String
  createdTarget : Bool
  deriving DecidableEq

section
variable (replies : CleanupReplies)

/-- `session::close_target_preserving_browser` on the fetch's tab. -/
def TabLog.close (log : TabLog) (targetId : String) : Bool × TabLog :=
  (replies.confirm targetId,
    { log with
      closeSent := if (closeTargetPreservingBrowser targetId replies).2 then log.closeSent ++ [targetId]
        else log.closeSent
      closed := if replies.confirm targetId then log.closed ++ [targetId] else log.closed })

/-- True if the tab is closed.  Without `close` the session is detached. -/
def finishTarget (log : TabLog) (tab : Attached) (close : Bool) : Bool × TabLog :=
  if close then log.close replies tab.targetId else (false, log)

/-- A tab that is not closed is named in the trace. -/
def finishFailedTarget (log : TabLog) (tab : Attached) (close : Bool) : TabLog :=
  let finished := finishTarget replies log tab close
  if finished.1 then finished.2 else { finished.2 with retainedTabId := some tab.targetId }

end

/-! ## The fetch -/

structure PathConfig where
  /-- `builder.tab`. -/
  tab : Option String
  keepTabOpen : Bool
  deriving DecidableEq

/-- What `takeover_content_verified` reads. -/
structure CaptureEvidence where
  status : ℕ
  hasNextAction : Bool
  hasPageKind : Bool
  /-- Whether there is DOM content, the text and the ready state. -/
  snapshot : Option (Bool × String × String)
  /-- Whether the wait is satisfied, has timed out, and the target content is ready. -/
  readiness : Option (Bool × Bool × Bool)
  warnings : List ErrorCode

/-- What the stages of a fetch come to.  A stage that sends commands fails with the error or
the timeout of any of them. -/
structure StageOutcomes where
  /-- The target id that `Target.createTarget` replies with. -/
  createTarget : Except Error String
  attachTarget : Except Error String
  browserEnable : Except Error Unit
  prepareRequest : Except Error Unit
  /-- The reply to `Page.navigate`. -/
  navigate : Except Error Json
  downloadStart : Option DownloadStart
  /-- There is a download directory. -/
  downloadDir : Bool
  downloaded : Except Error CompletedDownload
  commit : Except Error Unit
  wait : Except Error Unit
  evaluateAfterWait : Except Error Unit
  validateCapture : Except Error Unit
  evidence : CaptureEvidence
  cleanup : CleanupReplies

structure Warning where
  code : ErrorCode
  detail : String
  deriving DecidableEq

structure PathResult where
  tabId : Option String
  humanTakeover : Bool
  warnings : List Warning

def takeoverContentVerified (evidence : CaptureEvidence) : Bool :=
  200 ≤ evidence.status && evidence.status < 300 && !evidence.hasNextAction && !evidence.hasPageKind &&
    evidence.snapshot.any (fun (dom, text, readyState) =>
      dom && !(trim text).isEmpty && (readyState == "interactive" || readyState == "complete")) &&
    evidence.readiness.all (fun (satisfied, timedOut, ready) => satisfied && !timedOut && ready) &&
    !evidence.warnings.any fun code =>
      [ErrorCode.artifactCaptureFailed, .artifactCaptureTimeout, .artifactEmpty, .observationEmpty, .navigationStale,
        .readinessTimeout, .waitSelectorUnmatched].contains code

def closeAfterSuccess (createdTarget takeover contentVerified : Bool) : Bool :=
  if takeover then contentVerified else createdTarget

def containsText (s p : String) : Bool := decide (p.toList <:+: s.toList)

def classifyNavigateError (errorText : String) : ErrorCode :=
  if containsText errorText "NAME_NOT_RESOLVED" || containsText errorText "ICANN_NAME_COLLISION" then
    .dnsResolutionFailed
  else if containsText errorText "CERT_" || containsText errorText "SSL_" then .tlsError
  else if containsText errorText "CONNECTION_" || containsText errorText "ADDRESS_UNREACHABLE" then .targetUnreachable
  else .hostUnreachable

/-- A navigation that runs out of CDP time is a navigation timeout. -/
def asNavigationTimeout (e : Error) : Error :=
  if e.errorCode = .cdpTimeout then .new .navigationTimeout e.detail else e

abbrev PathEnd := Except Error PathResult × TabLog

section
variable (cfg : PathConfig) (o : StageOutcomes)

/-- An error exit of an attached fetch. -/
def failTarget (log : TabLog) (tab : Attached) (e : Error) : PathEnd :=
  (.error e, finishFailedTarget o.cleanup log tab (tab.createdTarget && !cfg.keepTabOpen))

def finishDownloadNavigation (log : TabLog) (tab : Attached) : PathEnd :=
  if !o.downloadDir then
    failTarget cfg o log tab (.new .artifactCaptureFailed
      "navigation became a download, but the host profile download directory was unavailable")
  else
    match o.downloaded with
    | .error e => failTarget cfg o log tab e
    | .ok _ =>
      let finished := finishTarget o.cleanup log tab tab.createdTarget
      if finished.1 then (.ok ⟨none, false, []⟩, finished.2)
      else if tab.createdTarget then
        (.ok ⟨some tab.targetId, false,
            [⟨.cdpError, "completed download retained its tab because safe cleanup failed"⟩]⟩,
          (finishTarget o.cleanup finished.2 tab false).2)
      else (.ok ⟨some tab.targetId, false, []⟩, finished.2)

/-- The end of a fetch whose page was captured. -/
def finishPage (log : TabLog) (tab : Attached) : PathEnd :=
  let verified := takeoverContentVerified o.evidence
  let takeover := cfg.keepTabOpen && !verified && !o.evidence.hasNextAction
  let warnings := if takeover then [⟨.takeoverContentUnverified,
    "takeover tab retained for manual review: target readiness or requested artifacts do not confirm complete content; inspect tab_id and retry after review"⟩] else []
  if closeAfterSuccess tab.createdTarget cfg.keepTabOpen verified then
    let finished := finishTarget o.cleanup log tab true
    if finished.1 then (.ok ⟨none, takeover, warnings⟩, finished.2)
    else
      (.ok ⟨some tab.targetId, takeover, warnings ++ [⟨.cdpError,
          "could not safely recycle the tab; tab_id retained; the last browser window is protected"⟩]⟩,
        (finishTarget o.cleanup finished.2 tab false).2)
  else (.ok ⟨some tab.targetId, takeover, warnings⟩, (finishTarget o.cleanup log tab false).2)

/-- The stages of a fetch that has a session. -/
def afterAttach (log : TabLog) (tab : Attached) : PathEnd :=
  match o.browserEnable with
  | .error e => failTarget cfg o log tab e
  | .ok () =>
  match o.prepareRequest with
  | .error e => failTarget cfg o log tab e
  | .ok () =>
  match o.navigate with
  | .error e => failTarget cfg o log tab (asNavigationTimeout e)
  | .ok navigate =>
  if navigationBecameDownload navigate o.downloadStart then finishDownloadNavigation cfg o log tab
  else
  match ((navigate.get "errorText").bind Json.asStr).filter (· ≠ "") with
  | some err => failTarget cfg o log tab (.new (classifyNavigateError err) s!"Page.navigate errorText: {err}")
  | none =>
  match o.commit with
  | .error e => failTarget cfg o log tab e
  | .ok () =>
  match o.wait with
  | .error e => failTarget cfg o log tab (asNavigationTimeout e)
  | .ok () =>
  match o.evaluateAfterWait with
  | .error e => failTarget cfg o log tab e
  | .ok () =>
  match o.validateCapture with
  | .error e => failTarget cfg o log tab e
  | .ok () => finishPage cfg o log tab

/-- `browser_path`, from the opening of the target on. -/
def browserPath : PathEnd :=
  match cfg.tab with
  | some tab =>
    match o.attachTarget with
    | .error e => (.error e, ⟨none, [], [], none⟩)
    | .ok sessionId => afterAttach cfg o ⟨none, [], [], none⟩ ⟨tab, sessionId, false⟩
  | none =>
    match o.createTarget with
    | .error e => (.error e, ⟨none, [], [], none⟩)
    | .ok targetId =>
      let log : TabLog := ⟨some targetId, [], [], none⟩
      match o.attachTarget with
      | .error e =>
        if cfg.keepTabOpen then (.error e, { log with retainedTabId := some targetId })
        else (.error e, (log.close o.cleanup targetId).2)
      | .ok sessionId => afterAttach cfg o log ⟨targetId, sessionId, true⟩

end

/-! ## No tab is lost -/

/-- The created tab is closed, or the trace or the result names it; and an error leaves a tab
that is to be kept alone. -/
structure Accounted (cfg : PathConfig) (e : PathEnd) : Prop where
  tab : ∀ targetId, e.2.created = some targetId →
    targetId ∈ e.2.closed ∨ e.2.retainedTabId = some targetId ∨ ∃ r, e.1 = .ok r ∧ r.tabId = some targetId
  kept : cfg.keepTabOpen = true → ∀ error, e.1 = .error error → e.2.closeSent = []

/-- The log of a fetch before its exit: no close was asked for, and the tab is the created one. -/
structure Fresh (log : TabLog) (tab : Attached) : Prop where
  noClose : log.closeSent = []
  created : ∀ targetId, log.created = some targetId → targetId = tab.targetId ∧ tab.createdTarget = true

section
variable {cfg : PathConfig} {o : StageOutcomes} {log : TabLog} {tab : Attached}

theorem finishTarget_closed (replies : CleanupReplies) (log : TabLog) (tab : Attached) (close : Bool) :
    (finishTarget replies log tab close).2.created = log.created ∧
      ((finishTarget replies log tab close).1 = true → tab.targetId ∈ (finishTarget replies log tab close).2.closed) := by
  unfold finishTarget TabLog.close
  cases close with
  | false => exact ⟨rfl, fun h => Bool.noConfusion h⟩
  | true =>
    refine ⟨rfl, fun h => ?_⟩
    have hconfirm : replies.confirm tab.targetId = true := h
    show tab.targetId ∈ if replies.confirm tab.targetId then log.closed ++ [tab.targetId] else log.closed
    rw [if_pos hconfirm]
    exact List.mem_append_right _ (List.mem_singleton_self _)

/-- **Cleanup after a failure** closes the tab or names it. -/
theorem finishFailedTarget_accounted (replies : CleanupReplies) (log : TabLog) (tab : Attached) (close : Bool) :
    (finishFailedTarget replies log tab close).created = log.created ∧
      (tab.targetId ∈ (finishFailedTarget replies log tab close).closed ∨
        (finishFailedTarget replies log tab close).retainedTabId = some tab.targetId) := by
  obtain ⟨hcreated, hclosed⟩ := finishTarget_closed replies log tab close
  unfold finishFailedTarget
  cases h : (finishTarget replies log tab close).1 with
  | true =>
    rw [if_pos h]
    exact ⟨hcreated, Or.inl (hclosed h)⟩
  | false =>
    rw [if_neg (by rw [h]; exact Bool.false_ne_true)]
    exact ⟨hcreated, Or.inr rfl⟩

theorem failTarget_accounted (h : Fresh log tab) (e : Error) : Accounted cfg (failTarget cfg o log tab e) := by
  obtain ⟨hcreated, hnamed⟩ :=
    finishFailedTarget_accounted o.cleanup log tab (tab.createdTarget && !cfg.keepTabOpen)
  constructor
  · intro targetId ht
    obtain ⟨rfl, -⟩ := h.created targetId (hcreated ▸ ht)
    rcases hnamed with hclosed | hretained
    · exact Or.inl hclosed
    · exact Or.inr (Or.inl hretained)
  · intro hkeep error _
    show (finishFailedTarget o.cleanup log tab (tab.createdTarget && !cfg.keepTabOpen)).closeSent = []
    rw [hkeep, Bool.not_true, Bool.and_false]
    exact h.noClose

theorem finishDownloadNavigation_accounted (h : Fresh log tab) :
    Accounted cfg (finishDownloadNavigation cfg o log tab) := by
  unfold finishDownloadNavigation
  split
  · exact failTarget_accounted h _
  · split
    · exact failTarget_accounted h _
    · obtain ⟨hcreated, hclosed⟩ := finishTarget_closed o.cleanup log tab tab.createdTarget
      cases hclose : (finishTarget o.cleanup log tab tab.createdTarget).1 with
      | true =>
        rw [if_pos hclose]
        refine ⟨fun targetId ht => ?_, fun _ error he => by cases he⟩
        obtain ⟨rfl, -⟩ := h.created targetId (hcreated ▸ ht)
        exact Or.inl (hclosed hclose)
      | false =>
        rw [if_neg (by rw [hclose]; exact Bool.false_ne_true)]
        split
        all_goals
          refine ⟨fun targetId ht => ?_, fun _ error he => by cases he⟩
          obtain ⟨rfl, -⟩ := h.created targetId (hcreated ▸ ht)
          exact Or.inr (Or.inr ⟨_, rfl, rfl⟩)

theorem finishPage_accounted (h : Fresh log tab) : Accounted cfg (finishPage cfg o log tab) := by
  unfold finishPage
  dsimp only
  obtain ⟨hcreated, hclosed⟩ := finishTarget_closed o.cleanup log tab true
  split
  · cases hclose : (finishTarget o.cleanup log tab true).1 with
    | true =>
      rw [if_pos rfl]
      refine ⟨fun targetId ht => ?_, fun _ error he => by cases he⟩
      obtain ⟨rfl, -⟩ := h.created targetId (hcreated ▸ ht)
      exact Or.inl (hclosed hclose)
    | false =>
      rw [if_neg Bool.false_ne_true]
      refine ⟨fun targetId ht => ?_, fun _ error he => by cases he⟩
      obtain ⟨rfl, -⟩ := h.created targetId (hcreated ▸ ht)
      exact Or.inr (Or.inr ⟨_, rfl, rfl⟩)
  · refine ⟨fun targetId ht => ?_, fun _ error he => by cases he⟩
    obtain ⟨rfl, -⟩ := h.created targetId ht
    exact Or.inr (Or.inr ⟨_, rfl, rfl⟩)

/-- **Every exit of a fetch with a session** accounts for its tab. -/
theorem afterAttach_accounted (h : Fresh log tab) : Accounted cfg (afterAttach cfg o log tab) := by
  unfold afterAttach
  split
  · exact failTarget_accounted h _
  · split
    · exact failTarget_accounted h _
    · split
      · exact failTarget_accounted h _
      · split
        · exact finishDownloadNavigation_accounted h
        · split
          · exact failTarget_accounted h _
          · split
            · exact failTarget_accounted h _
            · split
              · exact failTarget_accounted h _
              · split
                · exact failTarget_accounted h _
                · split
                  · exact failTarget_accounted h _
                  · exact finishPage_accounted h

/-- **No created tab is lost**, whatever the commands come to, unless the tab could not be attached,
was not to be kept, and the browser does not confirm its close. -/
theorem tab_accounted (cfg : PathConfig) (o : StageOutcomes) : Accounted cfg (browserPath cfg o) ↔
    ∀ targetId e, cfg.tab = none → o.createTarget = .ok targetId → o.attachTarget = .error e →
      cfg.keepTabOpen = true ∨ o.cleanup.confirm targetId = true := by
  unfold browserPath
  cases htab : cfg.tab with
  | some tab =>
    refine ⟨fun _ targetId e h => (by cases h), fun _ => ?_⟩
    cases o.attachTarget with
    | error e => exact ⟨fun targetId ht => (by cases ht), fun _ _ _ => rfl⟩
    | ok sessionId => exact afterAttach_accounted ⟨rfl, fun targetId ht => by cases ht⟩
  | none =>
    cases hcreate : o.createTarget with
    | error e =>
      refine ⟨fun _ targetId e' _ h => (by cases h), fun _ => ?_⟩
      exact ⟨fun targetId ht => (by cases ht), fun _ _ _ => rfl⟩
    | ok targetId =>
      cases hattach : o.attachTarget with
      | ok sessionId =>
        refine ⟨fun _ t e _ _ h => (by cases h), fun _ => ?_⟩
        exact afterAttach_accounted ⟨rfl, fun t ht => ⟨(Option.some.inj ht).symm, rfl⟩⟩
      | error e =>
        cases hkeep : cfg.keepTabOpen with
        | true =>
          refine ⟨fun _ _ _ _ _ _ => Or.inl rfl, fun _ => ?_⟩
          exact ⟨fun t ht => Or.inr (Or.inl ht), fun _ _ _ => rfl⟩
        | false =>
          have hclosed : (TabLog.close o.cleanup ⟨some targetId, [], [], none⟩ targetId).2.closed =
              if o.cleanup.confirm targetId then [targetId] else [] := rfl
          constructor
          · intro h t e' _ ht _
            cases ht
            right
            rcases h.tab targetId rfl with hin | hretained | ⟨r, hr, -⟩
            · cases hconfirm : o.cleanup.confirm targetId with
              | true => rfl
              | false =>
                have hin' : targetId ∈ (TabLog.close o.cleanup ⟨some targetId, [], [], none⟩ targetId).2.closed := hin
                rw [hclosed, hconfirm] at hin'
                cases hin'
            · cases hretained
            · cases hr
          · intro h
            refine ⟨fun t ht => Or.inl ?_, fun hk => absurd hk (by rw [hkeep]; exact Bool.false_ne_true)⟩
            cases ht
            rcases h targetId e rfl rfl rfl with hk | hconfirm
            · cases hk
            · show targetId ∈ (TabLog.close o.cleanup ⟨some targetId, [], [], none⟩ targetId).2.closed
              rw [hclosed, hconfirm]
              exact List.mem_singleton_self _

/-! ## A tab without a session -/

/-- Nothing the fetch gets to beyond its attach; `Target.closeTarget` times out. -/
def failedAttach : StageOutcomes where
  createTarget := .ok "T"
  attachTarget := .error (.new .cdpError "CDP error -32602: No target with given id found")
  browserEnable := .ok ()
  prepareRequest := .ok ()
  navigate := .ok .null
  downloadStart := none
  downloadDir := false
  downloaded := .error (.new .artifactCaptureFailed "")
  commit := .ok ()
  wait := .ok ()
  evaluateAfterWait := .ok ()
  validateCapture := .ok ()
  evidence := ⟨200, false, false, none, none, []⟩
  cleanup := ⟨some (.ok (.obj [("targetInfos", .arr [])])), some (.ok (.obj [("targetId", .str "anchor")])), none⟩

/-- **A tab that nobody names.**  The attach fails and the close is not answered: the tab stays,
and neither the trace nor a result names it. -/
theorem failedAttach_lost : ¬ Accounted ⟨none, false⟩ (browserPath ⟨none, false⟩ failedAttach) := by
  intro h
  rcases h.tab "T" rfl with hclosed | hretained | ⟨r, hr, -⟩
  · exact absurd hclosed (by decide)
  · exact absurd hretained (by decide)
  · cases hr

end

end Afhttp.Fetch

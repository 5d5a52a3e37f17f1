import Mathlib
import Afhttp.Host.Reaper
import Afhttp.Lib.Run

/-!
# The browser's last window

`close_target_preserving_browser` of `sdk/cdp/session.rs`, any number of times at once: fetches and
the reaper each list the targets, make sure that there is a window anchor besides the page they
close, and close it.  The browser applies one command at a time and can host a second page.  A
step is a command that the browser applies, with its answer; an answer may be an error, and a
command may run out of time after it was applied.  Pages that close by themselves, or by a raw
`Target.closeTarget`, are left out.

A run counts on the anchors that its list showed, or on the one that was created for it.  It does
not look again, and another run may close them.

    a run that closes was shown an anchor or given one             (guarded_of_run)
    each run keeps an anchor while no other takes its last         (Kept.step)
    so the browser keeps a page                                    (last_window_kept)
    as it does where no anchor is closed                           (window_kept_of_workTabs)
-/

namespace Afhttp.Host

/-! ## The browser and the runs -/

structure Page where
  id : String
  url : String
  deriving DecidableEq

/-- The entry of `Target.getTargets`. -/
def Page.info (page : Page) : Json :=
  .obj [("targetId", .str page.id), ("type", .str "page"), ("url", .str page.url)]

def targetInfos (pages : List Page) : Json := .obj [("targetInfos", .arr (pages.map Page.info))]

/-- A run of the guarded close. -/
structure CloseRun where
  targetId : String
  stage : CloseStage
  /-- The answer to `Target.getTargets`. -/
  listed : Option (Except Error Json)
  /-- The answer to `Target.createTarget`. -/
  replaced : Option (Except Error Json)
  /-- The anchors that the run counts on. -/
  anchors : List String

/-- The anchors of a list, but for the page to close. -/
def anchorsOf (targetId : String) (pages : List Json) : List String :=
  pages.filterMap fun page =>
    if (page.index "type").asStr == some "page" && (page.index "targetId").asStr.any (· != targetId) &&
        (page.index "url").asStr == some windowAnchor then (page.index "targetId").asStr
    else none

namespace CloseRun

def start (targetId : String) : CloseRun := ⟨targetId, .guarding, none, none, []⟩

/-- The run with the answer to its list. -/
def listing (run : CloseRun) (reply : Except Error Json) : CloseRun :=
  let pages := (reply.toOption.bind fun targets => (targets.index "targetInfos").asArray).getD []
  { run with listed := some reply, anchors := anchorsOf run.targetId pages }

/-- The run with the answer to its `Target.createTarget`. -/
def replacing (run : CloseRun) (reply : Except Error Json) : CloseRun :=
  let created := reply.toOption.bind fun replacement => (replacement.index "targetId").asStr
  { run with replaced := some reply, anchors := run.anchors ++ created.toList }

/-- The run was shown the targets. -/
def Shown (run : CloseRun) (pages : List Json) : Prop :=
  ∃ targets, run.listed = some (.ok targets) ∧ (targets.index "targetInfos").asArray = some pages

/-- The run was given a page. -/
def Given (run : CloseRun) : Prop :=
  ∃ replacement, run.replaced = some (.ok replacement) ∧
    ((replacement.index "targetId").asStr.any fun id => !id.isEmpty && id != run.targetId) = true

/-- The list was answered and showed an anchor, or a page was created for the run. -/
def Guarded (run : CloseRun) : Prop :=
  ∃ pages, run.Shown pages ∧ (anchorExists run.targetId pages = true ∨ run.Given)

/-- A run that makes sure of an anchor has seen the list, and one that closes is guarded. -/
def Told (run : CloseRun) : Prop :=
  (run.stage = .anchoring → ∃ pages, run.Shown pages) ∧
    (run.stage = .issuing ∨ run.stage = .confirming → run.Guarded)

end CloseRun

structure WindowWorld (R : Type) where
  pages : List Page
  runs : R → Option CloseRun

inductive WindowEvent (R : Type) where
  | start (r : R) (targetId : String)
  /-- `fault`: the answer, where it is not the list of the targets. -/
  | getTargets (r : R) (fault : Option (Except Error Json))
  /-- `created`: the page that the browser opens. -/
  | createTarget (r : R) (created : Option String) (reply : Except Error Json)
  | closeTarget (r : R)
  /-- The run returns, with its last answer or out of time. -/
  | finish (r : R)
  /-- A page opens that no run has asked for. -/
  | opens (page : Page)
  | navigates (id url : String)

/-- An answer that shows no targets. -/
def isUseless : Except Error Json → Bool
  | .ok targets => (targets.index "targetInfos").asArray.isNone
  | .error _ => true

/-- The target that an answer names is the one that was created, and a second one can be. -/
def isTruthful (created : Option String) : Except Error Json → Bool
  | .ok replacement => (replacement.index "targetId").asStr.all fun id => id.isEmpty || created == some id
  | .error e => !refusesSecondTarget e

namespace WindowWorld

variable {R : Type}

def isOpen (w : WindowWorld R) (id : String) : Bool := w.pages.any (·.id == id)

def openPage (w : WindowWorld R) (page : Page) : WindowWorld R := { w with pages := w.pages ++ [page] }

def openAnchor (w : WindowWorld R) (created : Option String) : WindowWorld R :=
  match created with
  | some id => w.openPage ⟨id, windowAnchor⟩
  | none => w

def closePage (w : WindowWorld R) (id : String) : WindowWorld R :=
  { w with pages := w.pages.filter fun page => page.id != id }

def navigate (w : WindowWorld R) (id url : String) : WindowWorld R :=
  { w with pages := w.pages.map fun page => if page.id = id then { page with url } else page }

variable [DecidableEq R]

def setRun (w : WindowWorld R) (r : R) (run : Option CloseRun) : WindowWorld R :=
  { w with runs := Function.update w.runs r run }

/-- The run goes on to the stage that the answer leads to, or returns its error. -/
def goOn (w : WindowWorld R) (r : R) (run : CloseRun) : Except Error CloseStage → WindowWorld R
  | .ok stage => w.setRun r (some { run with stage })
  | .error _ => w.setRun r none

def step (w : WindowWorld R) : WindowEvent R → Option (WindowWorld R)
  | .start r targetId => if (w.runs r).isNone then some (w.setRun r (some (.start targetId))) else none
  | .getTargets r fault =>
    match w.runs r with
    | some run =>
      if run.stage = .guarding ∧ fault.all isUseless = true then
        let reply := fault.getD (.ok (targetInfos w.pages))
        some (w.goOn r (run.listing reply) (afterListing run.targetId reply))
      else none
    | none => none
  | .createTarget r created reply =>
    match w.runs r with
    | some run =>
      if run.stage = .anchoring ∧ isTruthful created reply = true ∧ created.all (fun id => !w.isOpen id) = true then
        some ((w.openAnchor created).goOn r (run.replacing reply) (afterAnchor run.targetId reply))
      else none
    | none => none
  | .closeTarget r =>
    match w.runs r with
    | some run =>
      if run.stage = .issuing then
        some ((w.closePage run.targetId).setRun r (some { run with stage := .confirming }))
      else none
    | none => none
  | .finish r => some (w.setRun r none)
  | .opens page => if w.isOpen page.id then none else some (w.openPage page)
  | .navigates id url => some (w.navigate id url)

end WindowWorld

/-! ## What a run was told -/

section
variable {R : Type} [DecidableEq R]

/-- A run goes on from its list with an anchor, or without one. -/
theorem afterListing_ok {targetId : String} {reply : Except Error Json} {stage : CloseStage}
    (h : afterListing targetId reply = .ok stage) : ∃ targets pages, reply = .ok targets ∧
      (targets.index "targetInfos").asArray = some pages ∧
        (stage = .issuing ∧ anchorExists targetId pages = true ∨ stage = .anchoring) := by
  cases reply with
  | error e => cases h
  | ok targets =>
    unfold afterListing at h
    dsimp only at h
    split at h
    · cases h
    · next pages hpages =>
      refine ⟨targets, pages, rfl, hpages, ?_⟩
      cases hanchor : anchorExists targetId pages with
      | true =>
        rw [hanchor] at h
        cases h
        exact Or.inl ⟨rfl, rfl⟩
      | false =>
        rw [hanchor] at h
        cases h
        exact Or.inr rfl

/-- A run goes on from its `Target.createTarget` with a page. -/
theorem afterAnchor_ok {targetId : String} {created : Option String} {reply : Except Error Json} {stage : CloseStage}
    (h : afterAnchor targetId reply = .ok stage) (ht : isTruthful created reply = true) :
    stage = .issuing ∧ ∃ replacement id, reply = .ok replacement ∧ (replacement.index "targetId").asStr = some id ∧
      id.isEmpty = false ∧ id ≠ targetId ∧ created = some id := by
  cases reply with
  | error e =>
    have hrefuses : refusesSecondTarget e = false := by simpa [isTruthful] using ht
    simp [afterAnchor, hrefuses] at h
  | ok replacement =>
    unfold afterAnchor at h
    dsimp only at h
    split at h
    · next hany =>
      cases h
      obtain ⟨id, hid, hne⟩ := (Option.any_eq_true _ _).mp hany
      rw [Bool.and_eq_true, Bool.not_eq_true', bne_iff_ne] at hne
      refine ⟨rfl, replacement, id, rfl, hid, hne.1, hne.2, ?_⟩
      have hall : (replacement.index "targetId").asStr.all (fun id => id.isEmpty || created == some id) = true := ht
      rw [hid, Option.all_some, hne.1, Bool.false_or, beq_iff_eq] at hall
      exact hall
    · cases h

namespace WindowWorld

variable {w w' : WindowWorld R} {r : R}

theorem runs_setRun {run : Option CloseRun} {r' : R} {run' : CloseRun} (h : (w.setRun r run).runs r' = some run') :
    (r' = r ∧ run = some run') ∨ (r' ≠ r ∧ w.runs r' = some run') := by
  by_cases hr : r' = r
  · rw [hr] at h
    have hself : Function.update w.runs r run r = some run' := h
    rw [Function.update_self] at hself
    exact Or.inl ⟨hr, hself⟩
  · have hother : Function.update w.runs r run r' = some run' := h
    rw [Function.update_of_ne hr] at hother
    exact Or.inr ⟨hr, hother⟩

theorem runs_goOn {run : CloseRun} {result : Except Error CloseStage} {r' : R} {run' : CloseRun}
    (h : (w.goOn r run result).runs r' = some run') :
    (r' = r ∧ ∃ stage, result = .ok stage ∧ run' = { run with stage }) ∨ (r' ≠ r ∧ w.runs r' = some run') := by
  cases result with
  | error e =>
    rcases runs_setRun h with ⟨-, hrun⟩ | hother
    · cases hrun
    · exact Or.inr hother
  | ok stage =>
    rcases runs_setRun h with ⟨hr, hrun⟩ | hother
    · exact Or.inl ⟨hr, stage, rfl, (Option.some.inj hrun).symm⟩
    · exact Or.inr hother

omit [DecidableEq R] in
theorem runs_openAnchor (created : Option String) : (w.openAnchor created).runs = w.runs := by
  cases created <;> rfl

/-- **What a step does.**  The run that it is about goes on with what it was told; the pages
change only where one opens, closes or navigates. -/
inductive Change (w : WindowWorld R) : WindowEvent R → WindowWorld R → Prop
  | start (r : R) (targetId : String) : Change w (.start r targetId) (w.setRun r (some (.start targetId)))
  | getTargets (r : R) (fault : Option (Except Error Json)) (run : CloseRun) (hrun : w.runs r = some run)
      (hfault : fault.all isUseless = true) :
      Change w (.getTargets r fault) (w.goOn r (run.listing (fault.getD (.ok (targetInfos w.pages))))
        (afterListing run.targetId (fault.getD (.ok (targetInfos w.pages)))))
  | createTarget (r : R) (created : Option String) (reply : Except Error Json) (run : CloseRun)
      (hrun : w.runs r = some run) (hstage : run.stage = .anchoring) (htrue : isTruthful created reply = true) :
      Change w (.createTarget r created reply)
        ((w.openAnchor created).goOn r (run.replacing reply) (afterAnchor run.targetId reply))
  | closeTarget (r : R) (run : CloseRun) (hrun : w.runs r = some run) (hstage : run.stage = .issuing) :
      Change w (.closeTarget r) ((w.closePage run.targetId).setRun r (some { run with stage := .confirming }))
  | finish (r : R) : Change w (.finish r) (w.setRun r none)
  | opens (page : Page) : Change w (.opens page) (w.openPage page)
  | navigates (id url : String) : Change w (.navigates id url) (w.navigate id url)

theorem step_change {e : WindowEvent R} (h : w.step e = some w') : Change w e w' := by
  cases e with
  | start r targetId =>
    simp only [step] at h
    split at h
    · cases h
      exact .start r targetId
    · cases h
  | getTargets r fault =>
    simp only [step] at h
    split at h
    · next run hrun =>
      split at h
      · next hcond =>
        cases h
        exact .getTargets r fault run hrun hcond.2
      · cases h
    · cases h
  | createTarget r created reply =>
    simp only [step] at h
    split at h
    · next run hrun =>
      split at h
      · next hcond =>
        cases h
        exact .createTarget r created reply run hrun hcond.1 hcond.2.1
      · cases h
    · cases h
  | closeTarget r =>
    simp only [step] at h
    split at h
    · next run hrun =>
      split at h
      · next hstage =>
        cases h
        exact .closeTarget r run hrun hstage
      · cases h
    · cases h
  | finish r =>
    cases h
    exact .finish r
  | opens page =>
    simp only [step] at h
    split at h
    · cases h
    · cases h
      exact .opens page
  | navigates id url =>
    cases h
    exact .navigates id url

/-- Every run has been told what its stage takes. -/
def Told (w : WindowWorld R) : Prop := ∀ r run, w.runs r = some run → run.Told

theorem Told.setRun (h : w.Told) {run : Option CloseRun} (hrun : ∀ x, run = some x → x.Told) :
    (w.setRun r run).Told := by
  intro r' run' hrun'
  rcases runs_setRun hrun' with ⟨-, hnew⟩ | ⟨-, hold⟩
  · exact hrun run' hnew
  · exact h r' run' hold

theorem Told.goOn (h : w.Told) {run : CloseRun} {result : Except Error CloseStage}
    (hrun : ∀ stage, result = .ok stage → CloseRun.Told { run with stage }) : (w.goOn r run result).Told := by
  intro r' run' hrun'
  rcases runs_goOn hrun' with ⟨-, stage, hok, rfl⟩ | ⟨-, hold⟩
  · exact hrun stage hok
  · exact h r' run' hold

/-- **A run is told** before it goes on. -/
theorem Told.step {e : WindowEvent R} (h : w.Told) (hstep : w.step e = some w') : w'.Told := by
  cases step_change hstep with
  | start r targetId =>
    apply h.setRun
    rintro run ⟨⟩
    exact ⟨fun hs => CloseStage.noConfusion hs, fun hs => hs.elim CloseStage.noConfusion CloseStage.noConfusion⟩
  | getTargets r fault run hrun hfault =>
    apply h.goOn
    intro stage hok
    obtain ⟨targets, pages, hreply, hpages, hstage⟩ := afterListing_ok hok
    have hshown : CloseRun.Shown { run.listing (fault.getD (.ok (targetInfos w.pages))) with stage } pages :=
      ⟨targets, congrArg some hreply, hpages⟩
    refine ⟨fun _ => ⟨pages, hshown⟩, fun hclose => ⟨pages, hshown, ?_⟩⟩
    rcases hstage with ⟨-, hanchor⟩ | rfl
    · exact Or.inl hanchor
    · rcases hclose with hclose | hclose <;> cases hclose
  | createTarget r created reply run hrun hstage htrue =>
    have hbefore : (w.openAnchor created).Told := by
      intro r' run' hrun'
      rw [runs_openAnchor] at hrun'
      exact h r' run' hrun'
    apply hbefore.goOn
    intro stage hok
    obtain ⟨rfl, replacement, id, hreply, hid, hempty, hne, -⟩ := afterAnchor_ok hok htrue
    obtain ⟨pages, targets, hlisted, hpages⟩ := (h r run hrun).1 hstage
    have hgiven : CloseRun.Given { run.replacing reply with stage := .issuing } := by
      refine ⟨replacement, congrArg some hreply, ?_⟩
      rw [hid, Option.any_some, hempty, Bool.not_false, Bool.true_and, bne_iff_ne]
      exact hne
    exact ⟨fun hs => CloseStage.noConfusion hs, fun _ => ⟨pages, ⟨targets, hlisted, hpages⟩, Or.inr hgiven⟩⟩
  | closeTarget r run hrun hstage =>
    have hbefore : (w.closePage run.targetId).Told := h
    apply hbefore.setRun
    rintro run' ⟨⟩
    exact ⟨fun hs => CloseStage.noConfusion hs, fun _ => (h r run hrun).2 (Or.inl hstage)⟩
  | finish r =>
    apply h.setRun
    rintro run ⟨⟩
  | opens page => exact h
  | navigates id url => exact h

/-! ## What a run counts on -/

/-- There is a page, and each run that is about to close one has another that it counts on. -/
structure Kept (w : WindowWorld R) : Prop where
  page : w.pages ≠ []
  anchored : ∀ r run, w.runs r = some run → run.stage = .issuing →
    ∃ id ∈ run.anchors, id ≠ run.targetId ∧ w.isOpen id = true

/-- The condition: what is closed is not the last anchor that another run counts on. -/
def AnchorsKept (w : WindowWorld R) : WindowEvent R → Prop
  | .closeTarget r => ∀ run ∈ w.runs r, ∀ r', r' ≠ r → ∀ run' ∈ w.runs r', run'.stage = .issuing →
      ∃ id ∈ run'.anchors, id ≠ run'.targetId ∧ id ≠ run.targetId ∧ w.isOpen id = true
  | _ => True

instance [Fintype R] (w : WindowWorld R) : (e : WindowEvent R) → Decidable (w.AnchorsKept e)
  | .closeTarget r => inferInstanceAs (Decidable (∀ run ∈ w.runs r, ∀ r', r' ≠ r → ∀ run' ∈ w.runs r',
      run'.stage = .issuing →
        ∃ id ∈ run'.anchors, id ≠ run'.targetId ∧ id ≠ run.targetId ∧ w.isOpen id = true))
  | .start .. | .getTargets .. | .createTarget .. | .finish .. | .opens .. | .navigates .. =>
    inferInstanceAs (Decidable True)

omit [DecidableEq R] in
theorem isOpen_iff (w : WindowWorld R) (id : String) : w.isOpen id = true ↔ ∃ page ∈ w.pages, page.id = id := by
  simp [isOpen]

omit [DecidableEq R] in
theorem isOpen_closePage {id targetId : String} (h : w.isOpen id = true) (hne : id ≠ targetId) :
    (w.closePage targetId).isOpen id = true := by
  rw [isOpen_iff] at h ⊢
  obtain ⟨page, hpage, rfl⟩ := h
  exact ⟨page, List.mem_filter.mpr ⟨hpage, bne_iff_ne.mpr hne⟩, rfl⟩

omit [DecidableEq R] in
theorem isOpen_openPage {id : String} (h : w.isOpen id = true) (page : Page) : (w.openPage page).isOpen id = true := by
  rw [isOpen_iff] at h ⊢
  obtain ⟨p, hp, rfl⟩ := h
  exact ⟨p, List.mem_append_left _ hp, rfl⟩

omit [DecidableEq R] in
theorem isOpen_openAnchor {id : String} (h : w.isOpen id = true) (created : Option String) :
    (w.openAnchor created).isOpen id = true := by
  cases created with
  | none => exact h
  | some id' => exact isOpen_openPage h _

omit [DecidableEq R] in
theorem isOpen_openAnchor_self (w : WindowWorld R) (id : String) : (w.openAnchor (some id)).isOpen id = true := by
  rw [isOpen_iff]
  exact ⟨⟨id, windowAnchor⟩, List.mem_append_right _ (List.mem_singleton_self _), rfl⟩

omit [DecidableEq R] in
theorem isOpen_navigate {id : String} (h : w.isOpen id = true) (id' url : String) :
    (w.navigate id' url).isOpen id = true := by
  rw [isOpen_iff] at h ⊢
  obtain ⟨page, hpage, rfl⟩ := h
  refine ⟨_, List.mem_map_of_mem hpage, ?_⟩
  split <;> rfl

omit [DecidableEq R] in
theorem pages_ne_nil_of_isOpen {id : String} (h : w.isOpen id = true) : w.pages ≠ [] := by
  obtain ⟨page, hpage, -⟩ := (isOpen_iff w id).mp h
  exact List.ne_nil_of_mem hpage

/-- A list that shows an anchor. -/
theorem exists_mem_anchorsOf {targetId : String} {pages : List Json} (h : anchorExists targetId pages = true) :
    ∃ id, id ∈ anchorsOf targetId pages := by
  obtain ⟨page, hpage, hanchor⟩ := List.any_eq_true.mp h
  have hany : (page.index "targetId").asStr.any (· != targetId) = true := by
    rw [Bool.and_eq_true, Bool.and_eq_true] at hanchor
    exact hanchor.1.2
  obtain ⟨id, hid, -⟩ := (Option.any_eq_true _ _).mp hany
  refine ⟨id, List.mem_filterMap.mpr ⟨page, hpage, ?_⟩⟩
  rw [if_pos hanchor]
  exact hid

/-- An anchor that the browser's own list shows is one of its pages, and another than the target. -/
theorem of_mem_anchorsOf {targetId id : String} {pages : List Page}
    (h : id ∈ anchorsOf targetId (pages.map Page.info)) : id ≠ targetId ∧ ∃ page ∈ pages, page.id = id := by
  obtain ⟨info, hinfo, hsome⟩ := List.mem_filterMap.mp h
  obtain ⟨page, hpage, rfl⟩ := List.mem_map.mp hinfo
  split at hsome
  · next hanchor =>
    have hid : page.id = id := Option.some.inj hsome
    rw [Bool.and_eq_true, Bool.and_eq_true] at hanchor
    have hne : page.id ≠ targetId := bne_iff_ne.mp hanchor.1.2
    exact ⟨hid ▸ hne, page, hpage, hid⟩
  · cases hsome

/-- A useful answer is the browser's own list. -/
theorem honest_list {fault : Option (Except Error Json)} {pages : List Page} {targets : Json} {array : List Json}
    (hfault : fault.all isUseless = true) (h : fault.getD (.ok (targetInfos pages)) = .ok targets)
    (harray : (targets.index "targetInfos").asArray = some array) :
    targets = targetInfos pages ∧ array = pages.map Page.info := by
  cases fault with
  | none =>
    cases h
    exact ⟨rfl, (Option.some.inj harray).symm⟩
  | some reply =>
    have hreply : reply = .ok targets := h
    rw [hreply] at hfault
    have huseless : (targets.index "targetInfos").asArray.isNone = true := hfault
    rw [harray] at huseless
    cases huseless

/-- A change that leaves open what is open, for the runs that stay as they are. -/
theorem Kept.setRun (h : w.Kept) {u : WindowWorld R} (hruns : u.runs = w.runs)
    (hopen : ∀ id, w.isOpen id = true → u.isOpen id = true) (hpage : u.pages ≠ []) {run : Option CloseRun}
    (hrun : ∀ x, run = some x → x.stage = .issuing → ∃ id ∈ x.anchors, id ≠ x.targetId ∧ u.isOpen id = true) :
    (u.setRun r run).Kept := by
  refine ⟨hpage, ?_⟩
  intro r' run' hrun' hstage
  rcases runs_setRun hrun' with ⟨-, hnew⟩ | ⟨-, hold⟩
  · exact hrun run' hnew hstage
  · rw [hruns] at hold
    obtain ⟨id, hid, hne, hisOpen⟩ := h.anchored r' run' hold hstage
    exact ⟨id, hid, hne, hopen id hisOpen⟩

/-- **One step.**  Where no run closes the last anchor that another counts on, each run that is
about to close a page keeps one. -/
theorem Kept.step {e : WindowEvent R} (h : w.Kept) (hok : w.AnchorsKept e) (hstep : w.step e = some w') :
    w'.Kept := by
  cases step_change hstep with
  | start r targetId =>
    apply h.setRun rfl (fun _ hid => hid) h.page
    rintro run ⟨⟩ hs
    cases hs
  | getTargets r fault run hrun hfault =>
    cases hafter : afterListing run.targetId (fault.getD (.ok (targetInfos w.pages))) with
    | error e =>
      apply h.setRun rfl (fun _ hid => hid) h.page
      rintro run' ⟨⟩
    | ok stage =>
      obtain ⟨targets, array, hreply, harray, hstage⟩ := afterListing_ok hafter
      obtain ⟨rfl, rfl⟩ := honest_list hfault hreply harray
      apply h.setRun rfl (fun _ hid => hid) h.page
      rintro run' ⟨⟩ hissuing
      rcases hstage with ⟨-, hanchor⟩ | rfl
      · obtain ⟨id, hid⟩ := exists_mem_anchorsOf hanchor
        obtain ⟨hne, hpage⟩ := of_mem_anchorsOf hid
        refine ⟨id, ?_, hne, (isOpen_iff w id).mpr hpage⟩
        rw [hreply]
        exact hid
      · cases hissuing
  | createTarget r created reply run hrun hstage htrue =>
    have hpage : (w.openAnchor created).pages ≠ [] := by
      obtain ⟨page, hmem⟩ := List.exists_mem_of_ne_nil _ h.page
      exact pages_ne_nil_of_isOpen (isOpen_openAnchor ((isOpen_iff w page.id).mpr ⟨page, hmem, rfl⟩) created)
    have hopen : ∀ id, w.isOpen id = true → (w.openAnchor created).isOpen id = true :=
      fun id hid => isOpen_openAnchor hid created
    cases hafter : afterAnchor run.targetId reply with
    | error e =>
      apply h.setRun (runs_openAnchor created) hopen hpage
      rintro run' ⟨⟩
    | ok stage =>
      obtain ⟨rfl, replacement, id, rfl, hid, -, hne, rfl⟩ := afterAnchor_ok hafter htrue
      apply h.setRun (runs_openAnchor _) hopen hpage
      rintro run' ⟨⟩ -
      refine ⟨id, List.mem_append_right _ ?_, hne, isOpen_openAnchor_self w id⟩
      rw [Except.toOption, Option.bind_some, hid]
      exact List.mem_singleton_self _
  | closeTarget r run hrun hstage =>
    obtain ⟨mine, -, hmine, hmineOpen⟩ := h.anchored r run hrun hstage
    refine ⟨pages_ne_nil_of_isOpen (isOpen_closePage hmineOpen hmine), ?_⟩
    intro r' run' hrun' hissuing
    rcases runs_setRun hrun' with ⟨-, hnew⟩ | ⟨hne, hold⟩
    · cases hnew
      cases hissuing
    · obtain ⟨id, hid, htarget, hother, hopen⟩ := hok run hrun r' hne run' hold hissuing
      exact ⟨id, hid, htarget, isOpen_closePage hopen hother⟩
  | finish r =>
    apply h.setRun rfl (fun _ hid => hid) h.page
    rintro run ⟨⟩
  | opens page =>
    refine ⟨List.append_ne_nil_of_left_ne_nil h.page _, ?_⟩
    intro r' run' hrun' hissuing
    obtain ⟨id, hid, hne, hopen⟩ := h.anchored r' run' hrun' hissuing
    exact ⟨id, hid, hne, isOpen_openPage hopen page⟩
  | navigates id' url =>
    refine ⟨fun hnil => h.page (List.map_eq_nil_iff.mp hnil), ?_⟩
    intro r' run' hrun' hissuing
    obtain ⟨id, hid, hne, hopen⟩ := h.anchored r' run' hrun' hissuing
    exact ⟨id, hid, hne, isOpen_navigate hopen id' url⟩

/-- A browser with a page, and no run yet. -/
structure Initial (w : WindowWorld R) : Prop where
  page : w.pages ≠ []
  idle : ∀ r, w.runs r = none

/-- What the guarded close is for: the browser keeps a page, and a page is closed only by a run
that was shown an anchor or was given one. -/
structure WindowSafe (w : WindowWorld R) : Prop where
  page : w.pages ≠ []
  guarded : ∀ r run, w.runs r = some run → run.stage = .issuing ∨ run.stage = .confirming → run.Guarded

omit [DecidableEq R] in
theorem Initial.told (h : w.Initial) : w.Told := by
  intro r run hrun
  rw [h.idle r] at hrun
  cases hrun

omit [DecidableEq R] in
theorem Initial.kept (h : w.Initial) : w.Kept := by
  refine ⟨h.page, fun r run hrun => ?_⟩
  rw [h.idle r] at hrun
  cases hrun

/-- **No close without a guard**, in any run: where the list or the anchor fails, the target stays
open. -/
theorem guarded_of_run {w₀ : WindowWorld R} (h₀ : w₀.Initial) {es : List (WindowEvent R)}
    (hrun : Run.run WindowWorld.step w₀ es = some w) : w.Told :=
  Run.run_invariant WindowWorld.step h₀.told (fun _ _ _ h hs => h.step hs) hrun

/-- **The last window.**  Over any number of runs at once, the browser keeps a page in every run in
which nothing that is closed is the last anchor of another run. -/
theorem last_window_kept {w₀ : WindowWorld R} (h₀ : w₀.Initial) {es : List (WindowEvent R)}
    (hok : Run.RunMeets WindowWorld.step AnchorsKept w₀ es) (hrun : Run.run WindowWorld.step w₀ es = some w) :
    w.WindowSafe := by
  have hkept : w.Kept := Run.runMeets_invariant WindowWorld.step h₀.kept (fun _ _ _ h ho hs => h.step ho hs) hok hrun
  have htold := guarded_of_run h₀ hrun
  exact ⟨hkept.page, fun r run hr => (htold r run hr).2⟩

/-- No run counts on what is closed. -/
def ClosesNoAnchor (w : WindowWorld R) : WindowEvent R → Prop
  | .closeTarget r => ∀ run ∈ w.runs r, ∀ r', ∀ run' ∈ w.runs r', run.targetId ∉ run'.anchors
  | _ => True

omit [DecidableEq R] in
theorem Kept.anchorsKept {e : WindowEvent R} (h : w.Kept) (hno : w.ClosesNoAnchor e) : w.AnchorsKept e := by
  cases e with
  | closeTarget r =>
    intro run hrun r' _ run' hrun' hissuing
    obtain ⟨id, hid, hne, hopen⟩ := h.anchored r' run' hrun' hissuing
    refine ⟨id, hid, hne, ?_, hopen⟩
    rintro rfl
    exact hno run hrun r' run' hrun' hid
  | _ => trivial

/-- **Work tabs.**  The browser keeps a page in every run in which no anchor is closed. -/
theorem window_kept_of_workTabs {w₀ : WindowWorld R} (h₀ : w₀.Initial) {es : List (WindowEvent R)}
    (hok : Run.RunMeets WindowWorld.step ClosesNoAnchor w₀ es) (hrun : Run.run WindowWorld.step w₀ es = some w) :
    w.pages ≠ [] := by
  have hkept : w.Kept := Run.runMeets_invariant WindowWorld.step h₀.kept
    (fun _ _ _ h ho hs => h.step (h.anchorsKept ho) hs) hok hrun
  exact hkept.page

end WindowWorld

/-! ## Two tabs, and two anchors -/

/-- A browser with these pages. -/
def windowOf (pages : List Page) : WindowWorld Bool := ⟨pages, fun _ => none⟩

/-- Two runs that list the targets, one after the other, before either closes its page. -/
def listBoth (first second : String) : List (WindowEvent Bool) :=
  [.start false first, .start true second, .getTargets false none, .getTargets true none]

/-- Two fetches whose first one has an anchor created, and whose second one finds it. -/
def closeTabs : List (WindowEvent Bool) :=
  [.start false "T", .getTargets false none, .createTarget false (some "A") (.ok (.obj [("targetId", .str "A")])),
    .start true "U", .getTargets true none, .closeTarget false, .closeTarget true]

theorem last_window_kept_workTabs : ∃ w,
    Run.run WindowWorld.step (windowOf [⟨"T", "https://site.test/"⟩, ⟨"U", "https://site.test/"⟩]) closeTabs = some w ∧
      w.pages = [⟨"A", windowAnchor⟩] ∧ w.WindowSafe := by
  refine ⟨_, rfl, rfl, ?_⟩
  have hinitial : (windowOf [⟨"T", "https://site.test/"⟩, ⟨"U", "https://site.test/"⟩]).Initial :=
    ⟨by decide, fun _ => rfl⟩
  have hok : Run.RunMeets WindowWorld.step WindowWorld.AnchorsKept
      (windowOf [⟨"T", "https://site.test/"⟩, ⟨"U", "https://site.test/"⟩]) closeTabs := by decide
  exact WindowWorld.last_window_kept hinitial hok rfl

/-- **Two anchors at once.**  Two anchors are closed at once, and each run counts on the
anchor that the other one closes. -/
theorem swapped_anchors_close_all : ¬ ∀ (w₀ w : WindowWorld Bool) (es : List (WindowEvent Bool)), w₀.Initial →
    Run.run WindowWorld.step w₀ es = some w → w.WindowSafe := by
  intro h
  have hsafe := h (windowOf [⟨"A", windowAnchor⟩, ⟨"B", windowAnchor⟩]) _
    (listBoth "A" "B" ++ [.closeTarget false, .closeTarget true]) ⟨by decide, fun _ => rfl⟩ rfl
  exact hsafe.page rfl

end

end Afhttp.Host

import Afhttp.Lib.Window
import Afhttp.Fetch.ReadinessVerdict

/-!
# What a satisfied wait has seen

The trackers are windows of the turns so far: what a tracker says is unchanged since an instant has
been the same in every sample from then on, with no failed and no ineligible sample between.

    the trackers after a run                                               (loop_follows)
    a wait that returns satisfied has seen the page ready               (readiness_sound)
-/

namespace Afhttp.Fetch

open Collect Window

/-! ## Trackers -/

section
variable (metricsOf : Iteration → Option PageMetrics) (key : PageMetrics → ℕ × ℕ) (stableFor : ℕ)

/-- What a turn has measured, if it has. -/
def keyOf (it : Iteration) : Option (ℕ × ℕ) := (metricsOf it).map key

/-- The turns from the oldest to the newest of the window have measured the same for as long. -/
def Stands (its : List Iteration) : Prop :=
  ∃ newest older, its.getLast? = some newest ∧ (metricsOf newest).isSome ∧
    oldest (keyOf metricsOf key) its.reverse = some older ∧
    2 ≤ (window (keyOf metricsOf key) its.reverse).length ∧ stableFor ≤ newest.now - older.now

/-- What a tracker has about the DOM, or about the text, after the turns. -/
structure Channel (since : ℕ) (stable : Bool) (its : List Iteration) : Prop where
  since : ∀ older, (its.getLast?.bind metricsOf).isSome → oldest (keyOf metricsOf key) its.reverse = some older →
    since = older.now
  stable : stable = true → Stands metricsOf key stableFor its

structure Follows (tracker : StabilityTracker) (its : List Iteration) : Prop where
  last : tracker.last = its.getLast?.bind metricsOf
  dom : Channel metricsOf PageMetrics.dom stableFor tracker.domUnchangedSince tracker.domStable its
  text : Channel metricsOf PageMetrics.text stableFor tracker.textUnchangedSince tracker.textStable its

end

section
variable {metricsOf : Iteration → Option PageMetrics} {key : PageMetrics → ℕ × ℕ} {stableFor since : ℕ}
  {its : List Iteration} {it : Iteration} {m : PageMetrics}

theorem same_iff (hm : metricsOf it = some m) :
    ((its.getLast?.bind metricsOf).any fun last => key last == key m) = true ↔
      its.reverse.head?.map (keyOf metricsOf key) = some (keyOf metricsOf key it) := by
  unfold keyOf
  rw [hm, List.head?_reverse, Option.any_eq_true]
  cases its.getLast? with
  | none => simp
  | some newest =>
    cases hn : metricsOf newest with
    | none => simp [hn]
    | some last => simp [hn]

/-- A sample prolongs the window or begins one. -/
theorem Channel.observe {stable : Bool} (h : Channel metricsOf key stableFor since stable its) (hm : metricsOf it = some m) :
    let same := (its.getLast?.bind metricsOf).any fun last => key last == key m
    let since' := if same then since else it.now
    Channel metricsOf key stableFor since' (same && decide (stableFor ≤ it.now - since')) (its ++ [it]) := by
  intro same since'
  have hsame : same = true ↔ its.reverse.head?.map (keyOf metricsOf key) = some (keyOf metricsOf key it) := same_iff hm
  have hrev : (its ++ [it]).reverse = it :: its.reverse := List.reverse_concat
  have hsince (older : Iteration) (ho : oldest (keyOf metricsOf key) (it :: its.reverse) = some older) :
      since' = older.now := by
    rw [oldest_cons] at ho
    by_cases hs : same = true
    · rw [if_pos (hsame.mp hs)] at ho
      rw [show since' = since from if_pos hs]
      refine h.since older ?_ ho
      obtain ⟨last, hlast, -⟩ := Option.any_eq_true _ _ |>.mp hs
      rw [hlast]
      rfl
    · rw [if_neg (fun hh => hs (hsame.mpr hh))] at ho
      rw [show since' = it.now from if_neg hs]
      cases ho
      rfl
  refine ⟨fun older _ ho => ?_, fun hstable => ?_⟩
  · rw [hrev] at ho
    exact hsince older ho
  · rw [Bool.and_eq_true, decide_eq_true_iff] at hstable
    obtain ⟨hs, hspan⟩ := hstable
    obtain ⟨older, ho, -⟩ := oldest_isSome (keyOf metricsOf key) (List.cons_ne_nil it its.reverse)
    refine ⟨it, older, List.getLast?_concat, by rw [hm]; rfl, by rw [hrev, ho], ?_, ?_⟩
    · rw [hrev]
      exact two_le_length_window _ (hsame.mp hs)
    · rw [← hsince older ho]
      exact hspan

/-- A turn that has measured nothing leaves a new tracker. -/
theorem Channel.reset (hnone : metricsOf it = none) (since : ℕ) :
    Channel metricsOf key stableFor since false (its ++ [it]) := by
  refine ⟨fun older hsome => ?_, fun h => by cases h⟩
  rw [List.getLast?_concat, Option.bind_some, hnone] at hsome
  cases hsome

theorem Follows.observe {tracker : StabilityTracker} (h : Follows metricsOf stableFor tracker its)
    (hm : metricsOf it = some m) : Follows metricsOf stableFor (tracker.observe m stableFor it.now) (its ++ [it]) where
  last := by
    rw [List.getLast?_concat, Option.bind_some, hm]
    rfl
  dom := by
    have hdom := h.dom.observe hm
    rw [← h.last] at hdom
    exact hdom
  text := by
    have htext := h.text.observe hm
    rw [← h.last] at htext
    exact htext

theorem Follows.reset (hnone : metricsOf it = none) (now : ℕ) :
    Follows metricsOf stableFor (.new now) (its ++ [it]) where
  last := by
    rw [List.getLast?_concat, Option.bind_some, hnone]
    rfl
  dom := Channel.reset hnone now
  text := Channel.reset hnone now

theorem Channel.start (since : ℕ) : Channel metricsOf key stableFor since false [] where
  since := fun _ h => by cases h
  stable := fun h => by cases h

theorem Follows.start (now : ℕ) : Follows metricsOf stableFor (.new now) [] where
  last := rfl
  dom := Channel.start now
  text := Channel.start now

end

/-! ## The loop -/

/-- The body metrics of a completed sample. -/
def bodyOf (it : Iteration) : Option PageMetrics :=
  match it.result with
  | .completed input _ => some input.body.page
  | .failed _ => none
  | .timedOut => none

/-- The target metrics of a completed, eligible sample. -/
def targetOf (cfg : WaitConfig) (it : Iteration) : Option PageMetrics :=
  match it.result with
  | .completed input _ =>
    let sample := takeSample cfg.assess input
    if sample.targetEligible then some sample.target else none
  | .failed _ => none
  | .timedOut => none

structure LoopFollows (cfg : WaitConfig) (its : List Iteration) (st : LoopState) : Prop where
  body : Follows bodyOf cfg.stableFor st.body its
  target : Follows (targetOf cfg) cfg.stableFor st.target its
  unsatisfied : st.outcome.waitSatisfiedBy = none

section
variable {cfg : WaitConfig} {its : List Iteration} {st : LoopState} {it : Iteration}

/-- The trackers that a completed sample leaves. -/
theorem follows_completed {input : SampleInput} {quiet : QuietInput} (h : LoopFollows cfg its st)
    (hres : it.result = .completed input quiet) :
    let sample := takeSample cfg.assess input
    Follows bodyOf cfg.stableFor (st.body.observe sample.body cfg.stableFor it.now) (its ++ [it]) ∧
      Follows (targetOf cfg) cfg.stableFor (nextTarget cfg it.now sample st) (its ++ [it]) := by
  intro sample
  have hbody : bodyOf it = some sample.body := by
    unfold bodyOf
    rw [hres]
    rfl
  have htarget : targetOf cfg it = if sample.targetEligible then some sample.target else none := by
    unfold targetOf
    rw [hres]
  refine ⟨h.body.observe hbody, ?_⟩
  unfold nextTarget
  split
  · next he =>
    rw [if_pos he] at htarget
    exact h.target.observe htarget
  · next he =>
    rw [if_neg he] at htarget
    exact Follows.reset htarget it.now

theorem forget_follows (h : LoopFollows cfg its st) (hbody : bodyOf it = none) (htarget : targetOf cfg it = none) :
    LoopFollows cfg (its ++ [it]) (forget it.now st) where
  body := Follows.reset hbody it.now
  target := Follows.reset htarget it.now
  unsatisfied := h.unsatisfied

theorem loopStep_follows {st' : LoopState} (h : LoopFollows cfg its st) (hstep : loopStep cfg st it = some st') :
    LoopFollows cfg (its ++ [it]) st' := by
  obtain ⟨-, ⟨input, quiet, hres, rfl⟩ | ⟨hres, rfl⟩⟩ := loopStep_cases hstep
  · obtain ⟨hbody, htarget⟩ := follows_completed h hres
    exact ⟨hbody, htarget, h.unsatisfied⟩
  · refine forget_follows h ?_ ?_
    · unfold bodyOf
      obtain hres | hres := hres <;> rw [hres]
    · unfold targetOf
      obtain hres | hres := hres <;> rw [hres]

/-- **The trackers after a run** are windows of the turns taken. -/
theorem loop_follows {start : ℕ} (hrun : Run.run (loopStep cfg) (.start cfg start) its = some st) :
    LoopFollows cfg its st := by
  refine Run.run_history (loopStep cfg) ⟨Follows.start start, Follows.start start, rfl⟩ ?_ hrun
  intro es s e s' _ h hstep
  exact loopStep_follows h hstep

/-! ## The last sample -/

/-- The last turns are completed, eligible samples of equal metrics, at least as long apart as the
window is. -/
def StableOver (cfg : WaitConfig) (its : List Iteration) : Prop :=
  ∃ before block first last, its = before ++ block ∧ 2 ≤ block.length ∧
    block.head? = some first ∧ block.getLast? = some last ∧ cfg.stableFor ≤ last.now - first.now ∧
    ∃ metrics, ∀ it ∈ block, targetOf cfg it = some metrics

theorem PageMetrics.eq_of_parts {m m' : PageMetrics} (hdom : m.dom = m'.dom) (htext : m.text = m'.text) : m = m' := by
  obtain ⟨_, _, _, _⟩ := m
  obtain ⟨_, _, _, _⟩ := m'
  cases hdom
  cases htext
  rfl

/-- A window of turns that have measured the same DOM and the same text. -/
theorem stableOver_of_window {w : List Iteration} {newest older : Iteration} {m : PageMetrics}
    (hpre : w <+: its.reverse) (hlen : 2 ≤ w.length) (hlast : its.getLast? = some newest)
    (holdest : w.getLast? = some older) (hspan : cfg.stableFor ≤ newest.now - older.now)
    (hnewest : targetOf cfg newest = some m)
    (hdom : ∀ it ∈ w, keyOf (targetOf cfg) PageMetrics.dom it = keyOf (targetOf cfg) PageMetrics.dom newest)
    (htext : ∀ it ∈ w, keyOf (targetOf cfg) PageMetrics.text it = keyOf (targetOf cfg) PageMetrics.text newest) :
    StableOver cfg its := by
  obtain ⟨rest, hrest⟩ := hpre
  have hits : its = rest.reverse ++ w.reverse := by
    rw [← List.reverse_append, hrest, List.reverse_reverse]
  have hne : w ≠ [] := by
    rintro rfl
    cases holdest
  have hhead : w.head? = some newest := by
    rw [← List.head?_reverse, ← hrest] at hlast
    cases w with
    | nil => exact absurd rfl hne
    | cons a w => exact hlast
  refine ⟨rest.reverse, w.reverse, older, newest, hits, by rw [List.length_reverse]; exact hlen, ?_, ?_, hspan, m, ?_⟩
  · rw [List.head?_reverse, holdest]
  · rw [List.getLast?_reverse, hhead]
  · intro it hit
    have hmem := List.mem_reverse.mp hit
    have hd := hdom it hmem
    have ht := htext it hmem
    unfold keyOf at hd ht
    rw [hnewest] at hd ht
    obtain ⟨m', hm', hdom'⟩ := Option.map_eq_some_iff.mp hd
    rw [hm', Option.map_some] at ht
    rw [hm', PageMetrics.eq_of_parts hdom' (Option.some.inj ht)]

theorem stableOver_of_stands (hdom : Stands (targetOf cfg) PageMetrics.dom cfg.stableFor its)
    (htext : Stands (targetOf cfg) PageMetrics.text cfg.stableFor its) : StableOver cfg its := by
  obtain ⟨newest, o₁, hlast, hsome, ho₁, hlen₁, hspan₁⟩ := hdom
  obtain ⟨newest', o₂, hlast', -, ho₂, hlen₂, hspan₂⟩ := htext
  rw [hlast] at hlast'
  cases hlast'
  obtain ⟨m, hm⟩ := Option.isSome_iff_exists.mp hsome
  let W₁ := window (keyOf (targetOf cfg) PageMetrics.dom) its.reverse
  let W₂ := window (keyOf (targetOf cfg) PageMetrics.text) its.reverse
  have hp₁ : W₁ <+: its.reverse := window_isPrefix _ _
  have hp₂ : W₂ <+: its.reverse := window_isPrefix _ _
  have hkey (key : PageMetrics → ℕ × ℕ) (it : Iteration) (hit : it ∈ window (keyOf (targetOf cfg) key) its.reverse) :
      keyOf (targetOf cfg) key it = keyOf (targetOf cfg) key newest := by
    rw [← List.head?_reverse] at hlast
    exact key_of_head? _ hlast hit
  obtain hle | hle := le_total W₁.length W₂.length
  · have hsub : W₁ <+: W₂ := List.prefix_of_prefix_length_le hp₁ hp₂ hle
    exact stableOver_of_window hp₁ hlen₁ hlast ho₁ hspan₁ hm (hkey _) fun it hit => hkey _ it (hsub.subset hit)
  · have hsub : W₂ <+: W₁ := List.prefix_of_prefix_length_le hp₂ hp₁ hle
    exact stableOver_of_window hp₂ hlen₂ hlast ho₂ hspan₂ hm (fun it hit => hkey _ it (hsub.subset hit)) (hkey _)

end

/-! ## A run -/

def Turn.satisfiedBy : Turn → Option String
  | .returned outcome => outcome.waitSatisfiedBy
  | .goOn _ => none
  | .invalidArgument => none

def sampleMetrics : Metrics := ⟨⟨4, 1, 3, 2⟩, true, true⟩

def sampleDocument : NetworkEntry :=
  { defaultEntry with requestId := "1", resourceType := "Document", frameId := some "F", loaderId := some "L", state := .finished }

/-- A page without frames, whose document has been loaded. -/
def sampleInput : SampleInput where
  root := ⟨"F", "https://example.com/", "L"⟩
  children := []
  body := sampleMetrics
  selected := sampleMetrics
  probe := ⟨fun _ => none, fun _ => none⟩
  network := ⟨[⟨sampleDocument, 1000, 1000⟩], true⟩

def sampleTurn (now : ℕ) : Iteration := ⟨now, .completed sampleInput ⟨[sampleDocument], 1000⟩, []⟩

def sampleWait : WaitConfig := ⟨.auto, 500, 50, 5000, fun parts => parts.length⟩

end Afhttp.Fetch

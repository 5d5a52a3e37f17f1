import Afhttp.Collect.TerminalStates
import Afhttp.Fetch.WaitReadiness

/-!
# The verdict on a sample

What a sample says of the page if it is eligible and quiet.

    the fuel of the frame walk suffices                                       (walkTree_succ)
    a frame of unknown scope, or a target frame without metrics, is unobserved   (walkFrames_ok)
    an eligible, quiet sample is of a page that is ready                    (pageReady_of_sample)
-/

namespace Afhttp.Fetch

open Collect

/-! ## The frames -/

def queueSize (queue : FrameQueue) : ℕ := (queue.map fun p => p.1.size).sum

theorem queueSize_children (children : List FrameTree) (scope : Option RequestScope) :
    queueSize (children.map fun child => (child, scope)) = sizes children := by
  unfold queueSize
  induction children with
  | nil => rfl
  | cons child children ih =>
    rw [List.map_cons, List.map_cons, List.sum_cons, ih]
    rfl

theorem queueSize_append (p q : FrameQueue) : queueSize (p ++ q) = queueSize p + queueSize q := by
  unfold queueSize
  rw [List.map_append, List.sum_append]

/-- **Fuel.**  As much fuel as there are frames is enough: more makes no difference. -/
theorem walkTree_succ (strict : Bool) (probe : Probe) {fuel : ℕ} {queue : FrameQueue} (h : queueSize queue ≤ fuel)
    (w : Walk) : walkTree strict probe (fuel + 1) queue w = walkTree strict probe fuel queue w := by
  induction fuel generalizing queue w with
  | zero =>
    cases queue with
    | nil => rfl
    | cons p queue =>
      obtain ⟨⟨frame, children⟩, scope⟩ := p
      unfold queueSize at h
      rw [List.map_cons, List.sum_cons, FrameTree.size] at h
      omega
  | succ fuel ih =>
    cases queue with
    | nil => rfl
    | cons p queue =>
      obtain ⟨⟨frame, children⟩, scope⟩ := p
      unfold queueSize at h
      rw [List.map_cons, List.sum_cons, FrameTree.size] at h
      have hrest : queueSize queue ≤ fuel := by
        unfold queueSize
        omega
      rw [walkTree, walkTree]
      split
      · exact ih hrest _
      · refine ih ?_ _
        rw [queueSize_append, queueSize_children]
        unfold queueSize
        omega

/-- What the walk keeps. -/
structure WalkOk (root : ScopedFrame) (w : Walk) : Prop where
  head : w.frames.head? = some root
  placed : ∀ f ∈ w.frames, f.scope ≠ .mainDocument
  noted : ∀ f ∈ w.frames, f.scope = .unknown ∨ (f.scope = .target ∧ f.metrics = none) → f.frame.id ∈ w.unobserved

section
variable {strict : Bool} {probe : Probe} {root : ScopedFrame} {w : Walk}

theorem frameScope_ne (strict : Bool) (owner : Option Bool) {parentScope : Option RequestScope} (h : parentScope ≠ some .mainDocument) :
    frameScope strict owner parentScope ≠ .mainDocument := by
  cases parentScope with
  | some scope => exact fun hs => h (by rw [← hs]; rfl)
  | none =>
    unfold frameScope
    cases strict with
    | true => exact nofun
    | false =>
      cases owner with
      | none => exact nofun
      | some b => cases b <;> exact nofun

theorem WalkOk.skip (h : WalkOk root w) (id : String) : WalkOk root { w with unobserved := w.unobserved ++ [id] } where
  head := h.head
  placed := h.placed
  noted := fun f hf hbad => List.mem_append_left _ (h.noted f hf hbad)

theorem WalkOk.addFrame (h : WalkOk root w) (frame : Frame) {parentScope : Option RequestScope}
    (hparent : parentScope ≠ some .mainDocument) : WalkOk root (addFrame strict probe frame parentScope w) where
  head := by
    show (w.frames ++ [_]).head? = some root
    rw [List.head?_append, h.head]
    rfl
  placed := by
    intro f hf
    obtain hf | hf := List.mem_append.mp hf
    · exact h.placed f hf
    · rw [List.mem_singleton] at hf
      subst hf
      exact frameScope_ne _ _ hparent
  noted := by
    intro f hf hbad
    have hkept (c : Prop) [Decidable c] (ids : List String) (hid : f.frame.id ∈ w.unobserved) :
        f.frame.id ∈ if c then w.unobserved ++ ids else w.unobserved := by
      split
      · exact List.mem_append_left _ hid
      · exact hid
    show f.frame.id ∈ if _ then _ else _
    obtain hf | hf := List.mem_append.mp hf
    · exact hkept _ _ (h.noted f hf hbad)
    · rw [List.mem_singleton] at hf
      subst hf
      rw [if_pos hbad]
      exact List.mem_append_right _ (List.mem_singleton_self _)

theorem WalkOk.walkTree (h : WalkOk root w) (fuel : ℕ) (queue : FrameQueue)
    (hqueue : ∀ p ∈ queue, p.2 ≠ some .mainDocument) : WalkOk root (walkTree strict probe fuel queue w) := by
  induction fuel generalizing queue w with
  | zero => exact h
  | succ fuel ih =>
    cases queue with
    | nil => exact h
    | cons p queue =>
      obtain ⟨⟨frame, children⟩, parentScope⟩ := p
      have hparent : parentScope ≠ some .mainDocument := hqueue _ List.mem_cons_self
      have hrest : ∀ p ∈ queue, p.2 ≠ some .mainDocument := fun p hp => hqueue p (List.mem_cons_of_mem _ hp)
      rw [Fetch.walkTree]
      split
      · exact ih (h.skip frame.id) queue hrest
      · refine ih (h.addFrame frame hparent) _ fun p hp => ?_
        obtain hp | hp := List.mem_append.mp hp
        · exact hrest p hp
        · obtain ⟨child, -, rfl⟩ := List.mem_map.mp hp
          exact fun hs => frameScope_ne strict _ hparent (Option.some.inj hs)

theorem WalkOk.addRequestFrame (h : WalkOk root w) (r : ObservedRequest) :
    WalkOk root (addRequestFrame strict probe w r) := by
  unfold Fetch.addRequestFrame
  split
  · exact h
  · split
    · exact h
    · split
      · exact h.skip _
      · exact h.addFrame _ nofun

end

/-- **The frames of a sample**: the root first, and each one not seen is noted. -/
theorem walkFrames_ok (strict : Bool) (probe : Probe) (root : Frame) (children : List FrameTree) (selected : Metrics)
    (requests : List ObservedRequest) :
    WalkOk ⟨root, .target, some selected⟩ (walkFrames strict probe root children selected requests) := by
  have hstart : WalkOk ⟨root, .target, some selected⟩ ⟨[⟨root, .target, some selected⟩], []⟩ := by
    refine ⟨rfl, fun f hf => ?_, fun f hf hbad => ?_⟩
    · rw [List.mem_singleton] at hf
      subst hf
      exact nofun
    · rw [List.mem_singleton] at hf
      subst hf
      rcases hbad with hbad | hbad
      · cases hbad
      · cases hbad.2
  have htree : WalkOk _ (walkTree strict probe (sizes children) (children.map fun child => (child, none)) _) :=
    hstart.walkTree _ _ fun p hp => by
      obtain ⟨child, -, rfl⟩ := List.mem_map.mp hp
      exact nofun
  unfold walkFrames
  dsimp only
  induction requests using List.reverseRecOn with
  | nil => exact htree
  | append_singleton rs r ih =>
    rw [List.foldl_append, List.foldl_cons, List.foldl_nil]
    exact ih.addRequestFrame r

def SampleInput.frames (input : SampleInput) (strict : Bool) : List ScopedFrame := (input.walk strict).frames

/-- The frames of a sample, as the verdict gets them. -/
theorem frames_eq (input : SampleInput) (strict : Bool) :
    input.frames strict = ⟨input.root, .target, some input.selected⟩ :: (input.walk strict).frames.tail := by
  have hok : WalkOk ⟨input.root, .target, some input.selected⟩ (input.walk strict) := walkFrames_ok ..
  have hhead := hok.head
  show (input.walk strict).frames = _
  cases hf : (input.walk strict).frames with
  | nil =>
    rw [hf] at hhead
    cases hhead
  | cons f fs =>
    rw [hf] at hhead
    cases hhead
    rfl

/-! ## The verdict -/

/-- What a page is that is ready. -/
structure PageReady (cfg : WaitConfig) (input : SampleInput) : Prop where
  /-- No event lost, nothing left out. -/
  complete : input.network.complete = true
  observed : (input.walk cfg.wait.strict).unobserved = []
  /-- Every frame is in the target region or outside it. -/
  placed : ∀ f ∈ input.frames cfg.wait.strict, f.scope = .target ∨ f.scope = .ancillary
  document : ∃ r ∈ input.network.requests, r.entry.resourceType = "Document" ∧ r.entry.frameId = some input.root.id ∧
    r.entry.loaderId = some input.root.loaderId ∧ r.entry.isRedirectHop = false ∧ r.entry.state = .finished
  /-- A Document that has failed is of an ancillary frame, or of a loader that its frame has no more. -/
  notFailed : ∀ r ∈ input.network.requests, r.entry.resourceType = "Document" → r.entry.state = .failed →
    ∃ f, requestFrame (input.frames cfg.wait.strict) r.entry = some f ∧
      (f.scope = .ancillary ∨ r.entry.loaderId ≠ some f.frame.loaderId)
  /-- Where frame ids are distinct: no Document of a target frame's loader has failed. -/
  targetLoaders : ((input.frames cfg.wait.strict).map (·.frame.id)).Nodup →
    ∀ f ∈ input.frames cfg.wait.strict, f.scope = .target → ∀ r ∈ input.network.requests,
      r.entry.resourceType = "Document" → r.entry.frameId = some f.frame.id →
      r.entry.loaderId = some f.frame.loaderId → r.entry.state ≠ .failed
  measured : ∀ f ∈ input.frames cfg.wait.strict, f.scope = .target →
    ∃ m, f.metrics = some m ∧ m.documentReady = true ∧ (cfg.wait.strict = false → m.eligible = true)
  someText : cfg.wait.strict = false →
    0 < (combineMetrics cfg.combineHash (targetFrames (input.frames cfg.wait.strict))).textLen
  /-- An unfinished request is of an ancillary frame. -/
  finished : ∀ r ∈ input.network.requests, r.entry.state.unfinished = true →
    ∃ f, requestFrame (input.frames cfg.wait.strict) r.entry = some f ∧ f.scope = .ancillary

theorem speaksForMain_iff {root : Frame} {frames : List ScopedFrame} {entry : NetworkEntry}
    (hplaced : ∀ f ∈ frames, f.scope ≠ .mainDocument) :
    speaksForMain root frames entry = true ↔ entry.resourceType = "Document" ∧ entry.frameId = some root.id ∧
      entry.loaderId = some root.loaderId ∧ entry.isRedirectHop = false := by
  unfold speaksForMain requestScope
  rw [Bool.and_eq_true, Bool.and_eq_true, beq_iff_eq, beq_iff_eq, Bool.not_eq_true']
  split
  · next hmain =>
    rw [Bool.and_eq_true, beq_iff_eq, beq_iff_eq] at hmain
    simp [hmain.1, hmain.2]
  · next hother =>
    rw [Bool.and_eq_true, beq_iff_eq, beq_iff_eq] at hother
    constructor
    · rintro ⟨⟨hscope, -⟩, -⟩
      cases hf : requestFrame frames entry with
      | none =>
        rw [hf] at hscope
        cases hscope
      | some f =>
        rw [hf] at hscope
        have hmem : f ∈ frames := by
          unfold requestFrame at hf
          obtain ⟨id, -, hfind⟩ := Option.bind_eq_some_iff.mp hf
          exact List.mem_reverse.mp (List.mem_of_find?_eq_some hfind)
        exact absurd hscope (hplaced f hmem)
    · rintro ⟨hdoc, hframe, -⟩
      exact absurd ⟨hdoc, hframe⟩ hother

theorem scope_of_ancillary {root : Frame} {frames : List ScopedFrame} {entry : NetworkEntry}
    (h : requestScope root frames entry = .ancillary) :
    ∃ f, requestFrame frames entry = some f ∧ f.scope = .ancillary := by
  unfold requestScope at h
  split at h
  · cases h
  · cases hf : requestFrame frames entry with
    | none =>
      rw [hf] at h
      cases h
    | some f =>
      rw [hf] at h
      exact ⟨f, rfl, h⟩

/-- Of frames with distinct ids, an id names the one that has it. -/
theorem frameOf_of_nodup {frames : List ScopedFrame} (h : (frames.map (·.frame.id)).Nodup) {f : ScopedFrame}
    (hf : f ∈ frames) : frameOf frames f.frame.id = some f := by
  unfold frameOf
  cases hfind : frames.reverse.find? fun g => g.frame.id == f.frame.id with
  | none =>
    have hno := List.find?_eq_none.mp hfind f (List.mem_reverse.mpr hf)
    exact absurd (beq_self_eq_true _) hno
  | some g =>
    have hg : g ∈ frames := List.mem_reverse.mp (List.mem_of_find?_eq_some hfind)
    have hid : g.frame.id = f.frame.id := by simpa using List.find?_some hfind
    rw [List.inj_on_of_nodup_map h hg hf hid]

theorem assess_spec {cfg : AssessConfig} {root : ScopedFrame} {rest : List ScopedFrame} {network : ReadinessNetwork}
    {body : PageMetrics} {unobserved : List String}
    (h : (assess cfg root rest network body unobserved).targetEligible = true) :
    network.complete = true ∧ unobserved = [] ∧
      (∃ r ∈ network.requests, speaksForMain root.frame (root :: rest) r.entry = true ∧ r.entry.state = .finished) ∧
      (∀ r ∈ network.requests, failedRequired (root :: rest) r.entry = false) ∧
      (∀ f ∈ targetFrames (root :: rest), frameReady cfg.strict f = true) ∧
      (cfg.strict = false → 0 < (combineMetrics cfg.combineHash (targetFrames (root :: rest))).textLen) := by
  unfold assess at h
  dsimp only at h
  simp only [Bool.and_eq_true, Bool.or_eq_true, Bool.not_eq_true', decide_eq_true_iff, beq_iff_eq,
    List.isEmpty_iff, List.all_eq_true, List.any_eq_false, Bool.not_eq_true] at h
  obtain ⟨⟨⟨⟨⟨hcomplete, hunobserved⟩, hfailed⟩, hmain⟩, hready⟩, htext⟩ := h
  refine ⟨hcomplete, hunobserved, ?_, hfailed, hready, fun hs => htext.resolve_left (by rw [hs]; exact Bool.false_ne_true)⟩
  rw [tally_main] at hmain
  cases hlast : (network.requests.filter fun r => speaksForMain root.frame (root :: rest) r.entry).getLast? with
  | none =>
    rw [hlast] at hmain
    cases hmain
  | some r =>
    rw [hlast] at hmain
    obtain ⟨hmem, hspeaks⟩ := List.mem_filter.mp (List.mem_of_getLast? hlast)
    refine ⟨r, hmem, hspeaks, ?_⟩
    change (if r.entry.state == .finished then ReadinessState.ready else .incomplete) = .ready at hmain
    split at hmain
    · next hstate => exact beq_iff_eq.mp hstate
    · cases hmain

theorem assess_quiet {cfg : AssessConfig} {root : ScopedFrame} {rest : List ScopedFrame} {network : ReadinessNetwork}
    {body : PageMetrics} {unobserved : List String}
    (h : (assess cfg root rest network body unobserved).targetNetworkQuiet = true) :
    ∀ r ∈ network.requests, disturbs cfg.idleFor root.frame (root :: rest) r = false := by
  unfold assess at h
  dsimp only at h
  rw [tally_quiet, Bool.and_eq_true, List.all_eq_true] at h
  intro r hr
  exact (Bool.not_eq_true' _).mp (h.2 r hr)

/-- **An eligible sample of a quiet target** is of a page that is ready. -/
theorem pageReady_of_sample {cfg : WaitConfig} {input : SampleInput}
    (heligible : (takeSample cfg.assess input).targetEligible = true)
    (hquiet : (takeSample cfg.assess input).targetNetworkQuiet = true) : PageReady cfg input := by
  have hframes := frames_eq input cfg.wait.strict
  have hok : WalkOk ⟨input.root, .target, some input.selected⟩ (input.walk cfg.wait.strict) := walkFrames_ok ..
  obtain ⟨hcomplete, hunobserved, ⟨main, hmain, hspeaks, hstate⟩, hfailed, hready, htext⟩ := assess_spec heligible
  have hquiet := assess_quiet hquiet
  change ∀ r ∈ input.network.requests, disturbs cfg.idleFor input.root (_ :: (input.walk cfg.wait.strict).frames.tail) r = false at hquiet
  change (input.walk cfg.wait.strict).unobserved = [] at hunobserved
  change speaksForMain input.root (_ :: (input.walk cfg.wait.strict).frames.tail) main.entry = true at hspeaks
  change ∀ r ∈ input.network.requests, failedRequired (_ :: (input.walk cfg.wait.strict).frames.tail) r.entry = false at hfailed
  change ∀ f ∈ targetFrames (_ :: (input.walk cfg.wait.strict).frames.tail), frameReady cfg.wait.strict f = true at hready
  change cfg.wait.strict = false → 0 < (combineMetrics cfg.combineHash
    (targetFrames (_ :: (input.walk cfg.wait.strict).frames.tail))).textLen at htext
  rw [← hframes] at hquiet hspeaks hfailed hready htext
  have hnotFailed (r : ObservedRequest) (hr : r ∈ input.network.requests) (hdoc : r.entry.resourceType = "Document")
      (hfail : r.entry.state = .failed) : ∃ f, requestFrame (input.frames cfg.wait.strict) r.entry = some f ∧
        (f.scope = .ancillary ∨ r.entry.loaderId ≠ some f.frame.loaderId) := by
    have hnot := hfailed r hr
    unfold failedRequired at hnot
    rw [hdoc, hfail] at hnot
    cases hf : requestFrame (input.frames cfg.wait.strict) r.entry with
    | none =>
      rw [hf] at hnot
      cases hnot
    | some f =>
      refine ⟨f, rfl, ?_⟩
      rw [hf] at hnot
      by_contra hboth
      push Not at hboth
      simp [hboth.1, hboth.2] at hnot
  refine ⟨hcomplete, hunobserved, ?_, ?_, hnotFailed, ?_, ?_, htext, ?_⟩
  · intro f hf
    have hnoted := hok.noted f hf
    have hplaced := hok.placed f hf
    rw [hunobserved] at hnoted
    cases hs : f.scope with
    | mainDocument => exact absurd hs hplaced
    | target => exact .inl rfl
    | ancillary => exact .inr rfl
    | unknown => exact absurd (hnoted (.inl hs)) List.not_mem_nil
  · obtain ⟨hdoc, hframe, hloader, hhop⟩ := (speaksForMain_iff hok.placed).mp hspeaks
    exact ⟨main, hmain, hdoc, hframe, hloader, hhop, hstate⟩
  · intro hnodup f hf hs r hr hdoc hframe hloader hfail
    obtain ⟨g, hg, hbad⟩ := hnotFailed r hr hdoc hfail
    unfold requestFrame at hg
    rw [hframe, Option.bind_some, frameOf_of_nodup hnodup hf] at hg
    cases hg
    rcases hbad with hbad | hbad
    · rw [hs] at hbad
      cases hbad
    · exact hbad hloader
  · intro f hf hs
    have hr := hready f (List.mem_filter.mpr ⟨hf, beq_iff_eq.mpr hs⟩)
    unfold frameReady at hr
    obtain ⟨m, hm, hmready⟩ := Option.any_eq_true _ _ |>.mp hr
    rw [Bool.and_eq_true, Bool.or_eq_true] at hmready
    exact ⟨m, hm, hmready.1, fun hs => hmready.2.resolve_left (by rw [hs]; exact Bool.false_ne_true)⟩
  · intro r hr hunfinished
    have hnot := hquiet r hr
    unfold disturbs at hnot
    rw [hunfinished, Bool.true_or, Bool.and_true, bne_eq_false_iff_eq] at hnot
    exact scope_of_ancillary hnot

/-- A quiet network has no request in flight. -/
theorem quiet_spec {quiet : QuietInput} {idle : ℕ} (h : quiet.quiet idle = true) :
    ∀ e ∈ quiet.entries, e.state.unfinished = false := by
  unfold QuietInput.quiet QuietInput.inflightTotal at h
  rw [inflightTotal_pending, Bool.and_eq_true, beq_iff_eq, List.countP_eq_zero] at h
  intro e he
  exact Bool.eq_false_of_not_eq_true (h.1 e he)

end Afhttp.Fetch

import Afhttp.Collect.MainDocument
import Afhttp.Fetch.ReadinessVerdict

/-!
# Whether the order of the map shows

A pass over the slots of the collector meets them in the order of a hash map, which is any
rearrangement of the ids.  The log is sorted and the verdict is mostly a fold of conditions, but the
choice of the main document breaks ties by the order, and the last live Document decides what the
verdict says of the main document.

    the log of two passes is the same                                                  (finish_perm)
    the choice is the same if no two of the latest root-frame Documents tie            (pickId_perm)
    the verdict is the same if the Documents of a loader agree                         (assess_perm)
    for every sequence of events: exactly then                                   (order_hidden_iff)
    two Documents of one millisecond                                          (tied_documents_show)
-/

namespace Afhttp.Fetch

open Collect

/-! ## The passes -/

def observe (now : ℕ) (slot : NetworkSlot) : ObservedRequest := ⟨slot.entry, now - slot.startedAt, now - slot.updatedAt⟩

/-- `readiness_snapshot`, which selects the main document first. -/
def readinessSnapshot (mainFrameId : String) (now : ℕ) (order : List String) (inner : NetworkInner) :
    NetworkInner × ReadinessNetwork :=
  let inner := selectMainDocument (inner.values order) mainFrameId inner
  (inner, ⟨(inner.values order).map (observe now), inner.eventsDropped == 0 && !inner.truncated⟩)

/-- An order in which a pass may meet the slots. -/
def IsOrder (inner : NetworkInner) (order : List String) : Prop := order.Perm inner.slots.keys

instance (inner : NetworkInner) (order : List String) : Decidable (IsOrder inner order) :=
  inferInstanceAs (Decidable (order.Perm inner.slots.keys))

/-- Every pass over the one, in any order, finds what every pass over the other finds.  The frames are
placed as the sampler does it: none has the main document for its scope. -/
structure SameResults (inner inner' : NetworkInner) : Prop where
  main : ∀ frame σ τ, IsOrder inner σ → IsOrder inner' τ →
    (selectMainDocument (inner.values σ) frame inner).mainRequestId =
      (selectMainDocument (inner'.values τ) frame inner').mainRequestId
  assessed : ∀ cfg root rest body unobserved now σ τ, (∀ f ∈ root :: rest, f.scope ≠ .mainDocument) →
    IsOrder inner σ → IsOrder inner' τ →
    assess cfg root rest (readinessSnapshot root.frame.id now σ inner).2 body unobserved =
      assess cfg root rest (readinessSnapshot root.frame.id now τ inner').2 body unobserved
  log : ∀ redacted σ τ, IsOrder inner σ → IsOrder inner' τ →
    inner.finish (inner.values σ) redacted = inner'.finish (inner'.values τ) redacted

/-- Of the root-frame Documents that started last there is one. -/
def Untied (t : RequestTable) : Prop :=
  ∀ frame a b x y, t.entry a = some x → t.entry b = some y →
    rootDocument frame x = true → rootDocument frame y = true →
    (∀ c z, t.entry c = some z → rootDocument frame z = true →
      z.timing.startMonotonicMs ≤ x.timing.startMonotonicMs ∧ z.timing.startMonotonicMs ≤ y.timing.startMonotonicMs) →
    a = b

/-- Of the live Documents of a frame's loader all are finished, or none is. -/
def Agreed (t : RequestTable) : Prop :=
  ∀ frame a b x y loader, t.entry a = some x → t.entry b = some y →
    rootDocument frame x = true → rootDocument frame y = true → x.loaderId = some loader → y.loaderId = some loader →
    mainState x = mainState y

section
variable {inner : NetworkInner} {σ τ : List String}

theorem IsOrder.mem {k : String} (h : IsOrder inner σ) (hk : (inner.entry k).isSome) : k ∈ σ :=
  h.mem_iff.mpr (mem_keys_of_entry hk)

theorem isOrder_last {k : String} (hk : (inner.entry k).isSome) : IsOrder inner (inner.slots.keys.erase k ++ [k]) :=
  erase_concat_perm (mem_keys_of_entry hk)

theorem values_perm (hσ : IsOrder inner σ) (hτ : IsOrder inner τ) : (inner.values σ).Perm (inner.values τ) :=
  (hσ.trans hτ.symm).filterMap _

theorem select_values (frame : String) (values : List NetworkSlot) (order : List String) :
    (selectMainDocument values frame inner).values order = inner.values order := by
  unfold selectMainDocument
  split <;> rfl

/-- No two slots have one id. -/
theorem slot_of_requestId (hkeyed : Keyed inner.table) {slot slot' : NetworkSlot} (h : slot ∈ inner.values σ)
    (h' : slot' ∈ inner.values σ) (hid : slot.entry.requestId = slot'.entry.requestId) : slot = slot' := by
  have hkey (s : NetworkSlot) (hs : s ∈ inner.values σ) : inner.slots[s.entry.requestId]? = some s := by
    obtain ⟨k, -, hk⟩ := mem_values.mp hs
    have hentry : inner.table.entry k = some s.entry := by
      show inner.entry k = some s.entry
      unfold NetworkInner.entry
      rw [hk, Option.map_some]
    rw [hkeyed k s.entry hentry, hk]
  have hs := hkey slot h
  rw [hid] at hs
  exact Option.some.inj (hs.symm.trans (hkey slot' h'))

/-! ## The log -/

theorem finish_perm (hkeyed : Keyed inner.table) (hσ : IsOrder inner σ) (hτ : IsOrder inner τ) (redacted : Bool) :
    inner.finish (inner.values σ) redacted = inner.finish (inner.values τ) redacted := by
  let le : NetworkEntry → NetworkEntry → Bool := fun a b => decide (a.requestId ≤ b.requestId)
  have hsort : ((inner.values σ).map NetworkSlot.entry).mergeSort le = ((inner.values τ).map NetworkSlot.entry).mergeSort le := by
    refine mergeSort_eq_of_perm ?_ ?_ ((values_perm hσ hτ).map _) ?_
    · intro a b c hab hbc
      exact decide_eq_true ((of_decide_eq_true hab).trans (of_decide_eq_true hbc))
    · intro a b
      rw [Bool.or_eq_true, decide_eq_true_iff, decide_eq_true_iff]
      exact le_total a.requestId b.requestId
    · intro a ha b hb hab hba
      obtain ⟨slot, hslot, rfl⟩ := List.mem_map.mp ha
      obtain ⟨slot', hslot', rfl⟩ := List.mem_map.mp hb
      have hid := le_antisymm (of_decide_eq_true hab) (of_decide_eq_true hba)
      rw [slot_of_requestId hkeyed hslot hslot' hid]
  unfold NetworkInner.finish
  dsimp only
  rw [hsort]

/-! ## The choice -/

/-- A pass that meets one of the latest root-frame Documents last picks it. -/
theorem pickId_last {t : RequestTable} {frame k : String} {x : NetworkEntry} (order : List String)
    (hx : t.entry k = some x) (hroot : rootDocument frame x = true)
    (hlatest : ∀ c z, t.entry c = some z → rootDocument frame z = true →
      z.timing.startMonotonicMs ≤ x.timing.startMonotonicMs) :
    pickId frame (order ++ [k]) t = some x.requestId := by
  have hmark : (t.entry k).bind (documentMark frame) = some (x.timing.startMonotonicMs, x.requestId) := by
    rw [hx]
    exact documentMark_eq_some.mpr ⟨hroot, rfl, rfl⟩
  unfold pickId
  rw [List.filterMap_append, List.filterMap_cons, hmark, List.filterMap_nil, maxByKey_concat]
  cases hmax : maxByKey Prod.fst (order.filterMap fun id => (t.entry id).bind (documentMark frame)) with
  | none => rfl
  | some best =>
    obtain ⟨c, -, hc⟩ := List.mem_filterMap.mp (maxByKey_mem hmax)
    obtain ⟨z, hz, hbest⟩ := Option.bind_eq_some_iff.mp hc
    obtain ⟨hzroot, hstart, -⟩ := documentMark_eq_some.mp (show documentMark frame z = some (best.1, best.2) from hbest)
    have hle : best.1 ≤ x.timing.startMonotonicMs := hstart ▸ hlatest c z hz hzroot
    rw [Option.elim_some, if_pos hle]
    rfl

theorem pickId_perm (huntied : Untied inner.table) (frame : String) (hσ : IsOrder inner σ) (hτ : IsOrder inner τ) :
    pickId frame σ inner.table = pickId frame τ inner.table := by
  have hmem {k : String} : k ∈ σ ↔ k ∈ τ := (hσ.trans hτ.symm).mem_iff
  cases hpick : pickId frame σ inner.table with
  | none =>
    have hnone := pickId_eq_none.mp hpick
    exact (pickId_eq_none.mpr fun k hk => hnone k (hmem.mpr hk)).symm
  | some id =>
    cases hpick' : pickId frame τ inner.table with
    | none =>
      have hnone := pickId_eq_none.mp hpick'
      rw [pickId_eq_none.mpr fun k hk => hnone k (hmem.mp hk)] at hpick
      cases hpick
    | some id' =>
      obtain ⟨a, -, start, hmark, hmax⟩ := pickId_mem hpick
      obtain ⟨b, -, start', hmark', hmax'⟩ := pickId_mem hpick'
      obtain ⟨x, hx, hxm⟩ := Option.bind_eq_some_iff.mp hmark
      obtain ⟨y, hy, hym⟩ := Option.bind_eq_some_iff.mp hmark'
      obtain ⟨hxroot, rfl, rfl⟩ := documentMark_eq_some.mp hxm
      obtain ⟨hyroot, rfl, rfl⟩ := documentMark_eq_some.mp hym
      have hab : a = b := by
        refine huntied frame a b x y hx hy hxroot hyroot fun c z hz hzroot => ?_
        have hin : c ∈ σ := hσ.mem (Option.isSome_iff_exists.mpr ⟨z, hz⟩)
        have hzm : (inner.table.entry c).bind (documentMark frame) = some (z.timing.startMonotonicMs, z.requestId) := by
          rw [hz]
          exact documentMark_eq_some.mpr ⟨hzroot, rfl, rfl⟩
        exact ⟨hmax c hin _ _ hzm, hmax' c (hmem.mp hin) _ _ hzm⟩
      subst hab
      rw [hx] at hy
      rw [Option.some.inj hy]

theorem select_perm (huntied : Untied inner.table) (frame : String) (hσ : IsOrder inner σ) (hτ : IsOrder inner τ) :
    selectMainDocument (inner.values σ) frame inner = selectMainDocument (inner.values τ) frame inner := by
  rw [selectMainDocument_eq, selectMainDocument_eq, pickId_perm huntied frame hσ hτ]

theorem untied_of_main (hkeyed : Keyed inner.table)
    (h : ∀ frame σ τ, IsOrder inner σ → IsOrder inner τ →
      (selectMainDocument (inner.values σ) frame inner).mainRequestId =
        (selectMainDocument (inner.values τ) frame inner).mainRequestId) : Untied inner.table := by
  intro frame a b x y hx hy hxroot hyroot hlatest
  have hsome := h frame _ _ (isOrder_last (Option.isSome_iff_exists.mpr ⟨x, hx⟩))
    (isOrder_last (Option.isSome_iff_exists.mpr ⟨y, hy⟩))
  rw [selectMainDocument_eq, selectMainDocument_eq,
    pickId_last _ hx hxroot fun c z hz hzroot => (hlatest c z hz hzroot).1,
    pickId_last _ hy hyroot fun c z hz hzroot => (hlatest c z hz hzroot).2] at hsome
  have hid : x.requestId = y.requestId := Option.some.inj hsome
  rw [← hkeyed a x hx, ← hkeyed b y hy, hid]

/-! ## The verdict -/

theorem pendingLe_iff {a b : PendingRequest} : pendingLe a b = true ↔
    (a.blocksWait = b.blocksWait ∧ a.requestId ≤ b.requestId) ∨ (a.blocksWait = true ∧ b.blocksWait = false) := by
  unfold pendingLe
  cases a.blocksWait <;> cases b.blocksWait <;> simp

theorem pendingLe_trans (a b c : PendingRequest) (hab : pendingLe a b = true) (hbc : pendingLe b c = true) :
    pendingLe a c = true := by
  rw [pendingLe_iff] at hab hbc ⊢
  obtain ⟨hb, hle⟩ | ⟨ha, hb⟩ := hab
  · obtain ⟨hc, hle'⟩ | ⟨hb', hc⟩ := hbc
    · exact .inl ⟨hb.trans hc, hle.trans hle'⟩
    · exact .inr ⟨hb.trans hb', hc⟩
  · obtain ⟨hc, -⟩ | ⟨hb', -⟩ := hbc
    · exact .inr ⟨ha, hc.symm.trans hb⟩
    · rw [hb] at hb'
      cases hb'

theorem pendingLe_total (a b : PendingRequest) : (pendingLe a b || pendingLe b a) = true := by
  rw [Bool.or_eq_true, pendingLe_iff, pendingLe_iff]
  cases a.blocksWait <;> cases b.blocksWait <;> simp [le_total]

theorem requestId_of_pendingLe {a b : PendingRequest} (hab : pendingLe a b = true) (hba : pendingLe b a = true) :
    a.requestId = b.requestId := by
  rw [pendingLe_iff] at hab hba
  obtain ⟨hb, hle⟩ | ⟨ha, hb⟩ := hab
  · obtain ⟨-, hle'⟩ | ⟨hb', ha⟩ := hba
    · exact le_antisymm hle hle'
    · rw [hb', ha] at hb
      cases hb
  · obtain ⟨hba, -⟩ | ⟨hb', -⟩ := hba
    · rw [ha, hb] at hba
      cases hba
    · rw [hb] at hb'
      cases hb'

theorem snapshot_network (frame : String) (now : ℕ) : (readinessSnapshot frame now σ inner).2 =
    ⟨(inner.values σ).map (observe now), inner.eventsDropped == 0 && !inner.truncated⟩ := by
  unfold readinessSnapshot
  dsimp only
  rw [select_values, selectMainDocument_eq]

theorem speaksForMain_iff_root {root : Frame} {frames : List ScopedFrame} {entry : NetworkEntry}
    (hplaced : ∀ f ∈ frames, f.scope ≠ .mainDocument) :
    speaksForMain root frames entry = true ↔ rootDocument root.id entry = true ∧ entry.loaderId = some root.loaderId := by
  unfold rootDocument
  rw [speaksForMain_iff hplaced, Bool.and_eq_true, Bool.and_eq_true, beq_iff_eq, beq_iff_eq, Bool.not_eq_true']
  constructor
  · rintro ⟨hdoc, hframe, hloader, hlive⟩
    exact ⟨⟨⟨hdoc, hframe⟩, hlive⟩, hloader⟩
  · rintro ⟨⟨⟨hdoc, hframe⟩, hlive⟩, hloader⟩
    exact ⟨hdoc, hframe, hloader, hlive⟩

theorem entry_of_mem {now : ℕ} {r : ObservedRequest} (h : r ∈ (inner.values σ).map (observe now)) :
    ∃ k, inner.table.entry k = some r.entry := by
  obtain ⟨slot, hslot, rfl⟩ := List.mem_map.mp h
  obtain ⟨k, -, hk⟩ := mem_values.mp hslot
  refine ⟨k, ?_⟩
  show inner.entry k = some slot.entry
  unfold NetworkInner.entry
  rw [hk, Option.map_some]

section
variable (strict : Bool) (idleFor now : ℕ) (root : Frame) (frames : List ScopedFrame) (t : Tally)

/-- What the pass finds of the main document. -/
theorem main_perm (hagreed : Agreed inner.table) (hplaced : ∀ f ∈ frames, f.scope ≠ .mainDocument)
    (hσ : IsOrder inner σ) (hτ : IsOrder inner τ) :
    (((inner.values σ).map (observe now)).foldl (tallyRequest strict idleFor root frames) t).mainDocument =
      (((inner.values τ).map (observe now)).foldl (tallyRequest strict idleFor root frames) t).mainDocument := by
  rw [tally_main, tally_main]
  refine getLast_elim_perm (((values_perm hσ hτ).map _).filter _) _ _ fun r hr r' hr' => ?_
  obtain ⟨hmem, hspeaks⟩ := List.mem_filter.mp hr
  obtain ⟨hmem', hspeaks'⟩ := List.mem_filter.mp hr'
  obtain ⟨a, ha⟩ := entry_of_mem hmem
  obtain ⟨b, hb⟩ := entry_of_mem hmem'
  obtain ⟨hroot, hloader⟩ := (speaksForMain_iff_root hplaced).mp hspeaks
  obtain ⟨hroot', hloader'⟩ := (speaksForMain_iff_root hplaced).mp hspeaks'
  exact hagreed root.id a b r.entry r'.entry root.loaderId ha hb hroot hroot' hloader hloader'

/-- The pending requests, sorted: no two have one id. -/
theorem pending_perm (hkeyed : Keyed inner.table) (hnone : t.pending = []) (hσ : IsOrder inner σ) (hτ : IsOrder inner τ) :
    (((inner.values σ).map (observe now)).foldl (tallyRequest strict idleFor root frames) t).pending.mergeSort pendingLe =
      (((inner.values τ).map (observe now)).foldl (tallyRequest strict idleFor root frames) t).pending.mergeSort pendingLe := by
  rw [tally_pending, tally_pending, hnone, List.nil_append, List.nil_append]
  refine mergeSort_eq_of_perm pendingLe_trans pendingLe_total ((((values_perm hσ hτ).map _).filter _).map _) ?_
  intro a ha b hb hab hba
  obtain ⟨r, hr, rfl⟩ := List.mem_map.mp ha
  obtain ⟨r', hr', rfl⟩ := List.mem_map.mp hb
  obtain ⟨slot, hslot, rfl⟩ := List.mem_map.mp (List.mem_filter.mp hr).1
  obtain ⟨slot', hslot', rfl⟩ := List.mem_map.mp (List.mem_filter.mp hr').1
  have hid : slot.entry.requestId = slot'.entry.requestId := requestId_of_pendingLe hab hba
  rw [slot_of_requestId hkeyed hslot hslot' hid]

end

theorem assess_perm (hkeyed : Keyed inner.table) (hagreed : Agreed inner.table) (cfg : AssessConfig)
    {root : ScopedFrame} {rest : List ScopedFrame} (body : PageMetrics) (unobserved : List String) (now : ℕ)
    (hplaced : ∀ f ∈ root :: rest, f.scope ≠ .mainDocument) (hσ : IsOrder inner σ) (hτ : IsOrder inner τ) :
    assess cfg root rest (readinessSnapshot root.frame.id now σ inner).2 body unobserved =
      assess cfg root rest (readinessSnapshot root.frame.id now τ inner).2 body unobserved := by
  have hperm : ((inner.values σ).map (observe now)).Perm ((inner.values τ).map (observe now)) :=
    (values_perm hσ hτ).map _
  rw [snapshot_network, snapshot_network]
  unfold assess
  dsimp only
  rw [main_perm cfg.strict cfg.idleFor now root.frame (root :: rest) _ hagreed hplaced hσ hτ,
    pending_perm cfg.strict cfg.idleFor now root.frame (root :: rest) _ hkeyed rfl hσ hτ, hperm.any_eq,
    tally_quiet, tally_quiet, hperm.all_eq, tally_required, tally_required, hperm.any_eq,
    tally_ancillary, tally_ancillary, hperm.all_eq]

/-- A pass that meets a live Document of the root's loader last takes the main document to be as it is. -/
theorem assess_last (cfg : AssessConfig) {frame loader k : String} {x : NetworkEntry} (now : ℕ)
    (hx : inner.entry k = some x) (hroot : rootDocument frame x = true) (hloader : x.loaderId = some loader)
    (order : List String) :
    (assess cfg ⟨⟨frame, "", loader⟩, .target, none⟩ [] (readinessSnapshot frame now (order ++ [k]) inner).2
      ⟨0, 0, 0, 0⟩ []).readiness.mainDocument = mainState x := by
  obtain ⟨slot, hslot, rfl⟩ := Option.map_eq_some_iff.mp (show inner.slots[k]?.map NetworkSlot.entry = some x from hx)
  have hvalues : inner.values (order ++ [k]) = inner.values order ++ [slot] := by
    unfold NetworkInner.values
    rw [List.filterMap_append, List.filterMap_cons, hslot, List.filterMap_nil]
  have hspeaks : speaksForMain ⟨frame, "", loader⟩ [⟨⟨frame, "", loader⟩, .target, none⟩] slot.entry = true := by
    refine (speaksForMain_iff_root fun f hf => ?_).mpr ⟨hroot, hloader⟩
    rw [List.mem_singleton.mp hf]
    exact fun h => by cases h
  rw [snapshot_network, hvalues, List.map_append, List.map_singleton]
  show Tally.mainDocument (List.foldl _ _ _) = _
  rw [List.foldl_append, List.foldl_cons, List.foldl_nil]
  exact if_pos hspeaks

theorem agreed_of_assessed (h : SameResults inner inner) (cfg : AssessConfig) : Agreed inner.table := by
  intro frame a b x y loader hx hy hxroot hyroot hxloader hyloader
  have hsame := h.assessed cfg ⟨⟨frame, "", loader⟩, .target, none⟩ [] ⟨0, 0, 0, 0⟩ [] 0 _ _
    (fun f hf => by
      rw [List.mem_singleton.mp hf]
      exact fun h => by cases h)
    (isOrder_last (Option.isSome_iff_exists.mpr ⟨x, hx⟩)) (isOrder_last (Option.isSome_iff_exists.mpr ⟨y, hy⟩))
  have hmain := congrArg (fun s : Sample => s.readiness.mainDocument) hsame
  dsimp only at hmain
  rw [assess_last cfg 0 hx hxroot hxloader, assess_last cfg 0 hy hyroot hyloader] at hmain
  exact hmain

/-- At one state: the order does not show if there are no ties and the Documents agree. -/
theorem sameResults_self_iff (hkeyed : Keyed inner.table) :
    SameResults inner inner ↔ Untied inner.table ∧ Agreed inner.table := by
  constructor
  · intro h
    exact ⟨untied_of_main hkeyed h.main, agreed_of_assessed h ⟨fun _ => 0, "body", true, 0⟩⟩
  · rintro ⟨huntied, hagreed⟩
    refine ⟨fun frame σ τ hσ hτ => ?_, ?_, fun redacted σ τ hσ hτ => finish_perm hkeyed hσ hτ redacted⟩
    · rw [select_perm huntied frame hσ hτ]
    · intro cfg root rest body unobserved now σ τ hplaced hσ hτ
      exact assess_perm hkeyed hagreed cfg body unobserved now hplaced hσ hτ

end

/-! ## Runs -/

/-- The same step, but for the order in which a selection meets the slots. -/
inductive SameStep : CollectorStep → CollectorStep → Prop where
  | event (event : CdpEvent) (now : ℕ) : SameStep (.event event now) (.event event now)
  | lagged (count now : ℕ) : SameStep (.lagged count now) (.lagged count now)
  | select (frame : String) (σ τ : List String) : SameStep (.select frame σ) (.select frame τ)

abbrev SameSteps : List CollectorStep → List CollectorStep → Prop := List.Forall₂ SameStep

/-- Every selection meets the slots there are, each once. -/
def OrdersOk (cfg : CollectorConfig) (es : List CollectorStep) : Prop :=
  ∀ xs frame order, xs ++ [.select frame order] <+: es → IsOrder (collect cfg xs) order

/-- Whatever the orders in the selections and in the passes at the end, the results are the same. -/
def OrderHidden (cfg : CollectorConfig) (es : List CollectorStep) : Prop :=
  ∀ es₁ es₂, SameSteps es es₁ → SameSteps es es₂ → OrdersOk cfg es₁ → OrdersOk cfg es₂ →
    SameResults (collect cfg es₁) (collect cfg es₂)

section
variable {cfg : CollectorConfig}

theorem ordersOk_nil : OrdersOk cfg [] := by
  intro xs frame order h
  exact absurd (List.prefix_nil.mp h) (List.concat_ne_nil _ _)

theorem OrdersOk.snoc {es : List CollectorStep} {e : CollectorStep} (h : OrdersOk cfg es)
    (he : ∀ frame order, e = .select frame order → IsOrder (collect cfg es) order) : OrdersOk cfg (es ++ [e]) := by
  intro xs frame order hpre
  obtain heq | hpre := List.prefix_concat_iff.mp hpre
  · obtain ⟨rfl, hlast⟩ := List.append_inj' heq rfl
    exact he frame order (List.singleton_inj.mp hlast).symm
  · exact h xs frame order hpre

theorem SameSteps.refl (es : List CollectorStep) : SameSteps es es := by
  induction es with
  | nil => exact .nil
  | cons e es ih =>
    refine .cons ?_ ih
    cases e with
    | event event now => exact .event event now
    | lagged count now => exact .lagged count now
    | select frame order => exact .select frame order order

theorem SameSteps.snoc {es es' : List CollectorStep} {e : CollectorStep} (h : SameSteps (es ++ [e]) es') :
    ∃ fs f, SameSteps es fs ∧ SameStep e f ∧ es' = fs ++ [f] := by
  have hrev : List.Forall₂ SameStep (e :: es.reverse) es'.reverse := by
    rw [← List.reverse_concat]
    exact List.forall₂_reverse_iff.mpr h
  obtain ⟨f, l, hf, hl, hes⟩ := List.forall₂_cons_left_iff.mp hrev
  refine ⟨l.reverse, f, ?_, hf, ?_⟩
  · rw [← List.reverse_reverse es]
    exact List.forall₂_reverse_iff.mpr hl
  · rw [← List.reverse_reverse es', hes, List.reverse_cons]

theorem collect_keyed (es : List CollectorStep) : Keyed (collect cfg es).table := by
  refine collect_history (P := fun _ t => Keyed t) (fun id entry h => by cases h) ?_ es
  intro es e h
  exact h.apply _

/-- Without ties the orders of the selections leave no trace. -/
theorem collect_sameSteps {es : List CollectorStep} (horders : OrdersOk cfg es)
    (huntied : ∀ xs, xs <+: es → Untied (collect cfg xs).table) {es' : List CollectorStep}
    (hsame : SameSteps es es') (horders' : OrdersOk cfg es') : collect cfg es' = collect cfg es := by
  induction es using List.reverseRecOn generalizing es' with
  | nil =>
    cases hsame
    rfl
  | append_singleton es e ih =>
    obtain ⟨fs, f, hfs, hf, rfl⟩ := hsame.snoc
    have hcollect : collect cfg fs = collect cfg es := by
      refine ih ?_ ?_ hfs ?_
      · exact fun xs frame order h => horders xs frame order (h.trans (List.prefix_append _ _))
      · exact fun xs h => huntied xs (h.trans (List.prefix_append _ _))
      · exact fun xs frame order h => horders' xs frame order (h.trans (List.prefix_append _ _))
    rw [collect_concat, collect_concat, hcollect]
    cases hf with
    | event event now => rfl
    | lagged count now => rfl
    | select frame σ τ =>
      have hσ := horders es frame σ (List.prefix_refl _)
      have hτ := horders' fs frame τ (List.prefix_refl _)
      rw [hcollect] at hτ
      exact select_perm (huntied es (List.prefix_append _ _)) frame hτ hσ

/-- **The order of the map does not show** in a run exactly when at no moment two of the latest root-frame
Documents tie, and the live Documents of a loader agree on whether they are finished. -/
theorem order_hidden_iff {es : List CollectorStep} (horders : OrdersOk cfg es) :
    (∀ xs, xs <+: es → OrderHidden cfg xs) ↔
      ∀ xs, xs <+: es → Untied (collect cfg xs).table ∧ Agreed (collect cfg xs).table := by
  have hpart {xs : List CollectorStep} (hxs : xs <+: es) : OrdersOk cfg xs :=
    fun ys frame order h => horders ys frame order (h.trans hxs)
  constructor
  · intro h xs hxs
    refine (sameResults_self_iff (collect_keyed xs)).mp ?_
    exact h xs hxs xs xs (.refl xs) (.refl xs) (hpart hxs) (hpart hxs)
  · intro h xs hxs es₁ es₂ h₁ h₂ hok₁ hok₂
    have huntied : ∀ ys, ys <+: xs → Untied (collect cfg ys).table := fun ys hys => (h ys (hys.trans hxs)).1
    rw [collect_sameSteps (hpart hxs) huntied h₁ hok₁, collect_sameSteps (hpart hxs) huntied h₂ hok₂]
    exact (sameResults_self_iff (collect_keyed xs)).mpr (h xs hxs)

theorem untied_agreed_of_single {t : RequestTable} {k : String} (h : ∀ a x, t.entry a = some x → a = k) :
    Untied t ∧ Agreed t := by
  refine ⟨fun frame a b x y hx hy _ _ _ => (h a x hx).trans (h b y hy).symm, ?_⟩
  intro frame a b x y loader hx hy _ _ _ _
  rw [h a x hx] at hx
  rw [h b y hy, hx] at hy
  rw [Option.some.inj hy]

end

/-! ## Two runs -/

def rootDocumentParams (id : String) (timestamp : ℕ) : List (String × Json) :=
  [("frameId", .str "F"), ("loaderId", .str id), ("timestamp", .posInt timestamp)]

def rootAnnouncement (id : String) (timestamp : ℕ) : CollectorStep :=
  sampleAnnouncement id "Document" (rootDocumentParams id timestamp)

/-- A page is announced, and selected. -/
def singleRun : List CollectorStep := [rootAnnouncement "1" 5, .select "F" ["1"]]

/-- A page is replaced within the millisecond. -/
def tiedRun : List CollectorStep := [rootAnnouncement "1" 5, rootAnnouncement "2" 5]

theorem order_hidden_single : OrderHidden sampleConfig singleRun := by
  have hannounced : OrdersOk sampleConfig ([] ++ [rootAnnouncement "1" 5]) :=
    ordersOk_nil.snoc fun frame order h => by cases h
  have horders : OrdersOk sampleConfig ([rootAnnouncement "1" 5] ++ [.select "F" ["1"]]) := by
    refine hannounced.snoc fun frame order h => ?_
    cases h
    decide
  refine (order_hidden_iff horders).mpr (fun xs hxs => ?_) singleRun (List.prefix_refl _)
  have hkeys : ∀ ys ∈ singleRun.inits, ∀ k ∈ (collect sampleConfig ys).slots.keys, k = "1" := by decide
  have hone (a : String) (x : NetworkEntry) (hx : (collect sampleConfig xs).table.entry a = some x) : a = "1" :=
    hkeys xs ((List.mem_inits _ _).mpr hxs) a (mem_keys_of_entry (Option.isSome_iff_exists.mpr ⟨x, hx⟩))
  exact untied_agreed_of_single hone

/-- Two root-frame Documents have started in the same millisecond: the one that the map lists last is the
main document. -/
theorem tied_documents_show : ¬∀ cfg es, OrdersOk cfg es → OrderHidden cfg es := by
  intro h
  have hone : OrdersOk sampleConfig ([] ++ [rootAnnouncement "1" 5]) :=
    ordersOk_nil.snoc fun frame order h => by cases h
  have htwo : OrdersOk sampleConfig ([rootAnnouncement "1" 5] ++ [rootAnnouncement "2" 5]) :=
    hone.snoc fun frame order h => by cases h
  have hsame := (h sampleConfig tiedRun htwo tiedRun tiedRun (.refl _) (.refl _) htwo htwo).main "F"
    ["1", "2"] ["2", "1"] (by decide) (by decide)
  exact absurd hsame (by decide)

end Afhttp.Fetch

import Afhttp.Cdp.Connection

/-!
# Runs of a CDP connection

Any interleaving of callers, reader, writer and closer.  `phase_step` says what one step does to
one call; `Inv` is what every run keeps.

    a call is answered by a message that carries its id, and for good    (answered_by, answered_stays)
    a call that timed out or was refused has no slot                     (Inv.slots)
    no slot is left of a closed connection, and calls on it fail         (Inv.closed)
    no call hangs on an ended writer, exactly if no writer ends with
    an untimed call's frame in hand                                      (demux)
-/

namespace Afhttp.Cdp.Connection

/-! ## What one step can do -/

theorem phase_eq_some {c : Connection} {id : ℕ} {ph : Phase} :
    c.phase id = some ph ↔ ∃ request, c.calls id = some ⟨request, ph⟩ := by
  unfold phase
  constructor
  · intro h
    obtain ⟨⟨request, ph'⟩, hcall, heq⟩ := Option.map_eq_some_iff.mp h
    cases heq
    exact ⟨request, hcall⟩
  · rintro ⟨request, hcall⟩
    rw [hcall]
    rfl

/-- The ids whose frames are queued. -/
def queued (c : Connection) : List ℕ := c.queue.filterMap OutMsg.id

/-- The writer's next step is its last. -/
def endsWriter (c : Connection) (sent : Bool) : Bool :=
  match c.queue with
  | [] => false
  | .close :: _ => true
  | .text .. :: _ => !sent

/-- Everything a step can do, with what it found. -/
inductive Transition (c : Connection) : Step → Connection → Prop
  | number (request : Request) : Transition c (.number request) (c.number request)
  | refused (id : ℕ) (closed : Bool) (replies : Finset ℕ) : c.phase id = some .numbered → replies ⊆ c.replies →
      Transition c (.enqueue id) { c.setPhase id (.refused closed) with replies := replies }
  | queued (id : ℕ) (body : Json) : c.phase id = some .numbered → c.closed = false → c.writerEnded = false →
      Transition c (.enqueue id)
        { c.setPhase id .waiting with replies := insert id c.replies, queue := c.queue ++ [.text id body] }
  | sent (id : ℕ) (body : Json) (rest : List OutMsg) : c.writerEnded = false → c.queue = .text id body :: rest →
      Transition c (.write true) { c with queue := rest, written := insert id c.written }
  | ends (sent : Bool) : c.writerEnded = false → c.endsWriter sent = true →
      Transition c (.write sent) { c with queue := [], writerEnded := true }
  | ignored (msg : Json) : (∀ id, replyId msg = some id → id ∉ c.replies) → Transition c (.receive msg) c
  | handed (msg : Json) (id : ℕ) : replyId msg = some id → id ∈ c.replies → c.phase id = some .waiting →
      Transition c (.receive msg) ({ c with replies := c.replies.erase id }.setPhase id (.answered msg))
  | dropped (msg : Json) (id : ℕ) : replyId msg = some id →
      Transition c (.receive msg) { c with replies := c.replies.erase id }
  | streamEnds : c.reader = .running → Transition c .streamEnds { c with reader := .leaving }
  | markClosed : c.reader = .leaving → Transition c .markClosed c.markClosed
  | elapsed (id : ℕ) : c.phase id = some .waiting → Transition c (.elapse id) (c.setPhase id .elapsed)
  | forgotten (id : ℕ) : c.phase id = some .elapsed →
      Transition c (.forget id) { c.setPhase id .timedOut with replies := c.replies.erase id }
  | closing : c.writerEnded = false → Transition c .close { c with queue := c.queue ++ [.close] }
  | closedLate : Transition c .close c

theorem step_cases {c c' : Connection} {e : Step} (h : c.step e = some c') : Transition c e c' := by
  cases e with
  | number request =>
    cases h
    exact .number request
  | enqueue id =>
    simp only [step] at h
    split at h
    · next request hcall =>
      cases h
      have hph : c.phase id = some .numbered := phase_eq_some.mpr ⟨request, hcall⟩
      unfold enqueue
      split
      · exact .refused id true c.replies hph (Finset.Subset.refl _)
      · next hopen =>
        split
        · refine .refused id false _ hph ?_
          intro j hj
          obtain ⟨hne, hmem⟩ := Finset.mem_erase.mp hj
          exact (Finset.mem_insert.mp hmem).resolve_left hne
        · next hwriter => exact .queued id _ hph (by simpa using hopen) (by simpa using hwriter)
    · cases h
  | write sent =>
    simp only [step] at h
    split at h
    · cases h
    · next hwriter =>
      have hrunning : c.writerEnded = false := by simpa using hwriter
      split at h
      · cases h
      · next hqueue =>
        cases h
        exact .ends sent hrunning (by unfold endsWriter; rw [hqueue])
      · next id body rest hqueue =>
        cases sent with
        | true =>
          cases h
          exact .sent id body rest hrunning hqueue
        | false =>
          cases h
          exact .ends false hrunning (by unfold endsWriter; rw [hqueue]; rfl)
  | receive msg =>
    simp only [step] at h
    split at h
    · cases h
      unfold dispatch
      split
      · next id hid =>
        split
        · next hmem =>
          unfold resolve
          split
          · next hwait => exact .handed msg id hid hmem hwait
          · exact .dropped msg id hid
        · next hnot =>
          refine .ignored msg fun j hj => ?_
          rw [hid] at hj
          exact Option.some.inj hj ▸ hnot
      · next hnone =>
        refine .ignored msg fun j hj => ?_
        rw [hnone] at hj
        cases hj
    · cases h
  | streamEnds =>
    simp only [step] at h
    split at h
    · next hreader =>
      cases h
      exact .streamEnds hreader
    · cases h
  | markClosed =>
    simp only [step] at h
    split at h
    · next hreader =>
      cases h
      exact .markClosed hreader
    · cases h
  | elapse id =>
    simp only [step] at h
    split at h
    · next request hcall =>
      split at h
      · cases h
        exact .elapsed id (phase_eq_some.mpr ⟨request, hcall⟩)
      · cases h
    · cases h
  | forget id =>
    simp only [step] at h
    split at h
    · next hph =>
      cases h
      exact .forgotten id hph
    · cases h
  | close =>
    cases h
    split
    · exact .closedLate
    · next hwriter => exact .closing (by simpa using hwriter)

/-! ## One call -/

theorem phase_setPhase (c : Connection) (id : ℕ) (ph : Phase) (j : ℕ) :
    (c.setPhase id ph).phase j = if j = id then (c.phase id).map fun _ => ph else c.phase j := by
  unfold phase setPhase
  by_cases h : j = id
  · subst h
    simp only [Function.update_self, Option.map_map, if_true]
    rfl
  · simp only [Function.update_of_ne h, if_neg h]

theorem phase_number (c : Connection) (request : Request) (j : ℕ) :
    (c.number request).phase j = if j = c.nextId then some .numbered else c.phase j := by
  unfold phase number
  by_cases h : j = c.nextId
  · simp only [h, Function.update_self, if_true]
    rfl
  · simp only [Function.update_of_ne h, if_neg h]

theorem phase_markClosed (c : Connection) (id : ℕ) : c.markClosed.phase id =
    (c.phase id).map fun ph => if id ∈ c.replies then
      match ph with
      | .waiting => .failed
      | ph => ph
    else ph := by
  unfold phase markClosed
  simp only [Option.map_map]
  congr 1
  funext call
  by_cases h : id ∈ c.replies
  · simp only [Function.comp_apply, if_pos h]
    cases call with
    | mk request ph => cases ph <;> rfl
  · simp only [Function.comp_apply, if_neg h]

/-- What can become of a call in one step. -/
inductive Moves (c : Connection) (id : ℕ) : Step → Option Phase → Phase → Prop
  | numbered (request : Request) (before : Option Phase) : id = c.nextId →
      Moves c id (.number request) before .numbered
  | queued : Moves c id (.enqueue id) (some .numbered) .waiting
  | refused (closed : Bool) : Moves c id (.enqueue id) (some .numbered) (.refused closed)
  | answered (msg : Json) : replyId msg = some id → Moves c id (.receive msg) (some .waiting) (.answered msg)
  | failed : Moves c id .markClosed (some .waiting) .failed
  | elapsed : Moves c id (.elapse id) (some .waiting) .elapsed
  | timedOut : Moves c id (.forget id) (some .elapsed) .timedOut

/-- **One step, one call.** -/
theorem phase_step {c c' : Connection} {e : Step} (h : Transition c e c') (id : ℕ) :
    c'.phase id = c.phase id ∨ ∃ ph, c'.phase id = some ph ∧ Moves c id e (c.phase id) ph := by
  have moved : ∀ {d : Connection} {j : ℕ} {ph ph' : Phase} {e : Step}, c.phase j = some ph →
      Moves c j e (some ph) ph' → (∀ i, d.phase i = if i = j then (c.phase j).map fun _ => ph' else c.phase i) →
      d.phase id = c.phase id ∨ ∃ ph', d.phase id = some ph' ∧ Moves c id e (c.phase id) ph' := by
    intro d j ph ph' e hph hmoves hd
    by_cases hid : id = j
    · subst hid
      right
      rw [hd, if_pos rfl, hph]
      exact ⟨ph', rfl, hmoves⟩
    · left
      rw [hd, if_neg hid]
  cases h with
  | number request =>
    rw [phase_number]
    by_cases hid : id = c.nextId
    · exact Or.inr ⟨.numbered, if_pos hid, .numbered request _ hid⟩
    · exact Or.inl (if_neg hid)
  | refused j closed replies hph _ => exact moved hph (.refused closed) (phase_setPhase c j _)
  | queued j body hph _ _ => exact moved hph .queued (phase_setPhase c j _)
  | handed msg j hj _ hph => exact moved hph (.answered msg hj) (phase_setPhase _ j _)
  | elapsed j hph => exact moved hph .elapsed (phase_setPhase c j _)
  | forgotten j hph => exact moved hph .timedOut (phase_setPhase c j _)
  | markClosed _ =>
    rw [phase_markClosed]
    cases hph : c.phase id with
    | none => exact Or.inl rfl
    | some ph =>
      by_cases hmem : id ∈ c.replies
      · cases ph with
        | waiting => exact Or.inr ⟨.failed, by simp [hmem], .failed⟩
        | _ => left; simp [hmem]
      · left
        simp [hmem]
  | sent => exact Or.inl rfl
  | ends => exact Or.inl rfl
  | ignored => exact Or.inl rfl
  | dropped => exact Or.inl rfl
  | streamEnds => exact Or.inl rfl
  | closing => exact Or.inl rfl
  | closedLate => exact Or.inl rfl

/-! ## What every run keeps -/

structure Inv (c : Connection) : Prop where
  /-- Ids are not used before they are handed out. -/
  numbers : ∀ id, c.nextId ≤ id → c.phase id = none
  /-- Only a call that has not returned has a slot. -/
  slots : ∀ id ∈ c.replies, c.phase id = some .waiting ∨ c.phase id = some .elapsed
  /-- What is queued or sent is the frame of a call past its start. -/
  frames : ∀ id, id ∈ c.queued ∨ id ∈ c.written → ∃ ph, c.phase id = some ph ∧ ph ≠ .numbered
  nodup : c.queued.Nodup
  unsent : ∀ id ∈ c.queued, id ∉ c.written
  /-- While the writer runs, the frame of a slot is queued or sent. -/
  carried : c.writerEnded = false → ∀ id ∈ c.replies, id ∈ c.queued ∨ id ∈ c.written
  /-- Nothing is left to wait for once the reader has closed. -/
  closed : c.closed = true → c.replies = ∅ ∧ c.reader = .ended

theorem inv_init : Inv init where
  numbers _ _ := rfl
  slots _ h := absurd h (Finset.notMem_empty _)
  frames _ h := by
    rcases h with h | h
    · cases h
    · exact absurd h (Finset.notMem_empty _)
  nodup := List.nodup_nil
  unsent _ h := by cases h
  carried _ _ h := absurd h (Finset.notMem_empty _)
  closed h := Bool.noConfusion h

section
variable {c c' : Connection} {e : Step}

theorem nextId_step (h : Transition c e c') : c.nextId ≤ c'.nextId ∧ ∀ request, e = .number request →
    c'.nextId = c.nextId + 1 := by
  cases h with
  | number request => exact ⟨Nat.le_succ _, fun _ _ => rfl⟩
  | _ => exact ⟨Nat.le_refl _, nofun⟩

theorem numbers_step (hi : Inv c) (h : Transition c e c') (id : ℕ) (hid : c'.nextId ≤ id) : c'.phase id = none := by
  obtain ⟨hle, hnumber⟩ := nextId_step h
  have hnone := hi.numbers id (by omega)
  rcases phase_step h id with hsame | ⟨ph, -, hmoves⟩
  · rw [hsame, hnone]
  · rw [hnone] at hmoves
    cases hmoves with
    | numbered request _ heq =>
      have := hnumber request rfl
      omega

/-- A call that is past its start stays so. -/
theorem frames_step (hi : Inv c) (h : Transition c e c') {id : ℕ} {ph : Phase}
    (hph : c.phase id = some ph) (hne : ph ≠ .numbered) : ∃ ph', c'.phase id = some ph' ∧ ph' ≠ .numbered := by
  rcases phase_step h id with hsame | ⟨ph', hph', hmoves⟩
  · exact ⟨ph, hsame.trans hph, hne⟩
  · refine ⟨ph', hph', ?_⟩
    rw [hph] at hmoves
    cases hmoves with
    | numbered request _ heq =>
      rw [hi.numbers id (by omega)] at hph
      cases hph
    | _ => exact Phase.noConfusion

/-- A slot that stays is of a call that has not returned. -/
theorem slots_step (hi : Inv c) (h : Transition c e c') (id : ℕ) (hid : id ∈ c'.replies) :
    c'.phase id = some .waiting ∨ c'.phase id = some .elapsed := by
  cases h with
  | number request =>
    rcases hi.slots id hid with hph | hph
    all_goals
      rw [phase_number, if_neg (by rintro rfl; rw [hi.numbers _ (Nat.le_refl _)] at hph; cases hph)]
    · exact Or.inl hph
    · exact Or.inr hph
  | refused j closed replies hj hsub =>
    have hne : id ≠ j := by
      rintro rfl
      rcases hi.slots id (hsub hid) with hph | hph
      all_goals
        rw [hj] at hph
        cases hph
    show (c.setPhase j _).phase id = _ ∨ (c.setPhase j _).phase id = _
    rw [phase_setPhase, if_neg hne]
    exact hi.slots id (hsub hid)
  | queued j body hj _ _ =>
    show (c.setPhase j _).phase id = _ ∨ (c.setPhase j _).phase id = _
    rw [phase_setPhase]
    by_cases hne : id = j
    · rw [if_pos hne, hj]
      exact Or.inl rfl
    · rw [if_neg hne]
      exact hi.slots id ((Finset.mem_insert.mp hid).resolve_left hne)
  | handed msg j _ _ hj =>
    have hid' : id ∈ c.replies.erase j := hid
    obtain ⟨hne, hmem⟩ := Finset.mem_erase.mp hid'
    rw [phase_setPhase, if_neg hne]
    exact hi.slots id hmem
  | dropped msg j _ => exact hi.slots id (Finset.mem_of_mem_erase hid)
  | markClosed _ => exact absurd hid (Finset.notMem_empty _)
  | elapsed j hj =>
    have hmem : id ∈ c.replies := hid
    rw [phase_setPhase]
    by_cases hne : id = j
    · rw [if_pos hne, hj]
      exact Or.inr rfl
    · rw [if_neg hne]
      exact hi.slots id hmem
  | forgotten j _ =>
    obtain ⟨hne, hmem⟩ := Finset.mem_erase.mp hid
    show (c.setPhase j _).phase id = _ ∨ (c.setPhase j _).phase id = _
    rw [phase_setPhase, if_neg hne]
    exact hi.slots id hmem
  | sent => exact hi.slots id hid
  | ends => exact hi.slots id hid
  | ignored => exact hi.slots id hid
  | streamEnds => exact hi.slots id hid
  | closing => exact hi.slots id hid
  | closedLate => exact hi.slots id hid

theorem queued_append_text (q : List OutMsg) (id : ℕ) (body : Json) :
    (q ++ [OutMsg.text id body]).filterMap OutMsg.id = q.filterMap OutMsg.id ++ [id] := by
  rw [List.filterMap_append]
  rfl

/-- The frames after a step: each is one that was there, or the call's own. -/
structure Carried (c c' : Connection) : Prop where
  origin : ∀ id, id ∈ c'.queued ∨ id ∈ c'.written → (id ∈ c.queued ∨ id ∈ c.written) ∨ c'.phase id = some .waiting
  nodup : c'.queued.Nodup
  unsent : ∀ id ∈ c'.queued, id ∉ c'.written
  carried : c'.writerEnded = false → ∀ id ∈ c'.replies, id ∈ c'.queued ∨ id ∈ c'.written

theorem carried_same (hi : Inv c) (hq : c'.queued = c.queued) (hw : c'.written = c.written)
    (he : c'.writerEnded = c.writerEnded) (hr : c'.replies ⊆ c.replies) : Carried c c' where
  origin := fun id hid => Or.inl (by rw [hq, hw] at hid; exact hid)
  nodup := by
    rw [hq]
    exact hi.nodup
  unsent := by
    rw [hq, hw]
    exact hi.unsent
  carried := by
    rw [hq, hw, he]
    exact fun hrun id hid => hi.carried hrun id (hr hid)

/-- A call that was only numbered queues its frame. -/
theorem carried_queued (hi : Inv c) {j : ℕ} (body : Json) (hj : c.phase j = some .numbered)
    (hrun : c.writerEnded = false) :
    Carried c { c.setPhase j .waiting with replies := insert j c.replies, queue := c.queue ++ [.text j body] } := by
  have hfresh : j ∉ c.queued ∧ j ∉ c.written := by
    constructor
    all_goals
      intro hmem
      obtain ⟨ph, hph, hne⟩ := hi.frames j (by first | exact Or.inl hmem | exact Or.inr hmem)
      rw [hj] at hph
      cases hph
      exact hne rfl
  have hqueue : queued { c.setPhase j .waiting with
      replies := insert j c.replies, queue := c.queue ++ [.text j body] } = c.queued ++ [j] :=
    queued_append_text c.queue j body
  refine ⟨?_, ?_, ?_, ?_⟩
  all_goals rw [hqueue]
  · rintro id (hid | hid)
    · rcases List.mem_append.mp hid with hid | hid
      · exact Or.inl (Or.inl hid)
      · right
        rw [List.mem_singleton.mp hid]
        show (c.setPhase j _).phase j = _
        rw [phase_setPhase, if_pos rfl, hj]
        rfl
    · exact Or.inl (Or.inr hid)
  · rw [List.nodup_append]
    refine ⟨hi.nodup, List.nodup_singleton j, ?_⟩
    intro a ha b hb heq
    rw [List.mem_singleton.mp hb] at heq
    exact hfresh.1 (heq ▸ ha)
  · intro id hid
    rcases List.mem_append.mp hid with hid | hid
    · exact hi.unsent id hid
    · rw [List.mem_singleton.mp hid]
      exact hfresh.2
  · intro _ id hid
    rcases Finset.mem_insert.mp hid with rfl | hid
    · exact Or.inl (List.mem_append_right _ (List.mem_singleton_self _))
    · rcases hi.carried hrun id hid with hq | hw
      · exact Or.inl (List.mem_append_left _ hq)
      · exact Or.inr hw

/-- The writer sends the first frame. -/
theorem carried_sent (hi : Inv c) {j : ℕ} {body : Json} {rest : List OutMsg} (hrun : c.writerEnded = false)
    (hqueue : c.queue = .text j body :: rest) :
    Carried c { c with queue := rest, written := insert j c.written } := by
  have hq : c.queued = j :: rest.filterMap OutMsg.id := by
    unfold queued
    rw [hqueue]
    rfl
  have hnodup := hi.nodup
  rw [hq, List.nodup_cons] at hnodup
  have hmem : ∀ id, id ∈ rest.filterMap OutMsg.id ∨ id ∈ insert j c.written → id ∈ c.queued ∨ id ∈ c.written := by
    rintro id (hid | hid)
    · exact Or.inl (hq ▸ List.mem_cons_of_mem _ hid)
    · rcases Finset.mem_insert.mp hid with rfl | hid
      · exact Or.inl (hq ▸ List.mem_cons_self ..)
      · exact Or.inr hid
  refine ⟨fun id hid => Or.inl (hmem id hid), hnodup.2, ?_, ?_⟩
  · intro id hid hw
    rcases Finset.mem_insert.mp hw with rfl | hw
    · exact hnodup.1 hid
    · exact hi.unsent id (hq ▸ List.mem_cons_of_mem _ hid) hw
  · intro _ id hid
    rcases hi.carried hrun id hid with hin | hw
    · rw [hq] at hin
      rcases List.mem_cons.mp hin with rfl | hin
      · exact Or.inr (Finset.mem_insert_self ..)
      · exact Or.inl hin
    · exact Or.inr (Finset.mem_insert_of_mem hw)

theorem carried_step (hi : Inv c) (h : Transition c e c') : Carried c c' := by
  cases h with
  | number request => exact carried_same hi rfl rfl rfl (Finset.Subset.refl _)
  | refused j closed replies _ hsub => exact carried_same hi rfl rfl rfl hsub
  | queued j body hj hopen hrun => exact carried_queued hi body hj hrun
  | sent j body rest hrun hqueue => exact carried_sent hi hrun hqueue
  | ends sent hrun _ =>
    refine ⟨?_, List.nodup_nil, fun id hid => (by cases hid), fun hend => (by cases hend)⟩
    rintro id (hid | hid)
    · cases hid
    · exact Or.inl (Or.inr hid)
  | ignored msg _ => exact carried_same hi rfl rfl rfl (Finset.Subset.refl _)
  | handed msg j _ _ _ => exact carried_same hi rfl rfl rfl (Finset.erase_subset ..)
  | dropped msg j _ => exact carried_same hi rfl rfl rfl (Finset.erase_subset ..)
  | streamEnds _ => exact carried_same hi rfl rfl rfl (Finset.Subset.refl _)
  | markClosed _ => exact carried_same hi rfl rfl rfl (Finset.empty_subset _)
  | elapsed j _ => exact carried_same hi rfl rfl rfl (Finset.Subset.refl _)
  | forgotten j _ => exact carried_same hi rfl rfl rfl (Finset.erase_subset ..)
  | closing hrun =>
    refine carried_same hi ?_ rfl rfl (Finset.Subset.refl _)
    show (c.queue ++ [OutMsg.close]).filterMap OutMsg.id = c.queue.filterMap OutMsg.id
    rw [List.filterMap_append]
    exact List.append_nil _
  | closedLate => exact carried_same hi rfl rfl rfl (Finset.Subset.refl _)

theorem closed_step (hi : Inv c) (h : Transition c e c') (hclosed : c'.closed = true) :
    c'.replies = ∅ ∧ c'.reader = .ended := by
  cases h with
  | markClosed _ => exact ⟨rfl, rfl⟩
  | refused j closed replies _ hsub =>
    obtain ⟨hnone, hreader⟩ := hi.closed hclosed
    exact ⟨Finset.subset_empty.mp (hnone ▸ hsub), hreader⟩
  | queued j body _ hopen _ =>
    have hc : c.closed = true := hclosed
    rw [hopen] at hc
    cases hc
  | handed msg j _ hmem _ =>
    obtain ⟨hnone, -⟩ := hi.closed hclosed
    rw [hnone] at hmem
    exact absurd hmem (Finset.notMem_empty _)
  | dropped msg j _ =>
    obtain ⟨hnone, hreader⟩ := hi.closed hclosed
    exact ⟨by show c.replies.erase j = ∅; rw [hnone]; rfl, hreader⟩
  | forgotten j _ =>
    obtain ⟨hnone, hreader⟩ := hi.closed hclosed
    exact ⟨by show c.replies.erase j = ∅; rw [hnone]; rfl, hreader⟩
  | streamEnds hrunning =>
    obtain ⟨-, hreader⟩ := hi.closed hclosed
    rw [hrunning] at hreader
    cases hreader
  | number request => exact hi.closed hclosed
  | sent => exact hi.closed hclosed
  | ends => exact hi.closed hclosed
  | ignored => exact hi.closed hclosed
  | elapsed j _ => exact hi.closed hclosed
  | closing => exact hi.closed hclosed
  | closedLate => exact hi.closed hclosed

theorem inv_step (hi : Inv c) (h : Transition c e c') : Inv c' := by
  obtain ⟨hframes, hnodup, hunsent, hcarried⟩ := carried_step hi h
  refine ⟨numbers_step hi h, slots_step hi h, ?_, hnodup, hunsent, hcarried, closed_step hi h⟩
  intro id hid
  rcases hframes id hid with hbefore | hwaiting
  · obtain ⟨ph, hph, hne⟩ := hi.frames id hbefore
    exact frames_step hi h hph hne
  · exact ⟨.waiting, hwaiting, Phase.noConfusion⟩

end

/-! ## Answers -/

theorem answered_stays {c c' : Connection} {e : Step} (h : Transition c e c') {id : ℕ} {msg : Json}
    (hph : c.phase id = some (.answered msg)) (hi : Inv c) : c'.phase id = some (.answered msg) := by
  rcases phase_step h id with hsame | ⟨ph, -, hmoves⟩
  · exact hsame.trans hph
  · rw [hph] at hmoves
    cases hmoves with
    | numbered request _ heq =>
      rw [hi.numbers id (by omega)] at hph
      cases hph

theorem closed_stays {c c' : Connection} {e : Step} (h : Transition c e c') (hclosed : c.closed = true) :
    c'.closed = true := by
  cases h with
  | markClosed => rfl
  | _ => exact hclosed

/-- A call is refused on a closed connection. -/
theorem enqueue_closed {c c' : Connection} {id : ℕ} (h : Transition c (.enqueue id) c') (hclosed : c.closed = true) :
    ∃ closed, c'.phase id = some (.refused closed) := by
  cases h with
  | refused _ closed replies hph _ =>
    refine ⟨closed, ?_⟩
    show (c.setPhase id _).phase id = _
    rw [phase_setPhase, if_pos rfl, hph]
    rfl
  | queued _ body _ hopen _ =>
    rw [hopen] at hclosed
    cases hclosed

theorem inv_run {es : List Step} {c : Connection} (h : Run.run step init es = some c) : Inv c :=
  Run.run_invariant step inv_init (fun _ _ _ hi he => inv_step hi (step_cases he)) h

/-- **Each answer is the call's own**: the reader has handed it, while the call waited, a message
that carries its id. -/
theorem answered_by {es : List Step} {c : Connection} (h : Run.run step init es = some c) (id : ℕ) (msg : Json)
    (hph : c.phase id = some (.answered msg)) : replyId msg = some id ∧
      ∃ us vs b, es = us ++ .receive msg :: vs ∧ Run.run step init us = some b ∧ b.phase id = some .waiting := by
  revert hph
  refine Run.run_history step (P := fun es c => c.phase id = some (.answered msg) → replyId msg = some id ∧
    ∃ us vs b, es = us ++ .receive msg :: vs ∧ Run.run step init us = some b ∧ b.phase id = some .waiting)
    (fun hph => by cases hph) ?_ h
  intro es b e c hrun ih hstep hph
  rcases phase_step (step_cases hstep) id with hsame | ⟨ph, hph', hmoves⟩
  · obtain ⟨hid, us, vs, b', rfl, hb, hwait⟩ := ih (hsame.symm.trans hph)
    exact ⟨hid, us, vs ++ [e], b', by rw [List.append_assoc, List.cons_append], hb, hwait⟩
  · rw [hph'] at hph
    cases hph
    generalize hbefore : b.phase id = before at hmoves
    cases hmoves with
    | answered _ hid => exact ⟨hid, es, [], b, rfl, hrun, hbefore⟩

/-! ## Calls that nothing answers -/

def request (c : Connection) (id : ℕ) : Option Request := (c.calls id).map Call.request

/-- A call of `send`, which waits as long as it takes. -/
def untimed (c : Connection) (id : ℕ) : Bool := (c.request id).any fun request => !request.timed

/-- The writer has ended, and a call whose frame was never written has a slot that only the end of
the stream resolves: it has no timeout, and the reader reads on. -/
def Hung (c : Connection) : Prop :=
  c.writerEnded = true ∧ c.reader = .running ∧ ∃ id ∈ c.replies, id ∉ c.written ∧ c.untimed id = true

/-- What the writer holds when it ends, `Close` or the failed frame included, is of no call that
waits without a timeout, unless the reader has ended. -/
def mayEnd (c : Connection) : Step → Bool
  | .write sent => !(c.endsWriter sent && c.reader == .running &&
      c.queued.any fun id => decide (id ∈ c.replies) && c.untimed id)
  | _ => true

theorem request_setPhase (c : Connection) (j : ℕ) (ph : Phase) (id : ℕ) :
    (c.setPhase j ph).request id = c.request id := by
  unfold request setPhase
  by_cases hid : id = j
  · subst hid
    simp only [Function.update_self, Option.map_map]
    rfl
  · simp only [Function.update_of_ne hid]

theorem request_step {c c' : Connection} {e : Step} (h : Transition c e c') {id : ℕ} (hid : id ≠ c.nextId) :
    c'.request id = c.request id := by
  cases h with
  | number request =>
    unfold Connection.request number
    simp only [Function.update_of_ne hid]
  | refused j => exact request_setPhase c j _ id
  | queued j => exact request_setPhase c j _ id
  | handed msg j => exact request_setPhase _ j _ id
  | elapsed j => exact request_setPhase c j _ id
  | forgotten j => exact request_setPhase c j _ id
  | markClosed =>
    unfold Connection.request markClosed
    simp only [Option.map_map]
    congr 1
    funext call
    simp only [Function.comp_apply]
    split
    · split <;> rfl
    · rfl
  | _ => rfl

/-- **A hang begins where the writer ends**, with what it holds then. -/
theorem hung_step {c c' : Connection} {e : Step} (hi : Inv c) (hfree : ¬ c.Hung) (h : Transition c e c') :
    ¬ c'.Hung ↔ c.mayEnd e = true := by
  have hkeep : c'.writerEnded = c.writerEnded → (c'.reader = .running → c.reader = .running) →
      c'.replies ⊆ c.replies → c'.written = c.written → ¬ c'.Hung := by
    rintro he hr hsub hw ⟨hended, hrunning, id, hid, hunwritten, huntimed⟩
    refine hfree ⟨he ▸ hended, hr hrunning, id, hsub hid, hw ▸ hunwritten, ?_⟩
    have hne : id ≠ c.nextId := by
      rintro rfl
      have hnone := hi.numbers _ (Nat.le_refl c.nextId)
      rcases hi.slots _ (hsub hid) with hph | hph
      all_goals
        rw [hnone] at hph
        cases hph
    unfold untimed at huntimed ⊢
    rw [← request_step h hne]
    exact huntimed
  have hquiet : ¬ c'.Hung → c.mayEnd e = true → (¬ c'.Hung ↔ c.mayEnd e = true) :=
    fun h h' => ⟨fun _ => h', fun _ => h⟩
  cases h with
  | ends sent hrun hend =>
    have hhung : Hung { c with queue := [], writerEnded := true } ↔
        c.reader = .running ∧ ∃ id ∈ c.queued, id ∈ c.replies ∧ c.untimed id = true := by
      constructor
      · rintro ⟨-, hreader, id, hid, hunwritten, huntimed⟩
        exact ⟨hreader, id, (hi.carried hrun id hid).resolve_right hunwritten, hid, huntimed⟩
      · rintro ⟨hreader, id, hq, hid, huntimed⟩
        exact ⟨rfl, hreader, id, hid, hi.unsent id hq, huntimed⟩
    have hmay : c.mayEnd (.write sent) = !(c.reader == .running &&
        c.queued.any fun id => decide (id ∈ c.replies) && c.untimed id) := by
      show (!(c.endsWriter sent && _ && _)) = _
      rw [hend, Bool.true_and]
    rw [hhung, hmay]
    by_cases hreader : c.reader = .running <;> simp [hreader]
  | queued j body _ _ hrun =>
    refine hquiet ?_ rfl
    rintro ⟨hended, -⟩
    have hended' : c.writerEnded = true := hended
    rw [hrun] at hended'
    cases hended'
  | sent j body rest hrun hqueue =>
    refine hquiet ?_ ?_
    · rintro ⟨hended, -⟩
      have hended' : c.writerEnded = true := hended
      rw [hrun] at hended'
      cases hended'
    · unfold mayEnd endsWriter
      rw [hqueue]
      rfl
  | refused j closed replies _ hsub => exact hquiet (hkeep rfl id hsub rfl) rfl
  | number request => exact hquiet (hkeep rfl id (Finset.Subset.refl _) rfl) rfl
  | ignored msg _ => exact hquiet (hkeep rfl id (Finset.Subset.refl _) rfl) rfl
  | handed msg j _ _ _ => exact hquiet (hkeep rfl id (Finset.erase_subset ..) rfl) rfl
  | dropped msg j _ => exact hquiet (hkeep rfl id (Finset.erase_subset ..) rfl) rfl
  | streamEnds _ => exact hquiet (hkeep rfl (fun hr => by cases hr) (Finset.Subset.refl _) rfl) rfl
  | markClosed _ => exact hquiet (hkeep rfl (fun hr => by cases hr) (Finset.empty_subset _) rfl) rfl
  | elapsed j _ => exact hquiet (hkeep rfl id (Finset.Subset.refl _) rfl) rfl
  | forgotten j _ => exact hquiet (hkeep rfl id (Finset.erase_subset ..) rfl) rfl
  | closing _ => exact hquiet (hkeep rfl id (Finset.Subset.refl _) rfl) rfl
  | closedLate => exact hquiet (hkeep rfl id (Finset.Subset.refl _) rfl) rfl

/-! ## Demultiplexing -/

/-- In every state of the run: a call that is answered was handed a message with its id while it
waited, and stays with it; a call that timed out or was refused has no slot; a closed connection
has no slots, refuses its calls and stays closed; and no call hangs on an ended writer. -/
structure Demultiplexed (es : List Step) : Prop where
  answered : ∀ xs ys c id msg, es = xs ++ ys → Run.run step init xs = some c → c.phase id = some (.answered msg) →
    (replyId msg = some id ∧
      ∃ us vs b, xs = us ++ .receive msg :: vs ∧ Run.run step init us = some b ∧ b.phase id = some .waiting) ∧
    ∀ t, Run.run step c ys = some t → t.phase id = some (.answered msg)
  slotless : ∀ xs ys c id, es = xs ++ ys → Run.run step init xs = some c →
    c.phase id = some .timedOut ∨ (∃ closed, c.phase id = some (.refused closed)) → id ∉ c.replies
  closed : ∀ xs ys c, es = xs ++ ys → Run.run step init xs = some c → c.closed = true →
    c.replies = ∅ ∧ (∀ id c', c.step (.enqueue id) = some c' → ∃ closed, c'.phase id = some (.refused closed)) ∧
      ∀ t, Run.run step c ys = some t → t.closed = true
  resolved : Run.Always step (fun c => ¬ c.Hung) init es

/-- **Demultiplexing.**  In every interleaving the replies reach the calls they are for and no slot
is left behind, exactly if the writer never ends while it holds the frame of a call without a
timeout and the reader reads on. -/
theorem demux {es : List Step} {t : Connection} (h : Run.run step init es = some t) :
    Demultiplexed es ↔ Run.RunMeets step (fun c e => c.mayEnd e = true) init es := by
  rw [← Run.always_iff_runMeets step inv_init (P := fun c => ¬ c.Hung) (fun hh => Bool.noConfusion hh.1)
    (fun c e c' hi he => inv_step hi (step_cases he))
    (fun c e c' hi hfree he => hung_step hi hfree (step_cases he)) h]
  refine ⟨fun hd => hd.resolved, fun hall => ⟨?_, ?_, ?_, hall⟩⟩
  · intro xs ys c id msg _ hc hph
    refine ⟨answered_by hc id msg hph, fun t ht => ?_⟩
    have hboth : Inv t ∧ t.phase id = some (.answered msg) :=
      Run.run_invariant step (I := fun c => Inv c ∧ c.phase id = some (.answered msg)) ⟨inv_run hc, hph⟩
        (fun c e c' hi he => ⟨inv_step hi.1 (step_cases he), answered_stays (step_cases he) hi.2 hi.1⟩) ht
    exact hboth.2
  · intro xs ys c id _ hc hph hid
    rcases (inv_run hc).slots id hid with hwait | helapsed
    · rw [hwait] at hph
      rcases hph with hph | ⟨closed, hph⟩ <;> cases hph
    · rw [helapsed] at hph
      rcases hph with hph | ⟨closed, hph⟩ <;> cases hph
  · intro xs ys c _ hc hclosed
    refine ⟨((inv_run hc).closed hclosed).1, ?_, ?_⟩
    · intro id c' hstep
      exact enqueue_closed (step_cases hstep) hclosed
    · intro t ht
      exact Run.run_invariant step (I := fun c => c.closed = true) hclosed
        (fun c e c' hi he => closed_stays (step_cases he) hi) ht

/-! ## Traces -/

def sendRequest : Request := ⟨"Page.enable", .obj [], none, false⟩

/-- A call, its reply, and an orderly close. -/
theorem demux_answered : Demultiplexed [.number sendRequest, .enqueue 1, .write true,
    .receive (.obj [("id", .posInt 1), ("result", .obj [])]), .close, .write true, .streamEnds, .markClosed] := by
  have hrun : (Run.run step init [.number sendRequest, .enqueue 1, .write true,
      .receive (.obj [("id", .posInt 1), ("result", .obj [])]), .close, .write true, .streamEnds,
      .markClosed]).map (fun c => c.closed) = some true := by decide
  obtain ⟨c, hc, -⟩ := Option.map_eq_some_iff.mp hrun
  exact (demux hc).mpr (by decide)

/-- **A send after close.**  A `send` that comes after `close()` is queued behind `Close`,
where the writer ends: while the peer does not close, the call waits. -/
theorem send_after_close_hangs :
    ¬ Demultiplexed [.close, .number sendRequest, .enqueue 1, .write true] := by
  intro h
  have hrun : (Run.run step init [.close, .number sendRequest, .enqueue 1, .write true]).map
      (fun c => (c.writerEnded, c.reader, decide (1 ∈ c.replies), decide (1 ∈ c.written), c.untimed 1)) =
      some (true, .running, true, false, true) := by decide
  obtain ⟨c, hc, hfields⟩ := Option.map_eq_some_iff.mp hrun
  simp only [Prod.mk.injEq, decide_eq_true_eq, decide_eq_false_iff_not] at hfields
  obtain ⟨hended, hreader, hslot, hunwritten, huntimed⟩ := hfields
  exact h.resolved _ [] c (List.append_nil _).symm hc ⟨hended, hreader, 1, hslot, hunwritten, huntimed⟩

end Afhttp.Cdp.Connection

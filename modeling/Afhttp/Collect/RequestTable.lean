import Afhttp.Collect.Network

/-!
# The request table

What a step of the collector does to its requests, without the clock: an id has an entry or has
none, and there are so many ids.  A step makes one of four changes, and it makes them to the table
as to the state.

    (collectorStep cfg inner e).table = inner.table.apply cfg (changeOf cfg inner e)    (table_step)
-/

namespace Afhttp.Collect

open Text Fetch

structure RequestTable where
  entry : String → Option NetworkEntry
  size : ℕ
  main : Option String
  hops : String → ℕ
  truncated : Bool

/-- The events that write to an entry. -/
inductive Report where
  | response | finished | failed | cached
  deriving DecidableEq

def Report.write (cfg : CollectorConfig) (params : Json) : Report → NetworkEntry → NetworkEntry
  | response => respond cfg.lib cfg.redactHeaders params
  | finished => finishLoading cfg.lib params
  | failed => failLoading params
  | cached => fun entry => { entry with hints := entry.hints.insert "served_from_cache" (.bool true) }

inductive Change where
  | announce (params : Json)
  | report (r : Report) (params : Json)
  | choose (id : String)
  | keep

/-! ## Changes to a table -/

theorem hopId_ne (id : String) (count : ℕ) : hopId id count ≠ id := by
  intro h
  have hlen := congrArg String.length h
  unfold hopId at hlen
  rw [String.length_append, String.length_append] at hlen
  have hmark : "#redirect".length = 9 := rfl
  omega

namespace RequestTable

def empty : RequestTable := ⟨fun _ => none, 0, none, fun _ => 0, false⟩

def put (t : RequestTable) (id : String) (entry : NetworkEntry) : RequestTable :=
  { t with
    entry := Function.update t.entry id (some entry)
    size := t.size + if (t.entry id).isSome then 0 else 1 }

def write (t : RequestTable) (id : String) (f : NetworkEntry → NetworkEntry) : RequestTable :=
  { t with entry := Function.update t.entry id ((t.entry id).map f) }

def limit (t : RequestTable) (resourceType : String) : ℕ :=
  if t.main = none ∧ resourceType ≠ "Document" then networkEntryLimit - 1 else networkEntryLimit

end RequestTable

section
variable (cfg : CollectorConfig) (params : Json)

/-- The request of an event. -/
def idOf : String := stringField params "requestId"

def announced : NetworkEntry := announcedEntry cfg.lib cfg.redactHeaders params

def typeOf : String := (announced cfg params).resourceType

/-- The announcement is of a Document. -/
def IsDocument : Prop := typeOf cfg params = "Document"

instance : Decidable (IsDocument cfg params) := inferInstanceAs (Decidable (_ = _))

namespace RequestTable
variable (t : RequestTable)

def Refuses : Prop := idOf params = "" ∨ (t.entry (idOf params) = none ∧ t.limit (typeOf cfg params) ≤ t.size)

instance : Decidable (t.Refuses cfg params) := inferInstanceAs (Decidable (_ ∨ (_ ∧ _)))

/-- The first Document becomes the main one. -/
def claimMain : RequestTable :=
  if IsDocument cfg params ∧ t.main = none then { t with main := some (idOf params) } else t

/-- The hop that an announcement ends, with the response that ended it. -/
def ending : Option (Json × NetworkEntry) :=
  (params.get "redirectResponse").bind fun redirect => (t.entry (idOf params)).map fun hop => (redirect, hop)

def hopAt : String := hopId (idOf params) (t.hops (idOf params))

/-- The ended hop under an id of its own. -/
def moveHop (redirect : Json) (hop : NetworkEntry) : RequestTable :=
  { t.put (t.hopAt params) (endedHop cfg.lib cfg.redactHeaders params redirect (t.hopAt params) hop) with
    hops := Function.update t.hops (idOf params) (t.hops (idOf params) + 1) }

def link (origin : Option String) : RequestTable :=
  t.put (idOf params) { announced cfg params with redirectFromRequestId := origin }

/-- The ended hop moves, if the limit leaves room. -/
def endHop : RequestTable × Option String :=
  match t.ending params with
  | none => (t, none)
  | some (redirect, hop) =>
    if networkEntryLimit < t.size + 1 then ({ t with truncated := true }, none)
    else (t.moveHop cfg params redirect hop, some (t.hopAt params))

def accept : RequestTable := (t.endHop cfg params).1.link cfg params (t.endHop cfg params).2

def announce : RequestTable :=
  if t.Refuses cfg params then { t with truncated := true } else (t.claimMain cfg params).accept cfg params

def apply : Change → RequestTable
  | .announce params => t.announce cfg params
  | .report r params => t.write (idOf params) (r.write cfg params)
  | .choose id => { t with main := some id }
  | .keep => t

@[simp] theorem put_entry_self (id : String) (entry : NetworkEntry) : (t.put id entry).entry id = some entry :=
  Function.update_self ..

theorem put_entry_of_ne {id k : String} (entry : NetworkEntry) (h : k ≠ id) : (t.put id entry).entry k = t.entry k :=
  Function.update_of_ne h ..

theorem write_entry_of_ne {id k : String} (f : NetworkEntry → NetworkEntry) (h : k ≠ id) :
    (t.write id f).entry k = t.entry k := Function.update_of_ne h ..

theorem write_entry_self (id : String) (f : NetworkEntry → NetworkEntry) :
    (t.write id f).entry id = (t.entry id).map f := Function.update_self ..

theorem write_entry (id k : String) (f : NetworkEntry → NetworkEntry) :
    (t.write id f).entry k = (t.entry k).map fun entry => if k = id then f entry else entry := by
  by_cases h : k = id
  · subst h
    rw [write_entry_self]
    simp only [if_true]
  · rw [write_entry_of_ne _ _ h]
    simp only [if_neg h, Option.map_id']

@[simp] theorem claimMain_entry : (t.claimMain cfg params).entry = t.entry := by
  unfold claimMain
  split <;> rfl

@[simp] theorem claimMain_size : (t.claimMain cfg params).size = t.size := by
  unfold claimMain
  split <;> rfl

@[simp] theorem claimMain_hops : (t.claimMain cfg params).hops = t.hops := by
  unfold claimMain
  split <;> rfl

@[simp] theorem claimMain_truncated : (t.claimMain cfg params).truncated = t.truncated := by
  unfold claimMain
  split <;> rfl

/-- What an announcement does, once it is accepted: there is no hop to end, there is one but no room
for it, or it moves. -/
theorem accept_cases :
    (t.ending params = none ∧ t.accept cfg params = t.link cfg params none) ∨
    ∃ redirect hop, params.get "redirectResponse" = some redirect ∧ t.entry (idOf params) = some hop ∧
      ((networkEntryLimit ≤ t.size ∧ t.accept cfg params = { t with truncated := true }.link cfg params none) ∨
        (t.size < networkEntryLimit ∧ t.accept cfg params =
          (t.moveHop cfg params redirect hop).link cfg params (some (t.hopAt params)))) := by
  unfold accept endHop
  cases h : t.ending params with
  | none => exact .inl ⟨rfl, rfl⟩
  | some r =>
    right
    unfold ending at h
    obtain ⟨redirect, hredirect, hmap⟩ := Option.bind_eq_some_iff.mp h
    obtain ⟨hop, hhop, rfl⟩ := Option.map_eq_some_iff.mp hmap
    refine ⟨redirect, hop, hredirect, hhop, ?_⟩
    by_cases hroom : networkEntryLimit < t.size + 1
    · refine .inl ⟨Nat.lt_succ_iff.mp hroom, ?_⟩
      dsimp only
      rw [if_pos hroom]
    · refine .inr ⟨by omega, ?_⟩
      dsimp only
      rw [if_neg hroom]

theorem accept_entry_self : ∃ origin,
    (t.accept cfg params).entry (idOf params) = some { announced cfg params with redirectFromRequestId := origin } := by
  obtain ⟨-, hacc⟩ | ⟨redirect, hop, -, -, ⟨-, hacc⟩ | ⟨-, hacc⟩⟩ := t.accept_cases cfg params
  all_goals
    rw [hacc]
    exact ⟨_, put_entry_self _ _ _⟩

/-- An announcement leaves all entries but two alone. -/
theorem accept_entry_of_ne {k : String} (hk : k ≠ idOf params) (hat : k ≠ t.hopAt params) :
    (t.accept cfg params).entry k = t.entry k := by
  obtain ⟨-, hacc⟩ | ⟨redirect, hop, -, -, ⟨-, hacc⟩ | ⟨-, hacc⟩⟩ := t.accept_cases cfg params
  · rw [hacc]
    exact put_entry_of_ne _ _ hk
  · rw [hacc]
    exact put_entry_of_ne _ _ hk
  · rw [hacc]
    exact (put_entry_of_ne _ _ hk).trans (put_entry_of_ne _ _ hat)

/-- Where an entry comes from once an announcement is accepted. -/
theorem accept_entry_cases {k : String} {entry : NetworkEntry} (h : (t.accept cfg params).entry k = some entry) :
    (k = idOf params ∧ ∃ origin, entry = { announced cfg params with redirectFromRequestId := origin }) ∨
    (k = t.hopAt params ∧ ∃ redirect hop, params.get "redirectResponse" = some redirect ∧
      t.entry (idOf params) = some hop ∧ t.size < networkEntryLimit ∧
      entry = endedHop cfg.lib cfg.redactHeaders params redirect (t.hopAt params) hop) ∨
    t.entry k = some entry := by
  have hlink (t' : RequestTable) (origin : Option String) (h : (t'.link cfg params origin).entry k = some entry) :
      (k = idOf params ∧ ∃ origin, entry = { announced cfg params with redirectFromRequestId := origin }) ∨
        t'.entry k = some entry := by
    by_cases hk : k = idOf params
    · subst hk
      rw [show (t'.link cfg params origin).entry (idOf params) =
        some { announced cfg params with redirectFromRequestId := origin } from t'.put_entry_self _ _] at h
      exact .inl ⟨rfl, origin, (Option.some.inj h).symm⟩
    · exact .inr (by rw [← h]; exact (t'.put_entry_of_ne _ hk).symm)
  obtain ⟨-, hacc⟩ | ⟨redirect, hop, hr, hhop, ⟨-, hacc⟩ | ⟨hroom, hacc⟩⟩ := t.accept_cases cfg params
  · rw [hacc] at h
    exact (hlink _ _ h).imp_right .inr
  · rw [hacc] at h
    exact (hlink _ _ h).imp_right .inr
  · rw [hacc] at h
    refine (hlink _ _ h).imp_right fun hold => ?_
    by_cases hat : k = t.hopAt params
    · subst hat
      rw [show (t.moveHop cfg params redirect hop).entry (t.hopAt params) = some _ from t.put_entry_self _ _] at hold
      exact .inl ⟨rfl, redirect, hop, hr, hhop, hroom, (Option.some.inj hold).symm⟩
    · exact .inr (by rw [← hold]; exact (t.put_entry_of_ne _ hat).symm)

end RequestTable
end

/-! ## The table of a state -/

/-- `entry`: the entry of a request. -/
def NetworkInner.entry (inner : NetworkInner) (id : String) : Option NetworkEntry :=
  inner.slots[id]?.map NetworkSlot.entry

def NetworkInner.table (inner : NetworkInner) : RequestTable where
  entry := inner.entry
  size := inner.slots.size
  main := inner.mainRequestId
  hops := fun id => inner.redirectHops[id]?.getD 0
  truncated := inner.truncated

def reportOf (method : String) : Option Report :=
  if method = "Network.responseReceived" then some .response
  else if method = "Network.loadingFinished" then some .finished
  else if method = "Network.loadingFailed" then some .failed
  else if method = "Network.requestServedFromCache" then some .cached
  else none

def eventChange (event : CdpEvent) : Change :=
  if event.method = "Network.requestWillBeSent" then .announce event.params
  else (reportOf event.method).elim .keep fun r => .report r event.params

/-- The change that a step makes. -/
def changeOf (cfg : CollectorConfig) (inner : NetworkInner) : CollectorStep → Change
  | .event event _ => if event.sessionId = some cfg.sessionId then eventChange event else .keep
  | .lagged _ _ => .keep
  | .select mainFrameId order =>
    (maxByKey (·.entry.timing.startMonotonicMs) ((inner.values order).filter (isMainCandidate mainFrameId))).elim
      .keep fun main => .choose main.entry.requestId

theorem contains_eq_isSome (inner : NetworkInner) (id : String) :
    inner.slots.contains id = (inner.entry id).isSome := by
  unfold NetworkInner.entry
  rw [Option.isSome_map, Std.ExtTreeMap.isSome_getElem?_eq_contains]

theorem table_touch (now : ℕ) (event : CdpEvent) (inner : NetworkInner) :
    (touch now event inner).table = inner.table := by
  have hentry (id : String) : (touch now event inner).entry id = inner.entry id := by
    unfold touch NetworkInner.entry
    dsimp only
    split
    · split
      · rw [map_modify]
        split
        · next h => rw [h, Option.map_map]; rfl
        · rfl
      · rfl
    · rfl
  have hsize : (touch now event inner).slots.size = inner.slots.size := by
    unfold touch
    dsimp only
    split
    · split
      · exact Std.ExtTreeMap.size_modify
      · rfl
    · rfl
  unfold NetworkInner.table
  rw [hsize, funext hentry]
  rfl

theorem table_update (inner : NetworkInner) (id : String) (f : NetworkEntry → NetworkEntry) :
    (inner.update id f).table = inner.table.write id f := by
  have hentry : (inner.update id f).entry = Function.update inner.entry id ((inner.entry id).map f) := by
    funext k
    unfold NetworkInner.update NetworkInner.entry
    rw [Function.update_apply, map_modify]
    by_cases h : id = k
    · subst h
      rw [if_pos rfl, if_pos rfl, Option.map_map, Option.map_map]
      rfl
    · rw [if_neg h, if_neg (Ne.symm h)]
  unfold NetworkInner.table RequestTable.write
  rw [hentry]
  congr 1
  exact Std.ExtTreeMap.size_modify

theorem table_recordFinished (inner : NetworkInner) (id : String) : (inner.recordFinished id).table = inner.table := by
  unfold NetworkInner.recordFinished
  split <;> rfl

theorem table_insert (inner : NetworkInner) (id : String) (slot : NetworkSlot) :
    { inner with slots := inner.slots.insert id slot }.table = inner.table.put id slot.entry := by
  unfold NetworkInner.table RequestTable.put
  congr 1
  · funext k
    unfold NetworkInner.entry
    rw [Function.update_apply, map_insert]
    by_cases h : id = k
    · rw [if_pos h, if_pos h.symm]
      rfl
    · rw [if_neg h, if_neg (Ne.symm h)]
  · show (inner.slots.insert id slot).size = inner.slots.size + if (inner.entry id).isSome then 0 else 1
    rw [Std.ExtTreeMap.size_insert, ← contains_eq_isSome]
    split <;> rfl

/-- The new entry is put in, linked to the hop that ended. -/
def withEntry (ended : NetworkInner × Option String) (id : String) (entry : NetworkEntry) (now : ℕ) : NetworkInner :=
  { ended.1 with slots := ended.1.slots.insert id ⟨{ entry with redirectFromRequestId := ended.2 }, now, now⟩ }

theorem table_ending (params : Json) (inner : NetworkInner) :
    inner.table.ending params = (endingHop params inner).map fun r => (r.1, r.2.entry) := by
  unfold RequestTable.ending endingHop
  rw [Option.map_bind]
  congr 1
  funext redirect
  show ((inner.slots[idOf params]?.map NetworkSlot.entry).map fun hop => (redirect, hop)) = _
  rw [Option.map_map, Function.comp_apply, Option.map_map]
  rfl

theorem size_erase_add_two {inner : NetworkInner} {id : String} {hop : NetworkSlot} (h : inner.slots[id]? = some hop) :
    (inner.slots.erase id).size + 2 = inner.slots.size + 1 := by
  have hmem : id ∈ inner.slots := by
    rw [← Std.ExtTreeMap.contains_iff_mem, map_contains]
    exact ⟨hop, h⟩
  have hpos : inner.slots.size ≠ 0 := by
    intro hzero
    rw [← Std.ExtTreeMap.eq_empty_iff_size_eq_zero] at hzero
    rw [hzero] at hmem
    exact Std.ExtTreeMap.not_mem_empty hmem
  rw [Std.ExtTreeMap.size_erase, if_pos (Std.ExtTreeMap.contains_iff_mem.mpr hmem)]
  omega

/-- The hop moves, and the new entry takes its place. -/
theorem table_moveHop (cfg : CollectorConfig) (params redirect : Json) (inner : NetworkInner) (hop : NetworkSlot)
    (now : ℕ) :
    let id := inner.table.hopAt params
    let moved := { hop with entry := endedHop cfg.lib cfg.redactHeaders params redirect id hop.entry }
    (withEntry ({ inner with
        slots := (inner.slots.erase (idOf params)).insert id moved
        redirectHops := inner.redirectHops.insert (idOf params) (inner.table.hops (idOf params) + 1) }, some id)
      (idOf params) (announced cfg params) now).table =
      (inner.table.moveHop cfg params redirect hop.entry).put (idOf params)
        { announced cfg params with redirectFromRequestId := some id } := by
  intro id moved
  unfold withEntry
  dsimp only
  rw [map_insert_insert_erase]
  let inner' : NetworkInner := { inner with
    slots := inner.slots.insert id moved
    redirectHops := inner.redirectHops.insert (idOf params) (inner.table.hops (idOf params) + 1) }
  have hmoved : inner'.table = inner.table.moveHop cfg params redirect hop.entry := by
    have hput := table_insert inner id moved
    have hhops (k : String) : inner'.table.hops k =
        Function.update inner.table.hops (idOf params) (inner.table.hops (idOf params) + 1) k := by
      show ((inner.redirectHops.insert (idOf params) (inner.table.hops (idOf params) + 1))[k]?).getD 0 = _
      rw [map_insert, Function.update_apply]
      by_cases h : idOf params = k
      · rw [if_pos h, if_pos h.symm]
        rfl
      · rw [if_neg h, if_neg (Ne.symm h)]
        rfl
    unfold RequestTable.moveHop
    rw [← funext hhops]
    change _ = { inner.table.put id moved.entry with hops := inner'.table.hops }
    rw [← hput]
    rfl
  rw [← hmoved]
  exact table_insert inner' _ _

/-- A hop is ended in the table as in the state, once the new entry is in. -/
theorem table_endHop (cfg : CollectorConfig) (params : Json) (inner : NetworkInner) (now : ℕ) :
    (withEntry (endHop cfg.lib cfg.redactHeaders params inner) (idOf params) (announced cfg params) now).table =
      inner.table.accept cfg params := by
  unfold RequestTable.accept RequestTable.endHop RequestTable.link endHop
  rw [table_ending]
  cases h : endingHop params inner with
  | none => exact table_insert inner _ _
  | some r =>
    obtain ⟨redirect, hop⟩ := r
    have hslot : inner.slots[idOf params]? = some hop := by
      unfold endingHop at h
      obtain ⟨_, -, hmap⟩ := Option.bind_eq_some_iff.mp h
      obtain ⟨_, hslot, hpair⟩ := Option.map_eq_some_iff.mp hmap
      cases hpair
      exact hslot
    have hsize := size_erase_add_two hslot
    dsimp only [Option.map_some]
    change (inner.slots.erase (stringField params "requestId")).size + 2 = inner.table.size + 1 at hsize
    rw [hsize]
    by_cases hroom : networkEntryLimit < inner.table.size + 1
    · rw [if_pos hroom, if_pos hroom]
      unfold withEntry
      dsimp only
      change NetworkInner.table { inner with slots := (inner.slots.erase (idOf params)).insert (idOf params) _, truncated := true } = _
      rw [map_insert_erase]
      exact table_insert { inner with truncated := true } _ _
    · rw [if_neg hroom, if_neg hroom]
      exact table_moveHop cfg params redirect inner hop now

theorem refuses_iff (cfg : CollectorConfig) (params : Json) (inner : NetworkInner) :
    ((stringField params "requestId").isEmpty || (!inner.slots.contains (stringField params "requestId") &&
      decide (slotLimit inner (announcedEntry cfg.lib cfg.redactHeaders params).resourceType ≤ inner.slots.size))) =
      true ↔ inner.table.Refuses cfg params := by
  have hlimit : slotLimit inner (typeOf cfg params) = inner.table.limit (typeOf cfg params) := by
    unfold slotLimit RequestTable.limit
    simp only [Bool.and_eq_true, Option.isNone_iff_eq_none, bne_iff_ne]
    rfl
  rw [Bool.or_eq_true, Bool.and_eq_true, contains_eq_isSome, Bool.not_eq_true', Option.isSome_eq_false_iff,
    Option.isNone_iff_eq_none, decide_eq_true_iff, String.isEmpty_iff]
  change _ ∨ (_ ∧ slotLimit inner (typeOf cfg params) ≤ _) ↔ _
  rw [hlimit]
  rfl

theorem table_requestWillBeSent (cfg : CollectorConfig) (params : Json) (inner : NetworkInner) (now : ℕ) :
    (requestWillBeSent cfg.lib cfg.redactHeaders now params inner).1.table = inner.table.announce cfg params := by
  unfold requestWillBeSent RequestTable.announce
  dsimp only
  by_cases hrefuse : inner.table.Refuses cfg params
  · rw [if_pos ((refuses_iff cfg params inner).mpr hrefuse), if_pos hrefuse]
    rfl
  · rw [if_neg (fun h => hrefuse ((refuses_iff cfg params inner).mp h)), if_neg hrefuse]
    let claimed : NetworkInner :=
      if typeOf cfg params == "Document" && inner.mainRequestId.isNone then { inner with mainRequestId := some (idOf params) }
      else inner
    have hclaimed : claimed.table = inner.table.claimMain cfg params := by
      unfold RequestTable.claimMain claimed
      simp only [Bool.and_eq_true, beq_iff_eq, Option.isNone_iff_eq_none]
      exact apply_ite NetworkInner.table _ _ _
    rw [← hclaimed]
    exact table_endHop cfg params claimed now

theorem table_handleEvent (cfg : CollectorConfig) (event : CdpEvent) (inner : NetworkInner) (now : ℕ) :
    (handleEvent cfg.lib cfg.redactHeaders now event inner).1.table = inner.table.apply cfg (eventChange event) := by
  rw [← table_touch now event inner]
  unfold handleEvent eventChange reportOf
  dsimp only
  split_ifs
  · exact table_requestWillBeSent cfg event.params _ now
  · exact table_update _ _ _
  · rw [table_recordFinished]
    exact table_update _ _ _
  · rw [table_recordFinished]
    exact table_update _ _ _
  · exact table_update _ _ _
  · rfl

/-- **A step makes its change to the table.** -/
theorem table_step (cfg : CollectorConfig) (inner : NetworkInner) (e : CollectorStep) :
    (collectorStep cfg inner e).table = inner.table.apply cfg (changeOf cfg inner e) := by
  cases e with
  | event event now =>
    unfold collectorStep onEvent changeOf
    dsimp only
    split
    · exact table_handleEvent cfg event inner now
    · rfl
  | lagged count now => rfl
  | select mainFrameId order =>
    unfold collectorStep selectMainDocument changeOf
    dsimp only
    split
    · next main hmax =>
      rw [hmax]
      rfl
    · next hmax =>
      rw [hmax]
      rfl

/-! ## Runs -/

def CollectorStep.announcement (cfg : CollectorConfig) : CollectorStep → Option Json
  | .event ev _ =>
    if ev.sessionId = some cfg.sessionId ∧ ev.method = "Network.requestWillBeSent" then some ev.params else none
  | _ => none

def Change.announcement : Change → Option Json
  | .announce params => some params
  | _ => none

theorem announcement_changeOf (cfg : CollectorConfig) (inner : NetworkInner) (e : CollectorStep) :
    (changeOf cfg inner e).announcement = e.announcement cfg := by
  cases e with
  | event event now =>
    unfold changeOf eventChange CollectorStep.announcement
    dsimp only
    by_cases hs : event.sessionId = some cfg.sessionId
    · by_cases hm : event.method = "Network.requestWillBeSent"
      · rw [if_pos hs, if_pos hm, if_pos ⟨hs, hm⟩]
        rfl
      · rw [if_pos hs, if_neg hm, if_neg (fun h => hm h.2)]
        cases reportOf event.method <;> rfl
    · rw [if_neg hs, if_neg (fun h => hs h.1)]
      rfl
  | lagged count now => rfl
  | select mainFrameId order =>
    unfold changeOf
    dsimp only
    cases maxByKey (·.entry.timing.startMonotonicMs) ((inner.values order).filter (isMainCandidate mainFrameId)) <;> rfl

theorem changeOf_of_announcement {cfg : CollectorConfig} {inner : NetworkInner} {e : CollectorStep} {params : Json}
    (h : e.announcement cfg = some params) : changeOf cfg inner e = .announce params := by
  rw [← announcement_changeOf cfg inner] at h
  cases hc : changeOf cfg inner e with
  | announce p =>
    rw [hc] at h
    cases h
    rfl
  | report r p =>
    rw [hc] at h
    cases h
  | choose id =>
    rw [hc] at h
    cases h
  | keep =>
    rw [hc] at h
    cases h

theorem collect_concat (cfg : CollectorConfig) (es : List CollectorStep) (e : CollectorStep) :
    collect cfg (es ++ [e]) = collectorStep cfg (collect cfg es) e := by
  unfold collect
  rw [List.foldl_append]
  rfl

theorem table_default : NetworkInner.default.table = .empty := rfl

/-- **History rule.**  A relation between the steps so far and the table holds of every run if it
holds of none and each step keeps it. -/
theorem collect_history {cfg : CollectorConfig} {P : List CollectorStep → RequestTable → Prop} (h₀ : P [] .empty)
    (hs : ∀ es e, P es (collect cfg es).table →
      P (es ++ [e]) ((collect cfg es).table.apply cfg (changeOf cfg (collect cfg es) e)))
    (es : List CollectorStep) : P es (collect cfg es).table := by
  induction es using List.reverseRecOn with
  | nil =>
    rw [show collect cfg [] = NetworkInner.default from rfl, table_default]
    exact h₀
  | append_singleton es e ih =>
    rw [collect_concat, table_step]
    exact hs es e ih

/-! ## Samples -/

def sampleLib : CollectorLib where
  millis v := v.asU64.getD 0
  isSize _ := true
  display _ := ""
  fromStr _ := none

def sampleConfig : CollectorConfig := ⟨sampleLib, "S", true⟩

/-- An event of the sample session. -/
def sampleEvent (method : String) (fields : List (String × Json)) : CollectorStep := .event ⟨method, some "S", .obj fields⟩ 0

def sampleParams (id resourceType : String) (rest : List (String × Json)) : Json :=
  .obj (("requestId", .str id) :: ("type", .str resourceType) :: rest)

def sampleAnnouncement (id resourceType : String) (rest : List (String × Json)) : CollectorStep :=
  .event ⟨"Network.requestWillBeSent", some "S", sampleParams id resourceType rest⟩ 0

end Afhttp.Collect

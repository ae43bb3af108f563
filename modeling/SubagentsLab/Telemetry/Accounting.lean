import SubagentsLab.Telemetry.Acceptance

/-!
# Telemetry/Accounting — every work item is accounted for once

While a turn is open, a work item has a record once it is finalized, and is open for the sweep until then
(`Tracks`).  Finalizing the turn finalizes the rest, so in the end every work item that was made has exactly
one record, and the turn has one, whose counters add up to the number of work items (`turn_accounted`).
-/

namespace SubagentsLab

open Machinery

namespace PerfMetric

namespace Recording

variable {elapsedMs : ℕ → ℕ → PyFloat} {s : Recording}

/-! ## One call -/

/-- A work item that is not there or is finalized is left alone. -/
theorem finalizeChild_idle {i : ℕ} (h : ∀ child, s.children[i]? = some child → child.finalized = true) (outcome : PyStr)
    (details : ChildDetails) : s.finalizeChild elapsedMs i outcome details = s := by
  rw [finalizeChild]
  split
  · rfl
  · rename_i child hchild
    rw [if_pos (h child hchild)]

/-- The outcome a work item is recorded with. -/
def childOutcome (outcome : PyStr) : String := (member workItemOutcomes outcome).getD "failed"

theorem childOutcome_mem (outcome : PyStr) : childOutcome outcome ∈ workItemOutcomes := by
  rw [childOutcome]
  rcases h : member workItemOutcomes outcome with _ | value
  · decide
  · exact mem_of_member h

/-- What is done with a work item that is open. -/
theorem finalizeChild_open {i : ℕ} {child : WorkItemRecorder} (hchild : s.children[i]? = some child)
    (hopen : child.finalized = false) (outcome : PyStr) (details : ChildDetails) :
    s.finalizeChild elapsedMs i outcome details =
      { turn := recordChild s.turn child.workItemId (childOutcome outcome)
        children := s.children.set i { child with finalized := true }
        readings := s.readings + 1
        emitted := s.emitted ++ (buildRecord "work_item_foreground" (childFields s.turn child.workItemId
          (childOutcome outcome) (elapsedMs child.start s.readings) details)).toList } := by
  rw [finalizeChild, hchild]
  dsimp only
  rw [hopen, if_neg Bool.false_ne_true]
  rfl

/-! ## Counting -/

theorem counterFor_mem (outcome : String) : counterFor outcome ∈ appTurnCounterFields := by
  rw [counterFor]
  rcases h : Dict.find outcome childCounterForOutcome with _ | counter
  · decide
  · have hmem := (Dict.find_eq_some_iff (by decide)).mp h
    exact (by decide : ∀ entry ∈ childCounterForOutcome, entry.2 ∈ appTurnCounterFields) _ hmem

theorem sum_map_bump {names : List String} (hnodup : names.Nodup) {counter : String} (hmem : counter ∈ names)
    (f : String → ℕ) : (names.map fun name => if name = counter then f counter + 1 else f name).sum = (names.map f).sum + 1 := by
  induction names with
  | nil => cases hmem
  | cons name names ih =>
    obtain ⟨hnot, hnodup⟩ := List.nodup_cons.mp hnodup
    rw [List.map_cons, List.map_cons, List.sum_cons, List.sum_cons]
    rcases List.mem_cons.mp hmem with rfl | hmem
    · have hsame : (names.map fun other => if other = counter then f counter + 1 else f other) = names.map f :=
        List.map_congr_left fun other hother => if_neg fun heq : other = counter => hnot (heq ▸ hother)
      rw [if_pos rfl, hsame]
      omega
    · rw [if_neg fun heq : name = counter => hnot (heq ▸ hmem), ih hnodup hmem]
      omega

/-- **A work item adds one to its counter**, and so one to all of them. -/
theorem total_recordChild (turn : AppTurnRecorder) (workItemId : PyStr) (outcome : String) :
    total (recordChild turn workItemId outcome).counters = total turn.counters + 1 := by
  rw [total, total, ← sum_map_bump (by decide) (counterFor_mem outcome) (count turn.counters)]
  refine congrArg List.sum (List.map_congr_left fun name _ => ?_)
  rw [count, recordChild, Dict.get?_set]
  split_ifs <;> rfl

theorem keyed_recordChild {turn : AppTurnRecorder} (h : Keyed turn.counters) (workItemId : PyStr) (outcome : String) :
    Keyed (recordChild turn workItemId outcome).counters := by
  intro name
  rw [recordChild, Dict.get?_set]
  split_ifs with hname
  · exact ⟨fun _ => hname ▸ counterFor_mem outcome, fun _ => rfl⟩
  · exact h name

/-! ## The records of work items -/

/-- The work items of the records of work items. -/
def recorded (s : Recording) : List (Option FieldValue) :=
  (s.emitted.filter (·.event = "work_item_foreground")).map fun record => record.fields.get? "work_item_id"

/-- The records of the turn. -/
def turnRecords (s : Recording) : List MeasurementRecord := s.emitted.filter (·.event = "app_turn_foreground")

/-- The work items that are finalized. -/
def finalizedIds (s : Recording) : List (Option FieldValue) :=
  (s.children.filter (·.finalized)).map fun child => some (.str child.workItemId)

/-- Finalizing one adds it to those that are. -/
theorem finalized_set {children : List WorkItemRecorder} {i : ℕ} {child : WorkItemRecorder}
    (hchild : children[i]? = some child) (hopen : child.finalized = false) :
    ((children.set i { child with finalized := true }).filter (·.finalized)).Perm
      (children.filter (·.finalized) ++ [{ child with finalized := true }]) := by
  obtain ⟨hlt, hget⟩ := List.getElem?_eq_some_iff.mp hchild
  obtain ⟨before, after, hsplit, -, hset⟩ := @List.exists_of_set _ _ { child with finalized := true } _ hlt
  rw [hget] at hsplit
  rw [hset, hsplit, List.filter_append, List.filter_append, List.filter_cons_of_pos rfl,
    List.filter_cons_of_neg (by simp [hopen]), List.append_assoc]
  exact (List.perm_append_singleton _ _).symm.append_left _

/-- **What holds while work items come and go**: those that were made are the ones with these identifiers, the
open ones are known for the sweep, and the finalized ones have a record and are counted. -/
structure Tracks (ids : List PyStr) (s : Recording) : Prop where
  turn : ValidTurn s.turn.sessionId s.turn.originEpoch s.turn.turnId
  made : s.children.map WorkItemRecorder.workItemId = ids
  distinct : ids.Nodup
  valid : ∀ id ∈ ids, ValidId 128 id
  begun : s.turn.start < s.readings ∧ ∀ child ∈ s.children, child.start < s.readings
  open_iff : ∀ id i, s.turn.openChildren.get? id = some i ↔
    ∃ child, s.children[i]? = some child ∧ child.workItemId = id ∧ child.finalized = false
  recorded_perm : s.recorded.Perm s.finalizedIds
  dispatched : s.turn.dispatchedChildren = s.finalizedIds.length
  totalled : total s.turn.counters = s.turn.dispatchedChildren
  keyed : Keyed s.turn.counters
  routing : ∀ value, s.turn.routingMs = some value → Accepted (.ms "routing_ms") value
  commit : ∀ value, s.turn.commitMs = some value → Accepted (.ms "commit_ms") value

/-- Two work items of one identifier are one. -/
theorem Tracks.index_eq {ids : List PyStr} (h : Tracks ids s) {i j : ℕ} {child other : WorkItemRecorder}
    (hchild : s.children[i]? = some child) (hother : s.children[j]? = some other)
    (hid : child.workItemId = other.workItemId) : i = j := by
  have hi : ids[i]? = some child.workItemId := by rw [← h.made, List.getElem?_map, hchild]; rfl
  have hj : ids[j]? = some child.workItemId := by rw [← h.made, List.getElem?_map, hother, hid]; rfl
  obtain ⟨hlt, -⟩ := List.getElem?_eq_some_iff.mp hi
  exact (List.getElem?_inj hlt h.distinct).mp (hi.trans hj.symm)

/-- A work item that is finalized is no longer known for the sweep; the others still are. -/
theorem Tracks.open_set {ids : List PyStr} (h : Tracks ids s) {i : ℕ} {child : WorkItemRecorder}
    (hchild : s.children[i]? = some child) (id : PyStr) (j : ℕ) :
    (s.turn.openChildren.pop child.workItemId).get? id = some j ↔
      ∃ other, (s.children.set i { child with finalized := true })[j]? = some other ∧ other.workItemId = id ∧
        other.finalized = false := by
  rw [Dict.get?_pop, List.getElem?_set]
  constructor
  · intro hget
    split_ifs at hget with hid
    obtain ⟨other, hother, hname, hunfinished⟩ := (h.open_iff id j).mp hget
    have hne : i ≠ j := by
      rintro rfl
      cases hchild.symm.trans hother
      exact hid hname.symm
    exact ⟨other, by rwa [if_neg hne], hname, hunfinished⟩
  · rintro ⟨other, hother, rfl, hunfinished⟩
    split_ifs at hother with hij hlt
    · cases hother
      cases hunfinished
    · have hid : other.workItemId ≠ child.workItemId := fun hid => hij (h.index_eq hchild hother hid.symm)
      rw [if_neg hid]
      exact (h.open_iff _ _).mpr ⟨other, hother, rfl, hunfinished⟩

/-- The work item of this number is finalized, if it is there. -/
def Finished (s : Recording) (i : ℕ) : Prop := ∀ child, s.children[i]? = some child → child.finalized = true

theorem open_or_finished (s : Recording) (i : ℕ) :
    (∃ child, s.children[i]? = some child ∧ child.finalized = false) ∨ s.Finished i := by
  rcases hchild : s.children[i]? with _ | child
  · exact .inr fun child h => (nomatch hchild.symm.trans h)
  · rcases hopen : child.finalized with _ | _
    · exact .inl ⟨child, rfl, hopen⟩
    · exact .inr fun other h => by cases hchild.symm.trans h; exact hopen

/-- Finalizing a work item finishes it, and none starts again. -/
theorem finished_finalizeChild (i : ℕ) (outcome : PyStr) (details : ChildDetails) {j : ℕ} (h : j = i ∨ s.Finished j) :
    (s.finalizeChild elapsedMs i outcome details).Finished j := by
  rcases open_or_finished s i with ⟨child, hchild, hopen⟩ | hidle
  · rw [finalizeChild_open hchild hopen]
    intro other hother
    dsimp only at hother
    rw [List.getElem?_set] at hother
    split_ifs at hother with hij
    · cases hother
      rfl
    · exact h.resolve_left (Ne.symm hij) other hother
  · rw [finalizeChild_idle hidle]
    rcases h with rfl | h
    · exact hidle
    · exact h

theorem turn_finalizeChild (i : ℕ) (outcome : PyStr) (details : ChildDetails) :
    (s.finalizeChild elapsedMs i outcome details).turn.finalized = s.turn.finalized := by
  rcases open_or_finished s i with ⟨child, hchild, hopen⟩ | hidle
  · rw [finalizeChild_open hchild hopen]
    rfl
  · rw [finalizeChild_idle hidle]

theorem buildRecord_event {event : String} {fields : Fields} {record : MeasurementRecord}
    (h : buildRecord event fields = some record) : record.event = event := by
  rw [buildRecord] at h
  split at h
  · cases h
    rfl
  · cases h

theorem turnRecords_finalizeChild (i : ℕ) (outcome : PyStr) (details : ChildDetails) :
    (s.finalizeChild elapsedMs i outcome details).turnRecords = s.turnRecords := by
  rcases open_or_finished s i with ⟨child, hchild, hopen⟩ | hidle
  · rw [finalizeChild_open hchild hopen, turnRecords, turnRecords, List.filter_append]
    refine (congrArg _ (List.filter_eq_nil_iff.mpr fun record hrecord => ?_)).trans (List.append_nil _)
    rw [buildRecord_event (Option.mem_toList.mp hrecord)]
    decide
  · rw [finalizeChild_idle hidle]

/-- **Finalizing a work item keeps track of it.** -/
theorem Tracks.finalizeChild (hclock : ∀ i j, i < j → ValidMs (elapsedMs i j)) {ids : List PyStr} (h : Tracks ids s)
    (i : ℕ) (outcome : PyStr) {details : ChildDetails} (hdetails : ValidDetails details) :
    Tracks ids (s.finalizeChild elapsedMs i outcome details) := by
  rcases open_or_finished s i with ⟨child, hchild, hopen⟩ | hidle
  swap
  · rwa [finalizeChild_idle hidle]
  have hmem : child ∈ s.children := List.mem_of_getElem? hchild
  have hid : ValidId 128 child.workItemId := h.valid _ (h.made ▸ List.mem_map_of_mem hmem)
  obtain ⟨record, hrecord, hevent, hwork⟩ := buildRecord_childFields h.turn hid (childOutcome_mem outcome)
    (hclock _ _ (h.begun.2 child hmem)) hdetails
  have hset := finalized_set hchild hopen
  have hfinalized : (finalizedIds { s with children := s.children.set i { child with finalized := true } }).Perm
      (s.finalizedIds ++ [some (.str child.workItemId)]) := by
    refine (hset.map _).trans ?_
    rw [List.map_append]
    rfl
  rw [finalizeChild_open hchild hopen, hrecord]
  constructor
  case turn => exact h.turn
  case made =>
    rw [← h.made, List.map_set]
    refine List.ext_getElem? fun j => ?_
    rw [List.getElem?_set, List.getElem?_map]
    split_ifs with hij hlt
    · rw [← hij, hchild]
      rfl
    · rw [← hij, List.getElem?_eq_none (not_lt.mp fun hl => hlt (by simpa using hl))]
      rfl
    · rfl
  case distinct => exact h.distinct
  case valid => exact h.valid
  case begun =>
    refine ⟨Nat.lt_succ_of_lt h.begun.1, fun other hother => ?_⟩
    rcases List.mem_or_eq_of_mem_set hother with hother | rfl
    · exact Nat.lt_succ_of_lt (h.begun.2 other hother)
    · exact Nat.lt_succ_of_lt (h.begun.2 child hmem)
  case open_iff => exact fun id j => h.open_set hchild id j
  case recorded_perm =>
    have hkept : [record].filter (·.event = "work_item_foreground") = [record] :=
      List.filter_eq_self.mpr (List.forall_mem_singleton.mpr (decide_eq_true hevent))
    rw [recorded, List.filter_append, List.map_append, Option.toList_some, hkept, List.map_singleton, hwork]
    exact (h.recorded_perm.append_right _).trans hfinalized.symm
  case dispatched =>
    refine (congrArg (· + 1) h.dispatched).trans ?_
    exact (hfinalized.length_eq.trans List.length_append).symm
  case totalled => exact (total_recordChild _ _ _).trans (congrArg (· + 1) h.totalled)
  case keyed => exact keyed_recordChild h.keyed _ _
  case routing => exact h.routing
  case commit => exact h.commit

/-- **A new work item is tracked**, under an identifier that is new. -/
theorem Tracks.newChild {ids : List PyStr} (h : Tracks ids s) {id : PyStr} (hid : ValidId 128 id) (hnew : id ∉ ids) :
    Tracks (ids ++ [id]) (s.newChild id) := by
  have hnone : s.turn.openChildren.get? id = none := by
    rw [Option.eq_none_iff_forall_ne_some]
    intro i hi
    obtain ⟨child, hchild, hname, -⟩ := (h.open_iff id i).mp hi
    exact hnew (h.made ▸ hname ▸ List.mem_map_of_mem (List.mem_of_getElem? hchild))
  have hfinalized : finalizedIds (s.newChild id) = s.finalizedIds := by
    rw [finalizedIds, Recording.newChild, List.filter_append, List.filter_cons_of_neg (by simp), List.filter_nil,
      List.append_nil]
    rfl
  have hturn : (s.newChild id).turn = { s.turn with openChildren := s.turn.openChildren.set id s.children.length } := by
    rw [Recording.newChild, hnone]
    rfl
  constructor
  case turn => exact hturn ▸ h.turn
  case made => rw [Recording.newChild, List.map_append, h.made]; rfl
  case distinct => exact List.nodup_append.mpr ⟨h.distinct, List.nodup_singleton id, fun a ha b hb hab =>
      hnew (List.mem_singleton.mp hb ▸ hab ▸ ha)⟩
  case valid => exact List.forall_mem_append.mpr ⟨h.valid, List.forall_mem_singleton.mpr hid⟩
  case begun =>
    refine ⟨hturn ▸ Nat.lt_succ_of_lt h.begun.1, List.forall_mem_append.mpr ⟨fun child hchild => ?_, ?_⟩⟩
    · exact Nat.lt_succ_of_lt (h.begun.2 child hchild)
    · exact List.forall_mem_singleton.mpr (Nat.lt_succ_self _)
  case open_iff =>
    intro name j
    rw [hturn, Dict.get?_set, Recording.newChild]
    dsimp only
    constructor
    · intro hget
      split_ifs at hget with hname
      · cases hget
        exact ⟨_, List.getElem?_concat_length, hname.symm, rfl⟩
      · obtain ⟨child, hchild, hrest⟩ := (h.open_iff name j).mp hget
        exact ⟨child, List.getElem?_append_left (List.getElem?_eq_some_iff.mp hchild).1 ▸ hchild, hrest⟩
    · rintro ⟨child, hchild, rfl, hunfinished⟩
      rw [List.getElem?_append, List.getElem?_singleton] at hchild
      split_ifs at hchild with hlt hlast
      · have hold : child.workItemId ≠ id := fun hname =>
          hnew (h.made ▸ hname ▸ List.mem_map_of_mem (List.mem_of_getElem? hchild))
        rw [if_neg hold]
        exact (h.open_iff _ _).mpr ⟨child, hchild, rfl, hunfinished⟩
      · cases hchild
        rw [if_pos rfl, Option.some.injEq]
        omega
  case recorded_perm => rw [hfinalized]; exact h.recorded_perm
  case dispatched => rw [hfinalized, hturn]; exact h.dispatched
  case totalled => rw [hturn]; exact h.totalled
  case keyed => rw [hturn]; exact h.keyed
  case routing => rw [hturn]; exact h.routing
  case commit => rw [hturn]; exact h.commit

/-! ## The end of a turn -/

theorem sweep_finished (args : FinalizeArgs) (unfinished : List ℕ) (s : Recording) {j : ℕ}
    (h : j ∈ unfinished ∨ s.Finished j) : (s.sweep elapsedMs args unfinished).Finished j := by
  induction unfinished generalizing s with
  | nil => exact h.resolve_left List.not_mem_nil
  | cons i unfinished ih =>
    refine ih _ ?_
    rcases h with h | h
    · exact (List.mem_cons.mp h).symm.imp id fun hij => finished_finalizeChild _ _ _ (.inl hij)
    · exact .inr (finished_finalizeChild _ _ _ (.inr h))

theorem Tracks.sweep (hclock : ∀ i j, i < j → ValidMs (elapsedMs i j)) {ids : List PyStr} (args : FinalizeArgs)
    (unfinished : List ℕ) {s : Recording} (h : Tracks ids s) : Tracks ids (s.sweep elapsedMs args unfinished) := by
  induction unfinished generalizing s with
  | nil => exact h
  | cons i unfinished ih => exact ih (h.finalizeChild hclock i _ (by simp [ValidDetails, ChildDetails.fields, EventSpec.TakesSome]))

variable (elapsedMs) in
theorem turnRecords_sweep (args : FinalizeArgs) (unfinished : List ℕ) (s : Recording) :
    (s.sweep elapsedMs args unfinished).turnRecords = s.turnRecords := by
  induction unfinished generalizing s with
  | nil => rfl
  | cons i unfinished ih => exact (ih _).trans (turnRecords_finalizeChild _ _ _)

variable (elapsedMs) in
theorem turn_sweep (args : FinalizeArgs) (unfinished : List ℕ) (s : Recording) :
    (s.sweep elapsedMs args unfinished).turn.finalized = s.turn.finalized := by
  induction unfinished generalizing s with
  | nil => rfl
  | cons i unfinished ih => exact (ih _).trans (turn_finalizeChild _ _ _)

/-- Neither the latch nor the timings of a turn are about its work items. -/
theorem Tracks.annotate {ids : List PyStr} (h : Tracks ids s) {finalized : Bool} {routingMs commitMs : Option FieldValue}
    (hrouting : ∀ value, routingMs = some value → Accepted (.ms "routing_ms") value)
    (hcommit : ∀ value, commitMs = some value → Accepted (.ms "commit_ms") value) :
    Tracks ids { s with turn := { s.turn with finalized, routingMs, commitMs } } :=
  ⟨h.turn, h.made, h.distinct, h.valid, h.begun, h.open_iff, h.recorded_perm, h.dispatched, h.totalled, h.keyed, hrouting,
    hcommit⟩

/-- Once all work items are finished, each of them has a record. -/
theorem Tracks.finalizedIds_eq {ids : List PyStr} (h : Tracks ids s) (hfinished : ∀ i, s.Finished i) :
    s.finalizedIds = ids.map fun id => some (.str id) := by
  have hall : s.children.filter (·.finalized) = s.children := List.filter_eq_self.mpr fun child hchild => by
    obtain ⟨i, hi⟩ := List.getElem?_of_mem hchild
    exact hfinished i child hi
  rw [finalizedIds, hall, ← h.made, List.map_map]
  rfl

variable (elapsedMs) in
/-- The sweep finishes every work item. -/
theorem Tracks.finished_sweep {ids : List PyStr} (h : Tracks ids s) (args : FinalizeArgs) (j : ℕ) :
    (s.sweep elapsedMs args s.turn.openChildren.values).Finished j := by
  refine sweep_finished args _ s ?_
  rcases open_or_finished s j with ⟨child, hchild, hopen⟩ | hfinished
  · exact .inl (Dict.mem_values.mpr ⟨_, (h.open_iff _ _).mpr ⟨child, hchild, rfl, hopen⟩⟩)
  · exact .inr hfinished

/-- **A turn that is over**: its work items are finished and have a record each, and it has one of its own. -/
structure Settled (ids : List PyStr) (args : FinalizeArgs) (s : Recording) : Prop where
  latched : s.turn.finalized = true
  finished : ∀ i, s.Finished i
  recorded : s.recorded.Perm (ids.map fun id => some (.str id))
  record : ∃ turn record, s.turnRecords = [record] ∧ TurnRecord turn args record ∧
    turn.dispatchedChildren = ids.length ∧ total turn.counters = ids.length

theorem recorded_emit_turn (s : Recording) (fields : Fields) :
    (s.emit "app_turn_foreground" fields).recorded = s.recorded := by
  have hnone : (buildRecord "app_turn_foreground" fields).toList.filter (·.event = "work_item_foreground") = [] :=
    List.filter_eq_nil_iff.mpr fun record hrecord => by
      rw [buildRecord_event (Option.mem_toList.mp hrecord)]
      decide
  rw [recorded, emit, List.filter_append, hnone, List.append_nil]
  rfl

/-- **Finalizing a turn settles it.** -/
theorem Tracks.finalize (hclock : ∀ i j, i < j → ValidMs (elapsedMs i j)) {ids : List PyStr} (h : Tracks ids s)
    (hopen : s.turn.finalized = false) (hnone : s.turnRecords = []) (hsmall : ids.length < 10 ^ Numeral.maxStrDigits)
    {args : FinalizeArgs} (hscenario : ∀ value, args.scenario = some value → Accepted (.id "scenario" 64) value) :
    Settled ids args (s.finalize elapsedMs args) := by
  have hlatched : Tracks ids { s with turn := { s.turn with finalized := true } } := h.annotate h.routing h.commit
  have hswept := hlatched.sweep hclock args s.turn.openChildren.values
  have hfinished := fun j => hlatched.finished_sweep elapsedMs args j
  have hturn := turn_sweep elapsedMs args s.turn.openChildren.values
    { s with turn := { s.turn with finalized := true } }
  have hrecords := turnRecords_sweep elapsedMs args s.turn.openChildren.values
    { s with turn := { s.turn with finalized := true } }
  rw [Recording.finalize, hopen, if_neg Bool.false_ne_true]
  dsimp only at hfinished ⊢
  generalize Recording.sweep elapsedMs { s with turn := { s.turn with finalized := true } } args s.turn.openChildren.values = t
    at hswept hfinished hturn hrecords ⊢
  have hids := hswept.finalizedIds_eq hfinished
  have hdispatched : t.turn.dispatchedChildren = ids.length := by rw [hswept.dispatched, hids, List.length_map]
  obtain ⟨record, hrecord, hturnRecord⟩ := buildRecord_turnFields hswept.turn hswept.keyed hswept.totalled
    (hdispatched ▸ hsmall) ⟨hswept.routing, hswept.commit, hscenario⟩ (hclock _ _ hswept.begun.1)
  refine ⟨hturn, hfinished, ?_, t.turn, record, ?_, hturnRecord, hdispatched, hswept.totalled.trans hdispatched⟩
  · rw [recorded_emit_turn, ← hids]
    exact hswept.recorded_perm
  · have hemitted : t.turnRecords = [] := hrecords.trans hnone
    rw [turnRecords, emit, List.filter_append]
    refine (congrArg (· ++ _) hemitted).trans ?_
    rw [List.nil_append, hrecord, Option.toList_some]
    exact List.filter_eq_self.mpr (List.forall_mem_singleton.mpr (decide_eq_true hturnRecord.event))

/-! ## Runs -/

/-- The identifiers of the work items some calls make. -/
def createdIds (calls : List Call) : List PyStr :=
  calls.filterMap fun
    | .newChild workItemId => some workItemId
    | _ => none

/-- The calls that finalize the turn. -/
def Call.finalizes : Call → Bool
  | .finalize _ => true
  | _ => false

/-- Identifiers and timings of a call that the contract accepts. -/
def Call.Valid : Call → Prop
  | .newChild workItemId => ValidId 128 workItemId
  | .finalizeChild _ _ details => ValidDetails details
  | .recordRouting ms => Accepted (.ms "routing_ms") ms
  | .recordCommit ms => Accepted (.ms "commit_ms") ms
  | .finalize args => ∀ value, args.scenario = some value → Accepted (.id "scenario" 64) value

/-- A turn that is open: nothing is said of it yet. -/
structure Ongoing (ids : List PyStr) (s : Recording) : Prop extends Tracks ids s where
  unlatched : s.turn.finalized = false
  unrecorded : s.turnRecords = []

theorem ongoing_fresh {sessionId : PyStr} {originEpoch : ℤ} {turnId : PyStr} (h : ValidTurn sessionId originEpoch turnId) :
    Ongoing [] (fresh sessionId originEpoch turnId) where
  turn := h
  made := rfl
  distinct := List.nodup_nil
  valid := fun _ hid => absurd hid List.not_mem_nil
  begun := ⟨Nat.zero_lt_one, fun _ hchild => absurd hchild List.not_mem_nil⟩
  open_iff := fun id i => ⟨fun hget => (nomatch hget), fun ⟨_, hget, _⟩ => (nomatch hget)⟩
  recorded_perm := .nil
  dispatched := rfl
  totalled := show total noCounts = 0 by decide
  keyed := fun name => by
    have hget : (noCounts.get? name).isSome = true ↔ name ∈ noCounts.keys := Dict.mem_keys.symm
    exact hget
  routing := fun _ h => (nomatch h)
  commit := fun _ h => (nomatch h)
  unlatched := rfl
  unrecorded := rfl

/-- **A call before the turn is finalized keeps track.** -/
theorem Ongoing.call (hclock : ∀ i j, i < j → ValidMs (elapsedMs i j)) {ids : List PyStr} (h : Ongoing ids s) {c : Call}
    (hvalid : c.Valid) (hnew : ∀ id ∈ createdIds [c], id ∉ ids) (hfinalizes : c.finalizes = false) :
    Ongoing (ids ++ createdIds [c]) (s.call elapsedMs c) := by
  cases c with
  | newChild id =>
    have hchild := h.toTracks.newChild hvalid (hnew id List.mem_cons_self)
    refine ⟨hchild, ?_, h.unrecorded⟩
    rw [Recording.call, Recording.newChild]
    dsimp only
    split_ifs <;> exact h.unlatched
  | finalizeChild i outcome details =>
    rw [createdIds, List.filterMap_cons_none rfl, List.filterMap_nil, List.append_nil]
    exact ⟨h.toTracks.finalizeChild hclock i outcome hvalid, (turn_finalizeChild _ _ _).trans h.unlatched,
      (turnRecords_finalizeChild _ _ _).trans h.unrecorded⟩
  | recordRouting ms =>
    rw [createdIds, List.filterMap_cons_none rfl, List.filterMap_nil, List.append_nil]
    exact ⟨h.toTracks.annotate (by rintro _ ⟨rfl⟩; exact hvalid) h.commit, h.unlatched, h.unrecorded⟩
  | recordCommit ms =>
    rw [createdIds, List.filterMap_cons_none rfl, List.filterMap_nil, List.append_nil]
    exact ⟨h.toTracks.annotate h.routing (by rintro _ ⟨rfl⟩; exact hvalid), h.unlatched, h.unrecorded⟩
  | finalize args => cases hfinalizes

/-- **A call after the turn is finalized records nothing**, unless it makes a work item. -/
theorem Settled.call {ids : List PyStr} {args : FinalizeArgs} (h : Settled ids args s) {c : Call}
    (hnew : createdIds [c] = []) : Settled ids args (s.call elapsedMs c) := by
  cases c with
  | newChild id => cases hnew
  | finalizeChild i outcome details =>
    rw [Recording.call, finalizeChild_idle (h.finished i)]
    exact h
  | recordRouting ms => exact ⟨h.latched, h.finished, h.recorded, h.record⟩
  | recordCommit ms => exact ⟨h.latched, h.finished, h.recorded, h.record⟩
  | finalize args =>
    rw [Recording.call, Recording.finalize, if_pos h.latched]
    exact h

theorem createdIds_cons (c : Call) (calls : List Call) : createdIds (c :: calls) = createdIds [c] ++ createdIds calls :=
  List.filterMap_append (l := [c])

/-- The arguments the turn is finalized with. -/
def finalizedWith (calls : List Call) : Option FinalizeArgs :=
  calls.findSome? fun
    | .finalize args => some args
    | _ => none

/-- Calls on a turn: valid, with distinct work items, none of them made once the turn is finalized.  The number
of work items is one that has a text. -/
structure Proper (calls : List Call) : Prop where
  valid : ∀ c ∈ calls, c.Valid
  distinct : (createdIds calls).Nodup
  ordered : calls.Pairwise fun c d => c.finalizes = true → createdIds [d] = []
  countable : (createdIds calls).length < 10 ^ Numeral.maxStrDigits

theorem Settled.run {ids : List PyStr} {args : FinalizeArgs} {calls : List Call} (h : Settled ids args s)
    (hnew : createdIds calls = []) : Settled ids args (s.run elapsedMs calls) := by
  induction calls generalizing s with
  | nil => exact h
  | cons c calls ih =>
    rw [createdIds_cons, List.append_eq_nil_iff] at hnew
    exact ih (h.call hnew.1) hnew.2

/-- **A run that finalizes the turn settles it**, with the arguments of the first call that does. -/
theorem Ongoing.run (hclock : ∀ i j, i < j → ValidMs (elapsedMs i j)) {ids : List PyStr} {calls : List Call}
    (h : Ongoing ids s) (hvalid : ∀ c ∈ calls, c.Valid) (hdistinct : (ids ++ createdIds calls).Nodup)
    (hordered : calls.Pairwise fun c d => c.finalizes = true → createdIds [d] = [])
    (hsmall : (ids ++ createdIds calls).length < 10 ^ Numeral.maxStrDigits) {args : FinalizeArgs}
    (hargs : finalizedWith calls = some args) : Settled (ids ++ createdIds calls) args (s.run elapsedMs calls) := by
  induction calls generalizing s ids with
  | nil => cases hargs
  | cons c calls ih =>
    obtain ⟨hc, hcalls⟩ := List.forall_mem_cons.mp hvalid
    obtain ⟨hafter, hordered⟩ := List.pairwise_cons.mp hordered
    rw [createdIds_cons, ← List.append_assoc] at hdistinct hsmall ⊢
    rcases hfinalizes : c.finalizes with _ | _
    · have hnew : ∀ id ∈ createdIds [c], id ∉ ids := fun id hid hold =>
        (List.nodup_append.mp (List.nodup_append.mp hdistinct).1).2.2 id hold id hid rfl
      refine ih (h.call hclock hc hnew hfinalizes) hcalls hdistinct hordered hsmall ?_
      cases c with
      | finalize args => cases hfinalizes
      | _ => exact hargs
    · cases c with
      | finalize args' =>
        cases hargs
        have hnone : createdIds calls = [] := List.filterMap_eq_nil_iff.mpr fun d hd => by
          have hd := hafter d hd rfl
          cases d with
          | newChild id => cases hd
          | _ => rfl
        rw [hnone, List.append_nil] at hsmall ⊢
        have hids : ids ++ createdIds [.finalize args] = ids := List.append_nil ids
        rw [hids] at hsmall ⊢
        exact (h.toTracks.finalize hclock h.unlatched h.unrecorded hsmall hc).run hnone
      | _ => cases hfinalizes

/-- What is recorded for a turn that is given no outcome. -/
theorem recordedOutcome_derived (counters : Dict String ℕ) {args : FinalizeArgs} (h : args.outcome = none) :
    (args.controlAction = none ∧ args.controlOutcome = none →
        Derives (count counters) (recordedOutcome counters args).1) ∧
      (¬(args.controlAction = none ∧ args.controlOutcome = none) → (recordedOutcome counters args).1 = "failed") := by
  obtain ⟨outcome, action, controlOutcome, scenario, acknowledgement⟩ := args
  cases h
  have hne := (derivedOutcome_mem counters).2
  constructor
  · rintro ⟨rfl, rfl⟩
    have hrecorded : (recordedOutcome counters { scenario, acknowledgement }).1 = derivedOutcome counters := by
      simp [recordedOutcome, hne]
    exact hrecorded ▸ derives_derivedOutcome counters
  · intro hcontrol
    cases action <;> cases controlOutcome <;> simp [recordedOutcome, hne] at hcontrol ⊢

/-- **A turn accounts for each of its work items once.**  After any valid calls that make distinct work items, and
none once the turn is finalized, and that do finalize it: the records of work items are of the work items that
were made, one each; there is one record of the turn; it is a record the contract accepts, its number of
children is that of the work items and the sum of its counters, and where the turn was given no outcome it has
the one its counters derive, or failed if control fields were asked for, which only go with a control turn. -/
theorem turn_accounted {elapsedMs : ℕ → ℕ → PyFloat} (hclock : ∀ i j, i < j → ValidMs (elapsedMs i j))
    {sessionId : PyStr} {originEpoch : ℤ} {turnId : PyStr} (hturn : ValidTurn sessionId originEpoch turnId)
    {calls : List Call} (hcalls : Proper calls) {args : FinalizeArgs} (hargs : finalizedWith calls = some args) :
    ((fresh sessionId originEpoch turnId).run elapsedMs calls).recorded.Perm
        ((createdIds calls).map fun id => some (.str id)) ∧
      ∃ (record : MeasurementRecord) (counts : String → ℕ) (outcome : String),
        ((fresh sessionId originEpoch turnId).run elapsedMs calls).turnRecords = [record] ∧
          formatRecord "app_turn_foreground" record.fields = .ok record.line ∧
          record.fields.get? "child_count" = some (.int (createdIds calls).length) ∧
          (∀ name ∈ appTurnCounterFields, record.fields.get? name = some (.int (counts name))) ∧
          (appTurnCounterFields.map counts).sum = (createdIds calls).length ∧
          record.fields.get? "outcome" = some (.text outcome) ∧
          (args.outcome = none →
            (args.controlAction = none ∧ args.controlOutcome = none → Derives counts outcome) ∧
              (¬(args.controlAction = none ∧ args.controlOutcome = none) → outcome = "failed")) := by
  obtain ⟨-, -, hrecorded, turn, record, hrecord, hturnRecord, hdispatched, htotal⟩ :=
    (ongoing_fresh hturn).run hclock hcalls.valid hcalls.distinct hcalls.ordered hcalls.countable hargs
  refine ⟨hrecorded, record, count turn.counters, (recordedOutcome turn.counters args).1, hrecord, ?_, ?_,
    hturnRecord.counted, htotal, hturnRecord.outcome, recordedOutcome_derived turn.counters⟩
  · rw [← hturnRecord.event]
    exact record.formatted
  · rw [hturnRecord.children, hdispatched]
    rfl

/-! ## Two work items and a late call -/

/-- A clock that stands still. -/
def stopped : ℕ → ℕ → PyFloat := fun _ _ => .finite 0

/-- One work item is completed, another is left open, and the turn is finalized twice. -/
def twoItems : List Call :=
  [.newChild (.ofString "a"), .newChild (.ofString "b"), .finalizeChild 0 (.ofString "completed") {}, .finalize {},
    .finalizeChild 1 (.ofString "direct") {}, .finalize { outcome := some (.ofString "direct") }]

theorem validTurn_named : ValidTurn (.ofString "s") 0 (.ofString "t") where
  session := by decide +kernel
  epoch := ⟨['0'], rfl⟩
  turn := by decide +kernel

theorem validMs_stopped (i j : ℕ) (_ : i < j) : ValidMs (stopped i j) := by rw [stopped]; decide

theorem proper_twoItems : Proper twoItems where
  valid := by
    simp only [twoItems, List.forall_mem_cons, List.not_mem_nil, false_imp_iff, implies_true, and_true, Call.Valid]
    have hnone : ValidDetails {} := by simp [ValidDetails, ChildDetails.fields, EventSpec.TakesSome]
    exact ⟨by decide +kernel, by decide +kernel, hnone, fun _ h => (nomatch h), hnone, fun _ h => (nomatch h)⟩
  distinct := by decide
  ordered := by decide
  countable := Nat.lt_of_lt_of_le (by decide : 2 < 10 ^ 1) (Nat.pow_le_pow_right (by omega) (by decide))

theorem turn_accounted_twoItems :
    ∃ (record : MeasurementRecord) (counts : String → ℕ) (outcome : String),
      ((fresh (.ofString "s") 0 (.ofString "t")).run stopped twoItems).turnRecords = [record] ∧
        record.fields.get? "child_count" = some (.int 2) ∧
        record.fields.get? "outcome" = some (.text outcome) ∧ Derives counts outcome := by
  obtain ⟨-, record, counts, outcome, hrecord, -, hchildren, -, -, houtcome, hderived⟩ :=
    turn_accounted validMs_stopped validTurn_named proper_twoItems rfl
  exact ⟨record, counts, outcome, hrecord, hchildren, houtcome, (hderived rfl).1 ⟨rfl, rfl⟩⟩

/-- One work item is completed, and the turn is finalized with a control field but without an outcome. -/
def strayControl : List Call :=
  [.newChild (.ofString "a"), .finalizeChild 0 (.ofString "completed") {},
    .finalize { controlAction := some (.ofString "pause") }]

/-- The only counter of the turn is that of completed work items, but its outcome is failed. -/
theorem stray_control_fails :
    ((fresh (.ofString "s") 0 (.ofString "t")).run stopped strayControl).turnRecords.map (fun record =>
        (record.fields.get? "outcome", record.fields.get? "child_count", record.fields.get? "completed_count"))
      = [(some (.text "failed"), some (.int 1), some (.int 1))] ∧
      ¬Derives (fun name => if name = "completed_count" then 1 else 0) "failed" := by
  refine ⟨by decide +kernel, fun h => ?_⟩
  have honly := h.1 "completed_count" (by decide) (by decide) fun other _ hother => by
    by_contra hne
    exact hother (if_neg hne)
  exact absurd honly (by decide)

end Recording

end PerfMetric

end SubagentsLab

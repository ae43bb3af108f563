import SubagentsLab.Session.State
import SubagentsLab.Speech.Scheduler

/-!
# Turn/Epilogue — the end of a fan-out turn

`finalize_fan_out_turn` settles the turn's acknowledgement, commits the results one by one and gives out
the statuses that were held back for them.  Its collaborators are outside: what a `commit_and_speak` call
comes to is a `EpilogueOutcome`, one for every index, and the calls it makes are kept in order, a status with
the index it was deferred under.

The loop pops a status when its result has been committed or has failed, and the sweep gives out what is
left; so the calls have a closed form (`calls_finalizeFanOutTurn`) in which every deferred entry is met once.
-/

namespace SubagentsLab

open Machinery Session

/-- What becomes of a `commit_and_speak` call: what it returns or raises, the work items it adds to
`suppressed_out`, and the epoch the connection has afterwards. -/
structure EpilogueOutcome (ε : Type*) where
  result : Except ε GroundedResult
  suppressed : List String := []
  epoch : ℤ

/-- A status held back until the commit of its index. -/
structure DeferredStatus where
  workItemId : String
  workerId : Option String
  state : WorkStatusState
  terminalReason : Option TerminalReason
  deriving DecidableEq, Repr

/-- The arguments of `emit_work_status`. -/
structure EmittedStatus extends DeferredStatus where
  turnId : String
  parentWorkItemId : String
  originEpoch : ℤ
  deriving DecidableEq, Repr

/-- The calls `finalize_fan_out_turn` makes. -/
inductive EpilogueCall
  | settleTurnAck (turnId : String) (cancelAdmitted : Bool)
  | commitAndSpeak (index : ℤ) (result : GroundedResult) (role : SpeechRole)
  /-- The status is the one deferred under `index`. -/
  | emitWorkStatus (index : ℤ) (status : EmittedStatus)
  | finalizeRecorder
  deriving DecidableEq

/-- The arguments of `finalize_fan_out_turn`; `epoch` is the connection's when it is called. -/
structure FanOutTurn where
  turnId : String
  parentWorkItemId : String
  epoch : ℤ
  results : Dict ℤ GroundedResult
  attributedIndexes : Finset ℤ
  retainedWorkItems : Finset String
  deferredStatus : Dict ℤ DeferredStatus
  speechRoles : Dict ℤ SpeechRole

/-- `finalize_fan_out_turn` under way. -/
structure EpilogueState (ε : Type*) where
  committed : List GroundedResult := []
  commitExceptions : List ε := []
  deferredStatus : Dict ℤ DeferredStatus
  epoch : ℤ
  calls : List EpilogueCall := []

variable {ε : Type*}

/-- What is said of a deferred status once its result has been committed: nothing else, unless the commit
found the work item cancelled or raised. -/
def EpilogueOutcome.reported (outcome : EpilogueOutcome ε) (status : DeferredStatus) : DeferredStatus :=
  match outcome.result with
  | .error _ => { status with state := .failed, terminalReason := none }
  | .ok _ =>
    if status.workItemId ∈ outcome.suppressed then { status with state := .cancelled, terminalReason := none }
    else status

namespace EpilogueCall

/-- The arguments of a commit. -/
def commit? : EpilogueCall → Option (ℤ × GroundedResult × SpeechRole)
  | commitAndSpeak index result role => some (index, result, role)
  | _ => none

/-- The status that goes out for an index. -/
def status? (index : ℤ) : EpilogueCall → Option DeferredStatus
  | emitWorkStatus i status => if i = index then some status.toDeferredStatus else none
  | _ => none

/-- The first call is no status of an index that the second one commits. -/
def Timely : EpilogueCall → EpilogueCall → Prop
  | emitWorkStatus index _, commitAndSpeak index' _ _ => index ≠ index'
  | _, _ => True

end EpilogueCall

namespace FanOutTurn

variable (t : FanOutTurn) (outcomes : ℤ → EpilogueOutcome ε)

/-- `sorted(results)`, with the results. -/
def sortedResults : List (ℤ × GroundedResult) := t.results.entries.mergeSort fun e e' => e.1 ≤ e'.1

/-- An `emit_work_status` call. -/
def emitted (epoch : ℤ) (index : ℤ) (status : DeferredStatus) : EpilogueCall :=
  .emitWorkStatus index { status with
    turnId := t.turnId, parentWorkItemId := t.parentWorkItemId, originEpoch := epoch }

/-- `deferred_status.pop(index, None)`, and the status that goes out for it. -/
def popStatus (s : EpilogueState ε) (index : ℤ) (report : DeferredStatus → DeferredStatus) : EpilogueState ε :=
  { s with
    deferredStatus := s.deferredStatus.pop index
    calls := s.calls ++ ((s.deferredStatus.get? index).map fun status =>
      t.emitted s.epoch index (report status)).toList }

/-- The body of the commit loop. -/
def commitItem (s : EpilogueState ε) (item : ℤ × GroundedResult) : EpilogueState ε :=
  let outcome := outcomes item.1
  let role := (t.speechRoles.get? item.1).getD .result
  let s := { s with
    epoch := outcome.epoch
    calls := s.calls ++ [EpilogueCall.commitAndSpeak item.1 item.2 role] }
  match outcome.result with
  | .error exc =>
    t.popStatus { s with
      committed := s.committed ++ [item.2]
      commitExceptions := s.commitExceptions ++ [exc] } item.1
      fun status => { status with state := .failed, terminalReason := none }
  | .ok committed =>
    t.popStatus { s with committed := s.committed ++ [committed] } item.1 fun status =>
      if status.workItemId ∈ outcome.suppressed then
        { status with state := .cancelled, terminalReason := none }
      else status

/-- The sweep over the statuses no commit has met, and the clear. -/
def sweep (s : EpilogueState ε) : EpilogueState ε :=
  { s with
    deferredStatus := ∅
    calls := s.calls ++ s.deferredStatus.entries.map fun e => t.emitted s.epoch e.1 e.2 }

/-- `finalize_fan_out_turn`: the state it leaves, and what it returns or raises. -/
def finalizeFanOutTurn : EpilogueState ε × Except ε (List GroundedResult) :=
  let cancelAdmitted := decide (t.attributedIndexes = ∅) && decide (t.retainedWorkItems = ∅)
  let s : EpilogueState ε :=
    { deferredStatus := t.deferredStatus
      epoch := t.epoch
      calls := [.settleTurnAck t.turnId cancelAdmitted] }
  let s := t.sweep (t.sortedResults.foldl (t.commitItem outcomes) s)
  match s.commitExceptions with
  | exc :: _ => (s, .error exc)
  | [] => ({ s with calls := s.calls ++ [.finalizeRecorder] }, .ok s.committed)

/-! ## The results in order -/

theorem sortedResults_perm : t.sortedResults.Perm t.results.entries := List.mergeSort_perm _ _

theorem nodup_sortedResults : (t.sortedResults.map Prod.fst).Nodup :=
  (t.sortedResults_perm.map Prod.fst).nodup_iff.mpr t.results.nodup_keys

theorem pairwise_sortedResults : t.sortedResults.Pairwise fun e e' => e.1 < e'.1 := by
  have hle : t.sortedResults.Pairwise fun e e' => e.1 ≤ e'.1 :=
    (List.pairwise_mergeSort (fun a b c hab hbc => by simp at *; omega) (fun a b => by simp; omega) _).imp
      of_decide_eq_true
  have hne : t.sortedResults.Pairwise fun e e' => e.1 ≠ e'.1 := List.pairwise_map.mp t.nodup_sortedResults
  exact (hle.and hne).imp fun h => lt_of_le_of_ne h.1 h.2

theorem mem_keys_sortedResults {index : ℤ} : index ∈ t.sortedResults.map Prod.fst ↔ index ∈ t.results.keys :=
  (t.sortedResults_perm.map Prod.fst).mem_iff

/-! ## The commit loop -/

/-- What a commit appends to the results. -/
def returned (item : ℤ × GroundedResult) : GroundedResult :=
  match (outcomes item.1).result with
  | .error _ => item.2
  | .ok committed => committed

/-- What a commit raises. -/
def raised? (item : ℤ × GroundedResult) : Option ε :=
  match (outcomes item.1).result with
  | .error exc => some exc
  | .ok _ => none

/-- The calls made for one result. -/
def itemCalls (deferred : Dict ℤ DeferredStatus) (item : ℤ × GroundedResult) : List EpilogueCall :=
  .commitAndSpeak item.1 item.2 ((t.speechRoles.get? item.1).getD .result) ::
    ((deferred.get? item.1).map fun status =>
      t.emitted (outcomes item.1).epoch item.1 ((outcomes item.1).reported status)).toList

/-- **One commit**: whatever becomes of it, its status is popped and goes out. -/
theorem commitItem_eq (s : EpilogueState ε) (item : ℤ × GroundedResult) :
    t.commitItem outcomes s item =
      { committed := s.committed ++ [returned outcomes item]
        commitExceptions := s.commitExceptions ++ (raised? outcomes item).toList
        deferredStatus := s.deferredStatus.pop item.1
        epoch := (outcomes item.1).epoch
        calls := s.calls ++ t.itemCalls outcomes s.deferredStatus item } := by
  rw [commitItem, returned, raised?, itemCalls]
  rcases hresult : (outcomes item.1).result with exc | committed
  · simp [popStatus, EpilogueOutcome.reported, hresult]
  · simp [popStatus, EpilogueOutcome.reported, hresult]

/-- **The commit loop**: every result is met once, and every status as it was deferred. -/
theorem foldl_commitItem {items : List (ℤ × GroundedResult)} (hnodup : (items.map Prod.fst).Nodup)
    (s : EpilogueState ε) :
    items.foldl (t.commitItem outcomes) s =
      { committed := s.committed ++ items.map (returned outcomes)
        commitExceptions := s.commitExceptions ++ items.filterMap (raised? outcomes)
        deferredStatus := (items.map Prod.fst).foldl Dict.pop s.deferredStatus
        epoch := items.foldl (fun _ item => (outcomes item.1).epoch) s.epoch
        calls := s.calls ++ items.flatMap (t.itemCalls outcomes s.deferredStatus) } := by
  induction items generalizing s with
  | nil => simp
  | cons item items ih =>
    rw [List.map_cons, List.nodup_cons] at hnodup
    -- the statuses of the other results are still there
    have hothers : ∀ other ∈ items, t.itemCalls outcomes (s.deferredStatus.pop item.1) other
        = t.itemCalls outcomes s.deferredStatus other := fun other hother => by
      have hne : other.1 ≠ item.1 := fun heq => hnodup.1 (heq ▸ List.mem_map_of_mem hother)
      rw [itemCalls, Dict.get?_pop, if_neg hne, itemCalls]
    rw [List.foldl_cons, commitItem_eq, ih hnodup.2]
    simp only [List.map_cons, List.foldl_cons, List.flatMap_cons, List.append_assoc, List.filterMap_cons,
      List.singleton_append]
    rw [List.flatMap_congr hothers]
    cases raised? outcomes item <;> rfl

/-! ## The calls -/

/-- The entries that no commit meets. -/
def leftover : Dict ℤ DeferredStatus := (t.sortedResults.map Prod.fst).foldl Dict.pop t.deferredStatus

theorem get?_leftover (index : ℤ) :
    t.leftover.get? index = if index ∈ t.results.keys then none else t.deferredStatus.get? index := by
  rw [leftover, Dict.get?_foldl_pop]
  simp only [t.mem_keys_sortedResults]

/-- The epoch the connection has when the last result has been committed. -/
def lastEpoch : ℤ := t.sortedResults.foldl (fun _ item => (outcomes item.1).epoch) t.epoch

/-- **The calls in closed form.** -/
theorem calls_finalizeFanOutTurn :
    (t.finalizeFanOutTurn outcomes).1.calls =
      .settleTurnAck t.turnId (decide (t.attributedIndexes = ∅) && decide (t.retainedWorkItems = ∅)) ::
        (t.sortedResults.flatMap (t.itemCalls outcomes t.deferredStatus) ++
          (t.leftover.entries.map fun e => t.emitted (t.lastEpoch outcomes) e.1 e.2) ++
          if t.sortedResults.filterMap (raised? outcomes) = [] then [.finalizeRecorder] else []) := by
  rw [finalizeFanOutTurn, foldl_commitItem t outcomes t.nodup_sortedResults]
  simp only [sweep, List.nil_append]
  rcases t.sortedResults.filterMap (raised? outcomes) with _ | ⟨exc, excs⟩
  · simp [leftover, lastEpoch]
  · simp [leftover, lastEpoch]

theorem deferredStatus_finalizeFanOutTurn : (t.finalizeFanOutTurn outcomes).1.deferredStatus = ∅ := by
  rw [finalizeFanOutTurn]
  generalize t.sortedResults.foldl (t.commitItem outcomes) _ = s
  rcases hexc : (t.sweep s).commitExceptions with _ | ⟨exc, excs⟩
  · simp [sweep]
  · simp [sweep]

/-- The first exception is raised, in the order of the commits. -/
theorem raise_finalizeFanOutTurn (exc : ε) :
    (t.finalizeFanOutTurn outcomes).2 = .error exc ↔ t.sortedResults.findSome? (raised? outcomes) = some exc := by
  rw [finalizeFanOutTurn, foldl_commitItem t outcomes t.nodup_sortedResults, ← List.head?_filterMap]
  simp only [sweep, List.nil_append]
  rcases t.sortedResults.filterMap (raised? outcomes) with _ | ⟨exc', excs⟩
  · simp
  · simp

/-! ## Completeness -/

/-- What is said of the status deferred under an index. -/
def settled (index : ℤ) (status : DeferredStatus) : DeferredStatus :=
  if index ∈ t.results.keys then (outcomes index).reported status else status

theorem commits_itemCalls (deferred : Dict ℤ DeferredStatus) (item : ℤ × GroundedResult) :
    (t.itemCalls outcomes deferred item).filterMap EpilogueCall.commit?
      = [(item.1, item.2, (t.speechRoles.get? item.1).getD .result)] := by
  rw [itemCalls]
  cases deferred.get? item.1 <;> rfl

theorem statuses_itemCalls (deferred : Dict ℤ DeferredStatus) (item : ℤ × GroundedResult) (index : ℤ) :
    (t.itemCalls outcomes deferred item).filterMap (EpilogueCall.status? index)
      = if item.1 = index then ((deferred.get? index).map (outcomes index).reported).toList else [] := by
  by_cases hindex : item.1 = index
  · subst hindex
    rw [if_pos rfl, itemCalls]
    cases deferred.get? item.1 <;> simp [EpilogueCall.status?, emitted, List.filterMap_cons]
  · rw [if_neg hindex, itemCalls]
    cases deferred.get? item.1 <;> simp [EpilogueCall.status?, emitted, hindex]

/-- The statuses that go out for an index in the loop. -/
theorem statuses_loop {items : List (ℤ × GroundedResult)} (hnodup : (items.map Prod.fst).Nodup)
    (deferred : Dict ℤ DeferredStatus) (index : ℤ) :
    (items.flatMap (t.itemCalls outcomes deferred)).filterMap (EpilogueCall.status? index)
      = if index ∈ items.map Prod.fst then ((deferred.get? index).map (outcomes index).reported).toList
        else [] := by
  induction items with
  | nil => rfl
  | cons item items ih =>
    rw [List.map_cons, List.nodup_cons] at hnodup
    rw [List.flatMap_cons, List.filterMap_append, statuses_itemCalls, ih hnodup.2]
    by_cases hindex : item.1 = index
    · subst hindex
      simp only [if_true, if_neg hnodup.1, List.append_nil, List.map_cons, List.mem_cons, true_or]
    · simp only [if_neg hindex, List.nil_append, List.map_cons, List.mem_cons, Ne.symm hindex, false_or]

/-- The statuses that go out for an index in the sweep. -/
theorem statuses_leftover (epoch : ℤ) (index : ℤ) :
    (t.leftover.entries.map fun e => t.emitted epoch e.1 e.2).filterMap (EpilogueCall.status? index)
      = if index ∈ t.results.keys then [] else (t.deferredStatus.get? index).toList := by
  rw [List.filterMap_map]
  have hentries := t.leftover.filterMap_entries index
  rw [get?_leftover] at hentries
  refine Eq.trans hentries ?_
  split_ifs <;> rfl

/-- **Every deferred entry goes out once.** -/
theorem statuses_finalizeFanOutTurn (index : ℤ) :
    (t.finalizeFanOutTurn outcomes).1.calls.filterMap (EpilogueCall.status? index)
      = ((t.deferredStatus.get? index).map (t.settled outcomes index)).toList := by
  have hend : (if t.sortedResults.filterMap (raised? outcomes) = [] then [EpilogueCall.finalizeRecorder] else []).filterMap
      (EpilogueCall.status? index) = [] := by
    split_ifs <;> rfl
  rw [calls_finalizeFanOutTurn, List.filterMap_cons, List.filterMap_append, List.filterMap_append,
    statuses_loop t outcomes t.nodup_sortedResults, statuses_leftover, hend, List.append_nil]
  simp only [EpilogueCall.status?, t.mem_keys_sortedResults]
  by_cases hindex : index ∈ t.results.keys
  · simp only [if_pos hindex, List.append_nil]
    cases t.deferredStatus.get? index <;> simp [settled, hindex]
  · simp only [if_neg hindex, List.nil_append]
    cases t.deferredStatus.get? index <;> simp [settled, hindex]

/-- **Every result is committed once, in order.** -/
theorem commits_finalizeFanOutTurn :
    (t.finalizeFanOutTurn outcomes).1.calls.filterMap EpilogueCall.commit?
      = t.sortedResults.map fun item => (item.1, item.2, (t.speechRoles.get? item.1).getD .result) := by
  have hend : (if t.sortedResults.filterMap (raised? outcomes) = [] then [EpilogueCall.finalizeRecorder] else []).filterMap
      EpilogueCall.commit? = [] := by
    split_ifs <;> rfl
  have hsweep : (t.leftover.entries.map fun e => t.emitted (t.lastEpoch outcomes) e.1 e.2).filterMap
      EpilogueCall.commit? = [] := by
    rw [List.filterMap_map]
    exact List.filterMap_eq_nil_iff.mpr fun e _ => rfl
  rw [calls_finalizeFanOutTurn, List.filterMap_cons, List.filterMap_append, List.filterMap_append, hend, hsweep,
    List.filterMap_flatMap]
  simp only [EpilogueCall.commit?, commits_itemCalls, List.append_nil]
  exact List.flatMap_pure_eq_map _ _

/-- A status of the loop comes after the commit of its index. -/
theorem timely_itemCalls (deferred : Dict ℤ DeferredStatus) (item : ℤ × GroundedResult) :
    (t.itemCalls outcomes deferred item).Pairwise EpilogueCall.Timely := by
  rw [itemCalls]
  cases deferred.get? item.1
  · exact List.pairwise_singleton _ _
  · exact List.pairwise_pair.mpr trivial

/-- A call for a result is its commit, or the status of its index. -/
theorem mem_itemCalls {deferred : Dict ℤ DeferredStatus} {item : ℤ × GroundedResult} {call : EpilogueCall}
    (h : call ∈ t.itemCalls outcomes deferred item) :
    (∃ role, call = .commitAndSpeak item.1 item.2 role) ∨ ∃ status, call = .emitWorkStatus item.1 status := by
  rw [itemCalls, List.mem_cons, Option.mem_toList, Option.map_eq_some_iff] at h
  rcases h with rfl | ⟨status, -, rfl⟩
  · exact .inl ⟨_, rfl⟩
  · exact .inr ⟨_, rfl⟩

/-- **No status goes out before the commit of its index.** -/
theorem timely_finalizeFanOutTurn :
    (t.finalizeFanOutTurn outcomes).1.calls.Pairwise EpilogueCall.Timely := by
  have hloop : (t.sortedResults.flatMap (t.itemCalls outcomes t.deferredStatus)).Pairwise EpilogueCall.Timely := by
    refine List.pairwise_flatMap.mpr ⟨fun item _ => t.timely_itemCalls outcomes _ item, ?_⟩
    refine t.pairwise_sortedResults.imp fun {item item'} hlt call hcall call' hcall' => ?_
    rcases t.mem_itemCalls outcomes hcall with ⟨role, rfl⟩ | ⟨status, rfl⟩
    · trivial
    · rcases t.mem_itemCalls outcomes hcall' with ⟨role', rfl⟩ | ⟨status', rfl⟩
      · exact ne_of_lt hlt
      · trivial
  rw [calls_finalizeFanOutTurn, List.pairwise_cons, List.pairwise_append, List.pairwise_append]
  refine ⟨fun _ _ => trivial, ⟨hloop, ?_, ?_⟩, ?_, ?_⟩
  · exact List.pairwise_map.mpr (List.pairwise_of_forall fun _ _ => trivial)
  · intro call _ call' hcall'
    obtain ⟨e, -, rfl⟩ := List.mem_map.mp hcall'
    cases call <;> trivial
  · split_ifs
    · exact List.pairwise_singleton _ _
    · exact List.Pairwise.nil
  · intro call _ call' hcall'
    split_ifs at hcall'
    · rw [List.mem_singleton.mp hcall']
      cases call <;> trivial
    · exact absurd hcall' List.not_mem_nil

theorem settles_finalizeFanOutTurn :
    ∃ cancelAdmitted calls,
      (t.finalizeFanOutTurn outcomes).1.calls = .settleTurnAck t.turnId cancelAdmitted :: calls ∧
        ∀ turnId cancelAdmitted', .settleTurnAck turnId cancelAdmitted' ∉ calls := by
  refine ⟨_, _, t.calls_finalizeFanOutTurn outcomes, fun turnId cancelAdmitted' hmem => ?_⟩
  rw [List.mem_append, List.mem_append, List.mem_flatMap, List.mem_map] at hmem
  rcases hmem with (⟨item, -, hcall⟩ | ⟨e, -, hcall⟩) | hcall
  · rcases t.mem_itemCalls outcomes hcall with ⟨_, h⟩ | ⟨_, h⟩ <;> cases h
  · cases hcall
  · split_ifs at hcall
    · cases List.mem_singleton.mp hcall
    · exact List.not_mem_nil hcall

/-- **The fan-out epilogue is complete**: whatever the results, the deferred statuses and the outcomes of
the commits are, the acknowledgement is settled first and once, every result is committed once and in
ascending order, every deferred entry goes out once and never before the commit of its index, no entry is
left, and the first exception of a commit is raised if there is one; the calls are those made before. -/
theorem fan_out_epilogue_complete :
    (∃ cancelAdmitted calls,
      (t.finalizeFanOutTurn outcomes).1.calls = .settleTurnAck t.turnId cancelAdmitted :: calls ∧
        ∀ turnId cancelAdmitted', .settleTurnAck turnId cancelAdmitted' ∉ calls) ∧
      ((t.finalizeFanOutTurn outcomes).1.calls.filterMap EpilogueCall.commit?
          = t.sortedResults.map (fun item => (item.1, item.2, (t.speechRoles.get? item.1).getD .result)) ∧
        t.sortedResults.Perm t.results.entries ∧ t.sortedResults.Pairwise fun e e' => e.1 < e'.1) ∧
      (∀ index, (t.finalizeFanOutTurn outcomes).1.calls.filterMap (EpilogueCall.status? index)
        = ((t.deferredStatus.get? index).map (t.settled outcomes index)).toList) ∧
      (t.finalizeFanOutTurn outcomes).1.calls.Pairwise EpilogueCall.Timely ∧
      (t.finalizeFanOutTurn outcomes).1.deferredStatus = ∅ ∧
      ∀ exc, (t.finalizeFanOutTurn outcomes).2 = .error exc ↔
        t.sortedResults.findSome? (raised? outcomes) = some exc :=
  ⟨t.settles_finalizeFanOutTurn outcomes,
    ⟨t.commits_finalizeFanOutTurn outcomes, t.sortedResults_perm, t.pairwise_sortedResults⟩,
    t.statuses_finalizeFanOutTurn outcomes, t.timely_finalizeFanOutTurn outcomes,
    t.deferredStatus_finalizeFanOutTurn outcomes, t.raise_finalizeFanOutTurn outcomes⟩

end FanOutTurn

end SubagentsLab

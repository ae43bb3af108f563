import SubagentsLab.Host.Commit
import SubagentsLab.Machinery.Numerals
import SubagentsLab.Machinery.Passes
import SubagentsLab.Machinery.Update
import SubagentsLab.Turn.Epilogue
import SubagentsLab.Workers.Attribution
import SubagentsLab.Workers.Coordinator

/-!
# Workers/FanIn — what a multi-intent turn makes of its items

When `coordinator.submit` returns, the turn matches the results to its items by the turn ids they carry, and
the pending and failed items by their work item ids; then it has, under every index, a result to commit and a
status to give out.  A task that is retained reports its result later, under its own work item id.

Every item is answered for what its own task came to exactly when the items that return a result started in
their turn (`lawful_iff`): an item that is cancelled before its provider task starts leaves its index to the
next equal one, whose result is then filed under the cancelled item (`cancelled_item_answered`).
-/

namespace SubagentsLab

open Machinery
open Session (Derived GroundedResult WorkOutcome childWorkStatusAfterDispatch workStatusForOutcome)

/-! ## What comes back -/

/-- A result of a search: the task that returned it, the turn id it carries, and what it is. -/
structure Reply where
  task : ℕ
  turnId : String
  answered : Answered
  deriving DecidableEq, Repr

/-- What is filed under an index: a result of a search, or what the turn itself says of an item that goes on in
the background or has failed. -/
inductive Answer
  | worker (reply : Reply)
  | notice (turnId : String)
  | unavailable (turnId : String)
  deriving DecidableEq, Repr

/-- The turn id of a result. -/
def Answer.turnId : Answer → String
  | worker reply => reply.turnId
  | notice turnId => turnId
  | unavailable turnId => turnId

/-- A label of `outcome_labels`. -/
def Answered.label : Answered → WorkOutcome
  | completed => .completed
  | clarify => .clarify
  | declined => .declined

/-- `_failure_child_outcome`. -/
def FailureKind.childOutcome : FailureKind → WorkOutcome
  | capacityRejected => .capacityRejected
  | retentionRejected => .retentionRejected
  | cancelled => .cancelled
  | failed => .failed

namespace FanIn

/-- The task registered under `work-T-index`. -/
def taskOf (s : FanIn) (turn index : ℕ) : Option ℕ :=
  (List.range s.loop.created).find? fun i => s.registered i = some (turn, index)

/-- The result that task `i` returned. -/
def reply? (s : FanIn) (r : Runnable) (i : ℕ) : Option Reply :=
  (s.carried i).bind fun index => (s.answers i).map fun a => ⟨i, Session.itemTurnId r.turnId index, a⟩

/-- How a task of the turn ended, as far as it has; `exc` is what it raised. -/
def ending? (s : FanIn) (r : Runnable) (exc : ℕ → RaisedException) (i : ℕ) : Option (Ending Reply) :=
  match (s.loop.tasks i).phase with
  | .done .value => (s.reply? r i).map fun reply => .value (.object reply)
  | .done .raised => some (.raised (exc i))
  | .done .cancelled => some .cancelled
  | _ => none

/-- An item `submit` selected. -/
def slot (s : FanIn) (turn : ℕ) (r : Runnable) (item : ℕ × String × String) : Slot :=
  ⟨⟨Session.workItemId (Session.itemTurnId r.turnId item.1), item.2.1, item.2.2⟩, s.taskOf turn item.1⟩

/-- What `submit` returns, whichever tasks the coordinator accepts to retain. -/
def submitted (cfg : CoordinatorConfig) (s : FanIn) (turn : ℕ) (r : Runnable) (exc : ℕ → RaisedException)
    (accepted : ℕ → Bool) : SubmittedOutcome Reply :=
  let ended := s.ending? r exc
  let slots := (r.items.take cfg.maxWorkItemsPerTurn).map (s.slot turn r)
  let verdicts := (slots.filterMap (WorkItemCoordinator.unfinished ended)).map fun entry => (entry, accepted entry.2)
  { workItems := slots.map (·.item.workItemId)
    results := slots.filterMap (WorkItemCoordinator.slotResult ended)
    pendingWorkItemIds := verdicts.filterMap WorkItemCoordinator.pendingId
    failures := slots.filterMap WorkItemCoordinator.capacityFailure ++
      slots.filterMap (WorkItemCoordinator.executionFailure ended) ++
      verdicts.filterMap WorkItemCoordinator.retentionFailure }

end FanIn

/-! ## The fan-in -/

/-- What the fan-in has put together: the results and the statuses held back until they are committed, under
their indexes, and the statuses given out at once. -/
structure Joined where
  results : Dict ℤ Answer := ∅
  finalResultForIndex : Dict ℕ Reply := ∅
  speechRoles : Dict ℤ SpeechRole := ∅
  deferredStatus : Dict ℤ DeferredStatus := ∅
  attributedIndexes : Finset ℤ := ∅
  retainedWorkItems : Finset String := ∅
  emitted : List DeferredStatus := []

/-- What the fan-in reads: its turn with the labels `execute` left, the work items that were cancelled, and
whether the client sees statuses instead of timeout notices. -/
structure FanInContext where
  turn : Runnable
  outcomeLabels : ℕ → Option Answered
  cancelledIds : Finset String
  replacesLegacyResult : Bool

namespace FanInContext

variable (c : FanInContext)

def itemTurnId (k : ℕ) : String := Session.itemTurnId c.turn.turnId k

def workItemId (k : ℕ) : String := Session.workItemId (c.itemTurnId k)

/-- `runnable_indexes`. -/
def runnableIndexes : List ℕ := c.turn.items.map Prod.fst

/-- `index_to_worker_id[index][0]`. -/
def workerId (k : ℕ) : Option String := (c.turn.items.find? fun item => item.1 = k).map fun item => item.2.1

/-- `index_for_item_turn_id`. -/
def indexForItemTurnId (id : String) : Option ℕ := c.runnableIndexes.find? fun k => c.itemTurnId k = id

/-- `index_for_work_item_id`. -/
def indexForWorkItemId (id : String) : Option ℕ := c.runnableIndexes.find? fun k => c.workItemId k = id

def cancelled (k : ℕ) : Bool := c.workItemId k ∈ c.cancelledIds

/-- A status of an item. -/
def status (k : ℕ) (derived : Derived) : DeferredStatus where
  workItemId := c.workItemId k
  workerId := c.workerId k
  state := derived.1
  terminalReason := derived.2

/-- The results, the last one for an index wins; a turn id that is none of the turn's is dropped, and no search
returns a dictionary. -/
def matchResult (j : Joined) : MaterialResult Reply → Joined
  | .object reply =>
    match c.indexForItemTurnId reply.turnId with
    | none => j
    | some k =>
      { j with
        results := j.results.set k (.worker reply)
        finalResultForIndex := j.finalResultForIndex.set k reply }
  | .result _ _ _ => j

/-- Hold a status back. -/
def defer (j : Joined) (k : ℕ) (status : Option DeferredStatus) : Joined :=
  match status with
  | none => j
  | some status => { j with deferredStatus := j.deferredStatus.set k status }

/-- The status of an index that has a result. -/
def settleResult (j : Joined) (entry : ℕ × Reply) : Joined :=
  let outcome := (c.outcomeLabels entry.1).elim .completed Answered.label
  defer { j with attributedIndexes := insert (entry.1 : ℤ) j.attributedIndexes } entry.1
    ((workStatusForOutcome (some outcome) (c.cancelled entry.1) true (some outcome)).map (c.status entry.1))

/-- An item whose task was retained. -/
def joinPending (j : Joined) (id : String) : Joined :=
  match c.indexForWorkItemId id with
  | none => j
  | some k =>
    let j := { j with
      attributedIndexes := insert (k : ℤ) j.attributedIndexes
      retainedWorkItems := if id ∈ c.cancelledIds then j.retainedWorkItems else insert id j.retainedWorkItems }
    let j :=
      if c.replacesLegacyResult then j
      else { j with
        results := j.results.set k (.notice (c.itemTurnId k))
        speechRoles := j.speechRoles.set k .timeoutNotice }
    let derived := childWorkStatusAfterDispatch (some .retained) (id ∈ c.cancelledIds) none
    { j with emitted := j.emitted ++ (derived.map (c.status k)).toList }

/-- An item that failed. -/
def joinFailure (j : Joined) (failure : WorkItemFailure) : Joined :=
  match c.indexForWorkItemId failure.workItemId with
  | none => j
  | some k =>
    let outcome := failure.failureKind.childOutcome
    let derived := workStatusForOutcome (some outcome) (failure.workItemId ∈ c.cancelledIds) true (some outcome)
    defer { j with
        attributedIndexes := insert (k : ℤ) j.attributedIndexes
        results := j.results.set k (.unavailable (c.itemTurnId k)) } k
      (derived.map fun derived => { c.status k derived with
        workItemId := failure.workItemId, workerId := some failure.workerId })

/-- An item the coordinator did not account for. -/
def reconcile (j : Joined) (k : ℕ) : Joined :=
  if (k : ℤ) ∈ j.attributedIndexes then j
  else { j with emitted := j.emitted ++ [c.status k (if c.cancelled k then .cancelled else .failed, none)] }

/-- The fan-in loops of `_handle_multi_intent`. -/
def join (outcome : SubmittedOutcome Reply) : Joined :=
  let j := outcome.results.foldl c.matchResult {}
  let j := j.finalResultForIndex.entries.foldl c.settleResult j
  let j := outcome.pendingWorkItemIds.foldl c.joinPending j
  let j := outcome.failures.foldl c.joinFailure j
  c.runnableIndexes.foldl c.reconcile j

/-! ## One item -/

/-- What the fan-in has made of one item. -/
@[ext] structure Fate where
  result : Option Answer := none
  final : Option Reply := none
  role : Option SpeechRole := none
  deferred : Option DeferredStatus := none
  attributed : Bool := false
  retained : Bool := false
  emitted : List DeferredStatus := []

/-- What stands under an index. -/
def fateOf (k : ℕ) (j : Joined) : Fate where
  result := j.results.get? k
  final := j.finalResultForIndex.get? k
  role := j.speechRoles.get? k
  deferred := j.deferredStatus.get? k
  attributed := (k : ℤ) ∈ j.attributedIndexes
  retained := c.workItemId k ∈ j.retainedWorkItems
  emitted := j.emitted.filter fun status => status.workItemId = c.workItemId k

/-- What the task of an item came to. -/
inductive Came
  | unsubmitted
  | returned (reply : Reply)
  | pending
  | failed (kind : FailureKind)

/-- **What an item is owed for what its own task came to**: its result, its failure or its notice, and its own
status. -/
def due (k : ℕ) : Came → Fate
  | .unsubmitted => { emitted := [c.status k (if c.cancelled k then .cancelled else .failed, none)] }
  | .returned reply =>
    { result := some (.worker reply)
      final := some reply
      deferred := (workStatusForOutcome (some reply.answered.label) (c.cancelled k) true
        (some reply.answered.label)).map (c.status k)
      attributed := true }
  | .pending =>
    { result := if c.replacesLegacyResult then none else some (.notice (c.itemTurnId k))
      role := if c.replacesLegacyResult then none else some .timeoutNotice
      attributed := true
      retained := !c.cancelled k
      emitted := ((childWorkStatusAfterDispatch (some .retained) (c.cancelled k) none).map (c.status k)).toList }
  | .failed kind =>
    { result := some (.unavailable (c.itemTurnId k))
      deferred := (workStatusForOutcome (some kind.childOutcome) (c.cancelled k) true
        (some kind.childOutcome)).map (c.status k)
      attributed := true }

/-- The fate of an item once a result was matched to it. -/
def matched (reply : Reply) (t : Fate) : Fate := { t with result := some (.worker reply), final := some reply }

/-- The fate of an index once its result was settled. -/
def settled (k : ℕ) (t : Fate) : Fate :=
  let outcome := (c.outcomeLabels k).elim .completed Answered.label
  { t with
    attributed := true
    deferred := ((workStatusForOutcome (some outcome) (c.cancelled k) true (some outcome)).map (c.status k)).or t.deferred }

/-- The fate of an item once it was joined as pending. -/
def pended (k : ℕ) (t : Fate) : Fate :=
  { t with
    result := if c.replacesLegacyResult then t.result else some (.notice (c.itemTurnId k))
    role := if c.replacesLegacyResult then t.role else some .timeoutNotice
    attributed := true
    retained := t.retained || !c.cancelled k
    emitted := t.emitted ++
      ((childWorkStatusAfterDispatch (some .retained) (c.cancelled k) none).map (c.status k)).toList }

/-- The fate of an item once it was joined as failed. -/
def failedAs (k : ℕ) (kind : FailureKind) (t : Fate) : Fate :=
  { t with
    result := some (.unavailable (c.itemTurnId k))
    attributed := true
    deferred := ((workStatusForOutcome (some kind.childOutcome) (c.cancelled k) true (some kind.childOutcome)).map
      (c.status k)).or t.deferred }

/-- The fate of an item in the end. -/
def reconciled (k : ℕ) (t : Fate) : Fate :=
  if t.attributed = false then
    { t with emitted := t.emitted ++ [c.status k (if c.cancelled k then .cancelled else .failed, none)] }
  else t

variable {c}

theorem itemTurnId_injective : Function.Injective c.itemTurnId := by
  intro k k' h
  rw [itemTurnId, itemTurnId, Session.itemTurnId, Session.itemTurnId, String.append_right_inj] at h
  exact Numeral.toString_injective h

theorem workItemId_injective : Function.Injective c.workItemId := by
  intro k k' h
  rw [workItemId, workItemId, Session.workItemId, Session.workItemId, String.append_right_inj] at h
  exact itemTurnId_injective h

theorem find?_runnableIndexes {f : ℕ → String} (hf : Function.Injective f) {k : ℕ} (hk : k ∈ c.runnableIndexes) :
    c.runnableIndexes.find? (fun k' => f k' = f k) = some k := by
  have hfound : (c.runnableIndexes.find? fun k' => f k' = f k).isSome := List.find?_isSome.mpr ⟨k, hk, decide_eq_true rfl⟩
  obtain ⟨k', hk'⟩ := Option.isSome_iff_exists.mp hfound
  have heq := List.find?_some hk'
  rw [decide_eq_true_eq] at heq
  rw [hk', hf heq]

theorem indexForItemTurnId_eq {k : ℕ} (hk : k ∈ c.runnableIndexes) : c.indexForItemTurnId (c.itemTurnId k) = some k :=
  find?_runnableIndexes itemTurnId_injective hk

theorem indexForWorkItemId_eq {k : ℕ} (hk : k ∈ c.runnableIndexes) : c.indexForWorkItemId (c.workItemId k) = some k :=
  find?_runnableIndexes workItemId_injective hk

/-! ### What each loop does to an item -/

theorem fateOf_matchResult {reply : Reply} {k : ℕ} (hk : c.indexForItemTurnId reply.turnId = some k) (j : Joined) (k' : ℕ) :
    c.fateOf k' (c.matchResult j (.object reply)) = if k' = k then matched reply (c.fateOf k j) else c.fateOf k' j := by
  rw [matchResult, hk]
  by_cases hkk : k' = k
  · subst hkk
    simp [fateOf, matched]
  · simp [fateOf, hkk]

theorem fateOf_defer (j : Joined) (k : ℕ) (status : Option DeferredStatus) (k' : ℕ) :
    c.fateOf k' (defer j k status)
      = if k' = k then { c.fateOf k j with deferred := status.or (c.fateOf k j).deferred } else c.fateOf k' j := by
  rcases status with _ | status
  · rw [defer]
    split_ifs with hkk
    · rw [hkk]
      rfl
    · rfl
  · have hget : (defer j k (some status)).deferredStatus.get? k'
        = if (k' : ℤ) = k then some status else j.deferredStatus.get? k' := Dict.get?_set _ _ _ _
    split_ifs with hkk
    · subst hkk
      rw [if_pos rfl] at hget
      exact Fate.ext rfl rfl rfl hget rfl rfl rfl
    · rw [if_neg (by omega)] at hget
      exact Fate.ext rfl rfl rfl hget rfl rfl rfl

theorem fateOf_settleResult (j : Joined) (entry : ℕ × Reply) (k' : ℕ) :
    c.fateOf k' (c.settleResult j entry)
      = if k' = entry.1 then c.settled entry.1 (c.fateOf entry.1 j) else c.fateOf k' j := by
  rw [settleResult, fateOf_defer]
  by_cases hkk : k' = entry.1
  · subst hkk
    simp [fateOf, settled]
  · simp [fateOf, hkk]

/-- The statuses given out for one item. -/
theorem filter_status (k k' : ℕ) (derived : Option Derived) :
    (derived.map (c.status k)).toList.filter (fun status => status.workItemId = c.workItemId k')
      = if k' = k then (derived.map (c.status k)).toList else [] := by
  rcases derived with _ | derived
  · simp
  · by_cases hkk : k' = k
    · simp [hkk, status]
    · have hne : c.workItemId k ≠ c.workItemId k' := fun heq => hkk (workItemId_injective heq).symm
      simp [hkk, hne, status]

theorem fateOf_joinPending {k : ℕ} (hk : c.indexForWorkItemId (c.workItemId k) = some k) (j : Joined) (k' : ℕ) :
    c.fateOf k' (c.joinPending j (c.workItemId k)) = if k' = k then c.pended k (c.fateOf k j) else c.fateOf k' j := by
  rw [joinPending, hk]
  by_cases hkk : k' = k
  · subst hkk
    by_cases hlegacy : c.replacesLegacyResult <;> by_cases hcancelled : c.workItemId k' ∈ c.cancelledIds <;>
      simp [fateOf, pended, cancelled, hlegacy, hcancelled, filter_status, List.filter_append]
  · have hne : ¬c.workItemId k = c.workItemId k' := fun heq => hkk (workItemId_injective heq).symm
    by_cases hlegacy : c.replacesLegacyResult <;> by_cases hcancelled : c.workItemId k ∈ c.cancelledIds <;>
      simp [fateOf, hlegacy, hcancelled, hkk, filter_status, Ne.symm hne]

theorem fateOf_joinFailure {failure : WorkItemFailure} {k : ℕ} (hk : c.indexForWorkItemId failure.workItemId = some k)
    (hid : failure.workItemId = c.workItemId k) (hworker : some failure.workerId = c.workerId k) (j : Joined) (k' : ℕ) :
    c.fateOf k' (c.joinFailure j failure)
      = if k' = k then c.failedAs k failure.failureKind (c.fateOf k j) else c.fateOf k' j := by
  have hstatus : (fun derived : Derived => { c.status k derived with
      workItemId := failure.workItemId, workerId := some failure.workerId }) = c.status k := by
    funext derived
    rw [hid, hworker]
    rfl
  rw [joinFailure, hk]
  dsimp only
  rw [hstatus, fateOf_defer]
  by_cases hkk : k' = k
  · subst hkk
    simp [fateOf, failedAs, hid, cancelled]
  · simp [fateOf, hkk]

theorem fateOf_reconcile (j : Joined) (k k' : ℕ) :
    c.fateOf k' (c.reconcile j k) = if k' = k then c.reconciled k (c.fateOf k j) else c.fateOf k' j := by
  rw [reconcile, reconciled]
  by_cases hattributed : (k : ℤ) ∈ j.attributedIndexes
  · have hknown : ¬(c.fateOf k j).attributed = false := by simp [fateOf, hattributed]
    rw [if_pos hattributed, if_neg hknown]
    split_ifs with hkk
    · rw [hkk]
    · rfl
  · have hunknown : (c.fateOf k j).attributed = false := by simp [fateOf, hattributed]
    rw [if_neg hattributed, if_pos hunknown]
    by_cases hkk : k' = k
    · subst hkk
      simp [fateOf, status]
    · have hne : ¬c.workItemId k = c.workItemId k' := fun heq => hkk (workItemId_injective heq).symm
      simp [fateOf, hkk, hne, status]

/-! ### Whole loops -/

variable {item : ℕ × String × String} {j : Joined}

theorem nodup_runnableIndexes : c.runnableIndexes.Nodup := c.turn.ascending.imp Nat.ne_of_lt

theorem mem_runnableIndexes (hitem : item ∈ c.turn.items) : item.1 ∈ c.runnableIndexes := List.mem_map_of_mem hitem

theorem workerId_eq (hitem : item ∈ c.turn.items) : c.workerId item.1 = some item.2.1 := by
  have hfound : (c.turn.items.find? fun item' => item'.1 = item.1).isSome :=
    List.find?_isSome.mpr ⟨item, hitem, decide_eq_true rfl⟩
  obtain ⟨item', hitem'⟩ := Option.isSome_iff_exists.mp hfound
  have heq := List.find?_some hitem'
  rw [decide_eq_true_eq] at heq
  rw [workerId, hitem', List.inj_on_of_nodup_map nodup_runnableIndexes (List.mem_of_find?_eq_some hitem') hitem heq]
  rfl

/-- A result files itself under the item whose turn id it carries. -/
theorem fateOf_results {select : ℕ × String × String → Option Reply}
    (hselect : ∀ item ∈ c.turn.items, ∀ reply ∈ select item, reply.turnId = c.itemTurnId item.1)
    (hitem : item ∈ c.turn.items) (j : Joined) :
    c.fateOf item.1 ((c.turn.items.filterMap fun item => (select item).map .object).foldl c.matchResult j)
      = (select item).elim (c.fateOf item.1 j) fun reply => matched reply (c.fateOf item.1 j) := by
  have hmatch : ∀ item ∈ c.turn.items, ∀ reply ∈ select item, c.indexForItemTurnId reply.turnId = some item.1 := by
    intro item hitem reply hreply
    rw [hselect item hitem reply hreply]
    exact indexForItemTurnId_eq (mem_runnableIndexes hitem)
  rw [← List.map_filterMap, List.foldl_map]
  refine view_foldl_filterMap c.fateOf Prod.fst (fun _ => matched) nodup_runnableIndexes
    (fun item hitem reply hreply j => ?_) (fun item hitem reply hreply k hk j => ?_) hitem j
  · rw [fateOf_matchResult (hmatch item hitem reply hreply), if_pos rfl]
  · rw [fateOf_matchResult (hmatch item hitem reply hreply), if_neg hk]

/-- Every index with a result is settled. -/
theorem fateOf_settleResults (j : Joined) (k : ℕ) :
    c.fateOf k (j.finalResultForIndex.entries.foldl c.settleResult j)
      = (c.fateOf k j).final.elim (c.fateOf k j) fun _ => c.settled k (c.fateOf k j) := by
  rcases hget : j.finalResultForIndex.get? k with _ | reply
  · rw [show (c.fateOf k j).final = none from hget]
    refine view_foldl_of_forall (c.fateOf k) (fun entry hentry j' => ?_) j
    rw [fateOf_settleResult, if_neg]
    rintro rfl
    rw [Dict.get?_eq_some_iff.mpr hentry] at hget
    cases hget
  · have hpass : c.fateOf k ((j.finalResultForIndex.entries.filterMap some).foldl c.settleResult j) = _ :=
      view_foldl_filterMap c.fateOf Prod.fst (fun entry _ => c.settled entry.1) j.finalResultForIndex.nodup_keys
        (fun entry _ entry' hentry j => by
          cases hentry
          rw [fateOf_settleResult, if_pos rfl])
        (fun entry _ entry' hentry k hk j => by
          cases hentry
          rw [fateOf_settleResult, if_neg hk])
        (Dict.get?_eq_some_iff.mp hget) j
    rw [List.filterMap_some] at hpass
    rw [show (c.fateOf k j).final = some reply from hget]
    exact hpass

/-- Every pending item is joined as pending. -/
theorem fateOf_pendings {select : ℕ × String × String → Option String}
    (hselect : ∀ item ∈ c.turn.items, ∀ id ∈ select item, id = c.workItemId item.1) (hitem : item ∈ c.turn.items)
    (j : Joined) :
    c.fateOf item.1 ((c.turn.items.filterMap select).foldl c.joinPending j)
      = (select item).elim (c.fateOf item.1 j) fun _ => c.pended item.1 (c.fateOf item.1 j) := by
  refine view_foldl_filterMap c.fateOf Prod.fst (fun item _ => c.pended item.1) nodup_runnableIndexes
    (fun item hitem id hid j => ?_) (fun item hitem id hid k hk j => ?_) hitem j
  · rw [hselect item hitem id hid, fateOf_joinPending (indexForWorkItemId_eq (mem_runnableIndexes hitem)), if_pos rfl]
  · rw [hselect item hitem id hid, fateOf_joinPending (indexForWorkItemId_eq (mem_runnableIndexes hitem)), if_neg hk]

/-- Every failed item is joined as failed. -/
theorem fateOf_failures {select : ℕ × String × String → Option WorkItemFailure}
    (hselect : ∀ item ∈ c.turn.items, ∀ failure ∈ select item,
      failure.workItemId = c.workItemId item.1 ∧ failure.workerId = item.2.1) (hitem : item ∈ c.turn.items) (j : Joined) :
    c.fateOf item.1 ((c.turn.items.filterMap select).foldl c.joinFailure j)
      = (select item).elim (c.fateOf item.1 j) fun failure => c.failedAs item.1 failure.failureKind (c.fateOf item.1 j) := by
  have hjoin : ∀ item ∈ c.turn.items, ∀ failure ∈ select item, ∀ j k, c.fateOf k (c.joinFailure j failure)
      = if k = item.1 then c.failedAs item.1 failure.failureKind (c.fateOf item.1 j) else c.fateOf k j := by
    intro item hitem failure hfailure j k
    obtain ⟨hid, hworker⟩ := hselect item hitem failure hfailure
    refine fateOf_joinFailure ?_ hid ?_ j k
    · rw [hid]
      exact indexForWorkItemId_eq (mem_runnableIndexes hitem)
    · rw [hworker, workerId_eq hitem]
  refine view_foldl_filterMap c.fateOf Prod.fst (fun item (failure : WorkItemFailure) => c.failedAs item.1 failure.failureKind)
    nodup_runnableIndexes (fun item hitem failure hfailure j => ?_) (fun item hitem failure hfailure k hk j => ?_) hitem j
  · rw [hjoin item hitem failure hfailure, if_pos rfl]
  · rw [hjoin item hitem failure hfailure, if_neg hk]

/-- Every item is reconciled in the end. -/
theorem fateOf_reconciles (hitem : item ∈ c.turn.items) (j : Joined) :
    c.fateOf item.1 (c.runnableIndexes.foldl c.reconcile j) = c.reconciled item.1 (c.fateOf item.1 j) := by
  have hpass : c.fateOf item.1 ((c.turn.items.filterMap (some ∘ Prod.fst)).foldl c.reconcile j) = _ :=
    view_foldl_filterMap c.fateOf Prod.fst (fun item _ => c.reconciled item.1) nodup_runnableIndexes
      (fun item _ k hk j => by
        cases hk
        rw [fateOf_reconcile, if_pos rfl])
      (fun item _ k hk k' hk' j => by
        cases hk
        rw [fateOf_reconcile, if_neg hk'])
      hitem j
  rw [List.filterMap_eq_map] at hpass
  exact hpass

/-! ### The whole fan-in -/

/-- What one item has in an outcome of `submit`: a result, a pending id, or a failure of one of three kinds. -/
structure Share where
  reply : Option Reply := none
  pending : Option String := none
  unstarted : Option WorkItemFailure := none
  ended : Option WorkItemFailure := none
  rejected : Option WorkItemFailure := none

/-- A share names its own item. -/
structure Share.Own (c : FanInContext) (item : ℕ × String × String) (share : Share) : Prop where
  reply : ∀ reply ∈ share.reply, reply.turnId = c.itemTurnId item.1
  pending : ∀ id ∈ share.pending, id = c.workItemId item.1
  unstarted : ∀ failure ∈ share.unstarted, failure.workItemId = c.workItemId item.1 ∧ failure.workerId = item.2.1
  ended : ∀ failure ∈ share.ended, failure.workItemId = c.workItemId item.1 ∧ failure.workerId = item.2.1
  rejected : ∀ failure ∈ share.rejected, failure.workItemId = c.workItemId item.1 ∧ failure.workerId = item.2.1

/-- An outcome is made of the shares of its items. -/
structure Shared (c : FanInContext) (share : ℕ × String × String → Share) (outcome : SubmittedOutcome Reply) : Prop where
  results : outcome.results = c.turn.items.filterMap fun item => (share item).reply.map .object
  pendings : outcome.pendingWorkItemIds = c.turn.items.filterMap fun item => (share item).pending
  failures : outcome.failures = (c.turn.items.filterMap fun item => (share item).unstarted) ++
    (c.turn.items.filterMap fun item => (share item).ended) ++ c.turn.items.filterMap fun item => (share item).rejected

variable (c) in
/-- The fate of an item with a share. -/
def awarded (k : ℕ) (share : Share) : Fate :=
  let t : Fate := share.reply.elim {} fun reply => matched reply {}
  let t := t.final.elim t fun _ => c.settled k t
  let t := share.pending.elim t fun _ => c.pended k t
  let t := share.unstarted.elim t fun failure => c.failedAs k failure.failureKind t
  let t := share.ended.elim t fun failure => c.failedAs k failure.failureKind t
  let t := share.rejected.elim t fun failure => c.failedAs k failure.failureKind t
  c.reconciled k t

/-- **Where every share names its own item, the fate of an item comes from its share alone.** -/
theorem fateOf_join {share : ℕ × String × String → Share} {outcome : SubmittedOutcome Reply}
    (hshared : c.Shared share outcome) (hown : ∀ item ∈ c.turn.items, (share item).Own c item)
    (hitem : item ∈ c.turn.items) : c.fateOf item.1 (c.join outcome) = c.awarded item.1 (share item) := by
  have hempty : c.fateOf item.1 {} = {} := by simp [fateOf]
  rw [join, hshared.results, hshared.pendings, hshared.failures, List.foldl_append, List.foldl_append,
    fateOf_reconciles hitem, fateOf_failures (fun item hitem => (hown item hitem).rejected) hitem,
    fateOf_failures (fun item hitem => (hown item hitem).ended) hitem,
    fateOf_failures (fun item hitem => (hown item hitem).unstarted) hitem,
    fateOf_pendings (fun item hitem => (hown item hitem).pending) hitem, fateOf_settleResults,
    fateOf_results (fun item hitem => (hown item hitem).reply) hitem, hempty]
  rfl

/-- Every result is filed under an index of the turn. -/
def Known (c : FanInContext) (results : Dict ℤ Answer) : Prop :=
  ∀ index, (results.get? index).isSome → ∃ k ∈ c.runnableIndexes, index = (k : ℤ)

theorem Known.set {results : Dict ℤ Answer} (h : c.Known results) {k : ℕ} (hk : k ∈ c.runnableIndexes) (answer : Answer) :
    c.Known (results.set k answer) := by
  intro index hindex
  rw [Dict.get?_set] at hindex
  split_ifs at hindex with heq
  · exact ⟨k, hk, heq⟩
  · exact h index hindex

theorem results_defer (j : Joined) (k : ℕ) (status : Option DeferredStatus) : (defer j k status).results = j.results := by
  cases status <;> rfl

theorem results_settleResult (j : Joined) (entry : ℕ × Reply) : (c.settleResult j entry).results = j.results :=
  results_defer _ _ _

theorem results_reconcile (j : Joined) (k : ℕ) : (c.reconcile j k).results = j.results := by
  rw [reconcile]
  split <;> rfl

theorem Known.matchResult (h : c.Known j.results) (result : MaterialResult Reply) : c.Known (c.matchResult j result).results := by
  rcases result with reply | ⟨outcome, text, citations⟩
  · rw [FanInContext.matchResult]
    split
    · exact h
    · rename_i k hk
      exact h.set (List.mem_of_find?_eq_some hk) _
  · exact h

theorem Known.joinPending (h : c.Known j.results) (id : String) : c.Known (c.joinPending j id).results := by
  rw [FanInContext.joinPending]
  split
  · exact h
  · rename_i k hk
    dsimp only
    by_cases hlegacy : c.replacesLegacyResult = true
    · rw [if_pos hlegacy]
      exact h
    · rw [if_neg hlegacy]
      exact h.set (List.mem_of_find?_eq_some hk) _

theorem Known.joinFailure (h : c.Known j.results) (failure : WorkItemFailure) : c.Known (c.joinFailure j failure).results := by
  rw [FanInContext.joinFailure]
  split
  · exact h
  · rename_i k hk
    rw [results_defer]
    exact h.set (List.mem_of_find?_eq_some hk) _

theorem Known.foldl {γ : Type} {step : Joined → γ → Joined} (hstep : ∀ j y, c.Known j.results → c.Known (step j y).results)
    (h : c.Known j.results) (ys : List γ) : c.Known (ys.foldl step j).results :=
  run_invariant_of_step (fun j y hj => hstep j y hj) h ys

/-- **Nothing is filed under an index that is not the turn's.** -/
theorem known_join (c : FanInContext) (outcome : SubmittedOutcome Reply) : c.Known (c.join outcome).results := by
  have hinit : c.Known (Joined.results {}) := nofun
  rw [join]
  refine .foldl (fun j k hj => by rwa [results_reconcile]) ?_ _
  refine .foldl (fun j failure hj => hj.joinFailure failure) ?_ _
  refine .foldl (fun j id hj => hj.joinPending id) ?_ _
  refine .foldl (fun j entry hj => by rwa [results_settleResult]) ?_ _
  exact .foldl (fun j result hj => hj.matchResult result) hinit _

/-- `finalize_fan_out_turn` is called with what the fan-in has put together; `canonical` makes a result of an answer. -/
def epilogue (c : FanInContext) (j : Joined) (epoch : ℤ) (canonical : Answer → GroundedResult) : FanOutTurn where
  turnId := c.turn.turnId
  parentWorkItemId := Session.workItemId c.turn.turnId
  epoch
  results := j.results.mapValues canonical
  attributedIndexes := j.attributedIndexes
  retainedWorkItems := j.retainedWorkItems
  deferredStatus := j.deferredStatus
  speechRoles := j.speechRoles

end FanInContext

namespace FanIn

/-! ## The items of a turn -/

/-- What the fan-in of a turn reads. -/
def context (s : FanIn) (turn : ℕ) (r : Runnable) (cancelledIds : Finset String) (replaces : Bool) : FanInContext :=
  ⟨r, s.outcomeLabels turn, cancelledIds, replaces⟩

/-- **What the own task of an item came to.** -/
def came (cfg : CoordinatorConfig) (s : FanIn) (turn : ℕ) (r : Runnable) (accepted : ℕ → Bool)
    (item : ℕ × String × String) : FanInContext.Came :=
  if item ∈ r.items.take cfg.maxWorkItemsPerTurn then
    match s.taskOf turn item.1 with
    | none => .failed .capacityRejected
    | some i =>
      match (s.loop.tasks i).phase, s.answers i with
      | .done .value, some a => .returned ⟨i, Session.itemTurnId r.turnId item.1, a⟩
      | .done .cancelled, _ => .failed .cancelled
      | .done _, _ => .failed .failed
      | _, _ => if accepted i then .pending else .failed .retentionRejected
  else .unsubmitted

variable {cfg : CoordinatorConfig} {s : FanIn} {turn : ℕ} {r : Runnable} {item : ℕ × String × String}

theorem registered_taskOf {index i : ℕ} (hi : s.taskOf turn index = some i) : s.registered i = some (turn, index) := by
  have hfound := List.find?_some hi
  rwa [decide_eq_true_eq] at hfound

/-- The result of an item whose own turn id it carries. -/
theorem Sound.reply_eq (h : s.Sound) (ha : s.Attributed) {index i : ℕ} (hi : s.registered i = some (turn, index))
    (hphase : (s.loop.tasks i).phase = .done .value) :
    ∃ a, s.answers i = some a ∧ s.reply? r i = some ⟨i, Session.itemTurnId r.turnId index, a⟩ ∧
      s.outcomeLabels turn index = some a := by
  obtain ⟨a, hanswer⟩ := Option.isSome_iff_exists.mp (h.returned i (Option.isSome_iff_exists.mpr ⟨_, hi⟩) hphase)
  obtain ⟨x, k, hx, hpopped, hlabel⟩ := h.labelled i a hanswer
  have hcarried := ha i turn index hi hphase
  obtain ⟨hxmem, hitem⟩ := h.execution?_eq_some_iff.mp hx
  have howner := (h.started x hxmem).1
  rw [hitem, hi] at howner
  have hturn : turn = x.turn := congrArg Prod.fst (Option.some.inj howner)
  have hk : k = index := by
    rw [carried, hx, Option.bind_some, hpopped] at hcarried
    exact Option.some.inj hcarried
  refine ⟨a, hanswer, ?_, by rw [hturn, ← hk, hlabel]⟩
  rw [reply?, hcarried, hanswer]
  rfl

/-- What an item of the selection gives. -/
def pick {γ : Type} (cfg : CoordinatorConfig) (r : Runnable) (f : ℕ × String × String → Option γ)
    (item : ℕ × String × String) : Option γ :=
  if item ∈ r.items.take cfg.maxWorkItemsPerTurn then f item else none

theorem filterMap_take {γ : Type} (cfg : CoordinatorConfig) (r : Runnable) (f : ℕ × String × String → Option γ) :
    (r.items.take cfg.maxWorkItemsPerTurn).filterMap f = r.items.filterMap (pick cfg r f) := by
  have hnodup : r.items.Nodup := List.Nodup.of_map Prod.fst (r.ascending.imp Nat.ne_of_lt)
  rw [← List.take_append_drop cfg.maxWorkItemsPerTurn r.items, List.nodup_append] at hnodup
  conv_rhs => rw [← List.take_append_drop cfg.maxWorkItemsPerTurn r.items, List.filterMap_append]
  have hkept : (r.items.take cfg.maxWorkItemsPerTurn).filterMap (pick cfg r f)
      = (r.items.take cfg.maxWorkItemsPerTurn).filterMap f :=
    List.filterMap_congr fun item hitem => if_pos hitem
  have hdropped : (r.items.drop cfg.maxWorkItemsPerTurn).filterMap (pick cfg r f) = [] :=
    List.filterMap_eq_nil_iff.mpr fun item hitem => if_neg fun htake => hnodup.2.2 item htake item hitem rfl
  rw [hkept, hdropped, List.append_nil]

/-- The result an item came back with. -/
def replyOf (s : FanIn) (turn : ℕ) (r : Runnable) (item : ℕ × String × String) : Option Reply :=
  (s.taskOf turn item.1).bind fun i => if (s.loop.tasks i).phase = .done .value then s.reply? r i else none

theorem slotResult_slot (exc : ℕ → RaisedException) :
    WorkItemCoordinator.slotResult (s.ending? r exc) (s.slot turn r item) = (s.replyOf turn r item).map .object := by
  rw [WorkItemCoordinator.slotResult, slot, replyOf]
  rcases s.taskOf turn item.1 with _ | i
  · rfl
  dsimp only [Option.bind_some]
  rw [ending?]
  rcases (s.loop.tasks i).phase with _ | _ | _ | _ | _
  case done.value => cases s.reply? r i <;> rfl
  all_goals rfl

/-- The failure of an item that was not retained. -/
def rejection (s : FanIn) (turn : ℕ) (r : Runnable) (exc : ℕ → RaisedException) (accepted : ℕ → Bool)
    (item : ℕ × String × String) : Option WorkItemFailure :=
  (WorkItemCoordinator.unfinished (s.ending? r exc) (s.slot turn r item)).bind fun entry =>
    WorkItemCoordinator.retentionFailure (entry, accepted entry.2)

/-- The pending id of an item that was. -/
def retention (s : FanIn) (turn : ℕ) (r : Runnable) (exc : ℕ → RaisedException) (accepted : ℕ → Bool)
    (item : ℕ × String × String) : Option String :=
  (WorkItemCoordinator.unfinished (s.ending? r exc) (s.slot turn r item)).bind fun entry =>
    WorkItemCoordinator.pendingId (entry, accepted entry.2)

/-- What an item has in the outcome of `submit`. -/
def share (cfg : CoordinatorConfig) (s : FanIn) (turn : ℕ) (r : Runnable) (exc : ℕ → RaisedException)
    (accepted : ℕ → Bool) (item : ℕ × String × String) : FanInContext.Share where
  reply := pick cfg r (s.replyOf turn r) item
  pending := pick cfg r (s.retention turn r exc accepted) item
  unstarted := pick cfg r (fun item => WorkItemCoordinator.capacityFailure (s.slot turn r item)) item
  ended := pick cfg r (fun item => WorkItemCoordinator.executionFailure (s.ending? r exc) (s.slot turn r item)) item
  rejected := pick cfg r (s.rejection turn r exc accepted) item

/-- **What `submit` returns, item by item.** -/
theorem shared_submitted (c : FanInContext) (exc : ℕ → RaisedException) (accepted : ℕ → Bool) :
    c.Shared (s.share cfg turn c.turn exc accepted) (s.submitted cfg turn c.turn exc accepted) := by
  have hpick : ∀ item, (pick cfg c.turn (s.replyOf turn c.turn) item).map MaterialResult.object
      = pick cfg c.turn (fun item => (s.replyOf turn c.turn item).map .object) item := by
    intro item
    rw [pick, pick]
    split_ifs <;> rfl
  constructor
  · rw [submitted]
    dsimp only [share]
    simp only [hpick, List.filterMap_map]
    rw [← filterMap_take]
    exact List.filterMap_congr fun item _ => slotResult_slot exc
  · rw [submitted]
    dsimp only [share]
    simp only [List.filterMap_map, List.filterMap_filterMap]
    exact filterMap_take cfg c.turn _
  · rw [submitted]
    dsimp only [share]
    simp only [List.filterMap_map, List.filterMap_filterMap]
    rw [← filterMap_take, ← filterMap_take, ← filterMap_take]
    rfl

variable (cfg turn r item) in
/-- **An item has one place in an outcome**, and it is that of its own task. -/
theorem Sound.share_cases (h : s.Sound) (ha : s.Attributed) (exc : ℕ → RaisedException) (accepted : ℕ → Bool) :
    (s.share cfg turn r exc accepted item = {} ∧ s.came cfg turn r accepted item = .unsubmitted) ∨
    (∃ reply, s.share cfg turn r exc accepted item = { reply := some reply } ∧
      s.came cfg turn r accepted item = .returned reply ∧ reply.turnId = Session.itemTurnId r.turnId item.1 ∧
      s.outcomeLabels turn item.1 = some reply.answered) ∨
    (s.share cfg turn r exc accepted item
        = { pending := some (Session.workItemId (Session.itemTurnId r.turnId item.1)) } ∧
      s.came cfg turn r accepted item = .pending) ∨
    ∃ failure, (s.share cfg turn r exc accepted item = { unstarted := some failure } ∨
        s.share cfg turn r exc accepted item = { ended := some failure } ∨
        s.share cfg turn r exc accepted item = { rejected := some failure }) ∧
      s.came cfg turn r accepted item = .failed failure.failureKind ∧
      failure.workItemId = Session.workItemId (Session.itemTurnId r.turnId item.1) ∧ failure.workerId = item.2.1 := by
  rw [share, came]
  by_cases hselected : item ∈ r.items.take cfg.maxWorkItemsPerTurn
  swap
  · refine Or.inl ⟨?_, if_neg hselected⟩
    simp only [pick, if_neg hselected]
  simp only [pick, if_pos hselected, replyOf, retention, rejection, slot]
  rcases htask : s.taskOf turn item.1 with _ | i
  · exact Or.inr (Or.inr (Or.inr ⟨_, Or.inl rfl, rfl, rfl, rfl⟩))
  have hregistered := registered_taskOf htask
  simp only [WorkItemCoordinator.capacityFailure, WorkItemCoordinator.executionFailure, WorkItemCoordinator.unfinished,
    Option.bind_some]
  obtain ⟨phase, hphase⟩ : ∃ phase, (s.loop.tasks i).phase = phase := ⟨_, rfl⟩
  rcases phase with _ | on | outcome
  · have hending : s.ending? r exc i = none := by rw [ending?, hphase]
    rcases haccepted : accepted i with _ | _
    · simp only [hphase, hending, WorkItemCoordinator.pendingId, WorkItemCoordinator.retentionFailure, haccepted,
        Option.isNone_none, if_true, Option.bind_some, reduceCtorEq, if_false, Bool.false_eq_true]
      exact Or.inr (Or.inr (Or.inr ⟨_, Or.inr (Or.inr rfl), rfl, rfl, rfl⟩))
    · simp only [hphase, hending, WorkItemCoordinator.pendingId, WorkItemCoordinator.retentionFailure, haccepted,
        Option.isNone_none, if_true, Option.bind_some, reduceCtorEq, if_false]
      exact Or.inr (Or.inr (Or.inl ⟨trivial, trivial⟩))
  · have hending : s.ending? r exc i = none := by rw [ending?, hphase]
    rcases haccepted : accepted i with _ | _
    · simp only [hphase, hending, WorkItemCoordinator.pendingId, WorkItemCoordinator.retentionFailure, haccepted,
        Option.isNone_none, if_true, Option.bind_some, reduceCtorEq, if_false, Bool.false_eq_true]
      exact Or.inr (Or.inr (Or.inr ⟨_, Or.inr (Or.inr rfl), rfl, rfl, rfl⟩))
    · simp only [hphase, hending, WorkItemCoordinator.pendingId, WorkItemCoordinator.retentionFailure, haccepted,
        Option.isNone_none, if_true, Option.bind_some, reduceCtorEq, if_false]
      exact Or.inr (Or.inr (Or.inl ⟨trivial, trivial⟩))
  · rcases outcome with _ | _ | _
    · obtain ⟨a, hanswer, hreply, hlabel⟩ := h.reply_eq (r := r) ha hregistered hphase
      have hending : s.ending? r exc i = some (.value (.object ⟨i, Session.itemTurnId r.turnId item.1, a⟩)) := by
        rw [ending?, hphase]
        dsimp only
        rw [hreply]
        rfl
      simp only [hphase, hending, hanswer, hreply]
      exact Or.inr (Or.inl ⟨_, rfl, rfl, rfl, hlabel⟩)
    · have hending : s.ending? r exc i = some (.raised (exc i)) := by rw [ending?, hphase]
      simp only [hphase, hending]
      exact Or.inr (Or.inr (Or.inr ⟨_, Or.inr (Or.inl rfl), rfl, rfl, rfl⟩))
    · have hending : s.ending? r exc i = some .cancelled := by rw [ending?, hphase]
      simp only [hphase, hending]
      exact Or.inr (Or.inr (Or.inr ⟨_, Or.inr (Or.inl rfl), rfl, rfl, rfl⟩))

/-- **The fan-in makes of an item what its own task came to**, where the results carry the turn ids of their own
work items. -/
theorem Sound.fateOf_join (h : s.Sound) (ha : s.Attributed) {c : FanInContext}
    (hlabels : c.outcomeLabels = s.outcomeLabels turn) (exc : ℕ → RaisedException) (accepted : ℕ → Bool)
    (hitem : item ∈ c.turn.items) :
    c.fateOf item.1 (c.join (s.submitted cfg turn c.turn exc accepted)) = c.due item.1 (s.came cfg turn c.turn accepted item) := by
  have hown : ∀ item ∈ c.turn.items, (s.share cfg turn c.turn exc accepted item).Own c item := by
    intro item _
    rcases h.share_cases cfg turn c.turn item ha exc accepted with ⟨hshare, -⟩ | ⟨reply, hshare, -, hturnId, -⟩ |
      ⟨hshare, -⟩ | ⟨failure, hshare, -, hid, hworker⟩
    · rw [hshare]
      exact ⟨nofun, nofun, nofun, nofun, nofun⟩
    · rw [hshare]
      refine ⟨?_, nofun, nofun, nofun, nofun⟩
      rintro _ ⟨⟩
      exact hturnId
    · rw [hshare]
      refine ⟨nofun, ?_, nofun, nofun, nofun⟩
      rintro _ ⟨⟩
      rfl
    · rcases hshare with hshare | hshare | hshare
      all_goals rw [hshare]
      · refine ⟨nofun, nofun, ?_, nofun, nofun⟩
        rintro _ ⟨⟩
        exact ⟨hid, hworker⟩
      · refine ⟨nofun, nofun, nofun, ?_, nofun⟩
        rintro _ ⟨⟩
        exact ⟨hid, hworker⟩
      · refine ⟨nofun, nofun, nofun, nofun, ?_⟩
        rintro _ ⟨⟩
        exact ⟨hid, hworker⟩
  rw [FanInContext.fateOf_join (shared_submitted c exc accepted) hown hitem]
  rcases h.share_cases cfg turn c.turn item ha exc accepted with ⟨hshare, hcame⟩ | ⟨reply, hshare, hcame, -, hlabel⟩ |
    ⟨hshare, hcame⟩ | ⟨failure, hshare, hcame, -, -⟩
  · rw [hshare, hcame]
    rfl
  · rw [hshare, hcame]
    simp [FanInContext.awarded, FanInContext.matched, FanInContext.settled, FanInContext.reconciled, FanInContext.due,
      hlabels, hlabel]
  · rw [hshare, hcame]
    simp [FanInContext.awarded, FanInContext.pended, FanInContext.reconciled, FanInContext.due]
  · have hawarded : c.awarded item.1 (s.share cfg turn c.turn exc accepted item)
        = c.reconciled item.1 (c.failedAs item.1 failure.failureKind {}) := by
      rcases hshare with hshare | hshare | hshare
      all_goals rw [hshare]; rfl
    rw [hawarded, hcame]
    simp [FanInContext.failedAs, FanInContext.reconciled, FanInContext.due]

/-! ## Whole runs -/

/-- What the fan-in of a turn reads: its items and the labels of its calls of `execute`. -/
structure Reads (s : FanIn) (turn : ℕ) (c : FanInContext) : Prop where
  turn_eq : s.turns[turn]? = some c.turn
  labels_eq : c.outcomeLabels = s.outcomeLabels turn

/-- What the turn puts together, if `submit` returns now. -/
def fanIn (cfg : CoordinatorConfig) (s : FanIn) (turn : ℕ) (c : FanInContext) (exc : ℕ → RaisedException)
    (accepted : ℕ → Bool) : Joined := c.join (s.submitted cfg turn c.turn exc accepted)

/-- What an item is owed for its own task, if `submit` returns now. -/
def owed (cfg : CoordinatorConfig) (s : FanIn) (turn : ℕ) (c : FanInContext) (accepted : ℕ → Bool)
    (item : ℕ × String × String) : FanInContext.Fate := c.due item.1 (s.came cfg turn c.turn accepted item)

/-- **Every item is answered for what its own task came to**: the result of a task carries the turn id of the
item it was registered under (`carried`); the fan-in of a turn, whenever it comes and whatever was cancelled,
makes of every item what the item is owed for its own task (`joined`), so that a result of a search is filed
under the item whose task returned it (`filed`), and the epilogue commits for an item the answer it is owed, and
gives out the status it is owed (`committed`, `reported`); and a late result is the one its own task returned, under
its own turn id (`late`). -/
structure Lawful (cfg : CoordinatorConfig) (s : FanIn) : Prop where
  carried : s.Attributed
  joined : ∀ turn c exc accepted, s.Reads turn c → ∀ item ∈ c.turn.items,
    c.fateOf item.1 (s.fanIn cfg turn c exc accepted) = s.owed cfg turn c accepted item
  filed : ∀ turn c exc accepted, s.Reads turn c → ∀ index reply,
    (s.fanIn cfg turn c exc accepted).results.get? index = some (.worker reply) →
      ∃ item ∈ c.turn.items, index = item.1 ∧ s.registered reply.task = some (turn, item.1) ∧
        (s.loop.tasks reply.task).phase = .done .value ∧ reply.turnId = c.itemTurnId item.1
  committed : ∀ turn c exc accepted, s.Reads turn c → ∀ epoch canonical (outcomes : ℤ → EpilogueOutcome String),
    ∀ commit ∈ ((c.epilogue (s.fanIn cfg turn c exc accepted) epoch canonical).finalizeFanOutTurn
        outcomes).1.calls.filterMap EpilogueCall.commit?,
      ∃ item ∈ c.turn.items, ∃ answer, (s.owed cfg turn c accepted item).result = some answer ∧
        commit.1 = item.1 ∧ commit.2.1 = canonical answer ∧ answer.turnId = c.itemTurnId item.1
  reported : ∀ turn c exc accepted, s.Reads turn c → ∀ epoch canonical (outcomes : ℤ → EpilogueOutcome String),
    ∀ item ∈ c.turn.items,
      ((c.epilogue (s.fanIn cfg turn c exc accepted) epoch canonical).finalizeFanOutTurn
          outcomes).1.calls.filterMap (EpilogueCall.status? item.1)
        = ((s.owed cfg turn c accepted item).deferred.map
            ((c.epilogue (s.fanIn cfg turn c exc accepted) epoch canonical).settled outcomes item.1)).toList
  late : ∀ turn r, s.turns[turn]? = some r → ∀ index i, s.registered i = some (turn, index) →
    ∀ exc ending workerId report, s.ending? r exc i = some ending →
      ending.lateResult (Session.workItemId (Session.itemTurnId r.turnId index)) workerId = some report →
        ∀ result ∈ report.result, ∃ reply, result = .object reply ∧ reply.task = i ∧
          reply.turnId = Session.itemTurnId r.turnId index ∧ report.workItemId = Session.workItemId reply.turnId

/-- The result an item is owed is the one its own task returned. -/
theorem due_worker {c : FanInContext} {accepted : ℕ → Bool} {reply : Reply}
    (hdue : (s.owed cfg turn c accepted item).result = some (.worker reply)) :
    s.registered reply.task = some (turn, item.1) ∧ (s.loop.tasks reply.task).phase = .done .value ∧
      reply.turnId = c.itemTurnId item.1 := by
  have hcame : s.came cfg turn c.turn accepted item = .returned reply := by
    rcases hcame : s.came cfg turn c.turn accepted item with _ | reply' | _ | kind
    all_goals rw [owed, hcame, FanInContext.due] at hdue
    · cases hdue
    · cases hdue
      rfl
    · dsimp only at hdue
      split_ifs at hdue
      cases hdue
    · cases hdue
  rw [came] at hcame
  split_ifs at hcame
  split at hcame
  · cases hcame
  · rename_i i htask
    split at hcame
    · rename_i a hphase _
      cases hcame
      exact ⟨registered_taskOf htask, hphase, rfl⟩
    · cases hcame
    · cases hcame
    · split_ifs at hcame

/-- The turn id of what an item is owed. -/
theorem due_turnId {c : FanInContext} {accepted : ℕ → Bool} {answer : Answer}
    (hdue : (s.owed cfg turn c accepted item).result = some answer) :
    answer.turnId = c.itemTurnId item.1 := by
  rcases answer with reply | id | id
  · exact (due_worker hdue).2.2
  · rcases hcame : s.came cfg turn c.turn accepted item with _ | reply' | _ | kind
    all_goals rw [owed, hcame, FanInContext.due] at hdue
    · cases hdue
    · cases hdue
    · dsimp only at hdue
      split_ifs at hdue
      cases hdue
      rfl
    · cases hdue
  · rcases hcame : s.came cfg turn c.turn accepted item with _ | reply' | _ | kind
    all_goals rw [owed, hcame, FanInContext.due] at hdue
    · cases hdue
    · cases hdue
    · dsimp only at hdue
      split_ifs at hdue
      cases hdue
    · cases hdue
      rfl

/-- **Where the results carry the turn ids of their own work items, all is lawful.** -/
theorem Sound.lawful (h : s.Sound) (ha : s.Attributed) : s.Lawful cfg := by
  have hjoined : ∀ turn c exc accepted, s.Reads turn c → ∀ item ∈ c.turn.items,
      c.fateOf item.1 (s.fanIn cfg turn c exc accepted) = s.owed cfg turn c accepted item :=
    fun turn c exc accepted hc item hitem => h.fateOf_join ha hc.labels_eq exc accepted hitem
  have hresult : ∀ turn c exc accepted, s.Reads turn c → ∀ index answer,
      (s.fanIn cfg turn c exc accepted).results.get? index = some answer →
        ∃ item ∈ c.turn.items, index = item.1 ∧ (s.owed cfg turn c accepted item).result = some answer := by
    intro turn c exc accepted hc index answer hanswer
    obtain ⟨k, hk, rfl⟩ := FanInContext.known_join c _ index (Option.isSome_iff_exists.mpr ⟨_, hanswer⟩)
    obtain ⟨item, hitem, rfl⟩ := List.mem_map.mp hk
    refine ⟨item, hitem, rfl, ?_⟩
    rw [← hjoined turn c exc accepted hc item hitem]
    exact hanswer
  refine ⟨ha, hjoined, ?_, ?_, ?_, ?_⟩
  · intro turn c exc accepted hc index reply hreply
    obtain ⟨item, hitem, hindex, hdue⟩ := hresult turn c exc accepted hc index _ hreply
    exact ⟨item, hitem, hindex, due_worker hdue⟩
  · intro turn c exc accepted hc epoch canonical outcomes commit hcommit
    rw [FanOutTurn.commits_finalizeFanOutTurn] at hcommit
    obtain ⟨entry, hentry, rfl⟩ := List.mem_map.mp hcommit
    have hget := Dict.get?_eq_some_iff.mpr ((FanOutTurn.sortedResults_perm _).mem_iff.mp hentry)
    rw [FanInContext.epilogue] at hget
    dsimp only at hget
    rw [Dict.get?_mapValues, Option.map_eq_some_iff] at hget
    obtain ⟨answer, hanswer, hcanonical⟩ := hget
    obtain ⟨item, hitem, hindex, hdue⟩ := hresult turn c exc accepted hc entry.1 answer hanswer
    exact ⟨item, hitem, answer, hdue, hindex, hcanonical.symm, due_turnId hdue⟩
  · intro turn c exc accepted hc epoch canonical outcomes item hitem
    rw [FanOutTurn.statuses_finalizeFanOutTurn, ← hjoined turn c exc accepted hc item hitem]
    rfl
  · intro turn r _ index i hregistered exc ending workerId report hending hlate result hresult'
    obtain ⟨phase, hphase⟩ : ∃ phase, (s.loop.tasks i).phase = phase := ⟨_, rfl⟩
    rw [ending?, hphase] at hending
    rcases phase with _ | on | _ | _ | _
    · cases hending
    · cases hending
    · obtain ⟨a, -, hreply, -⟩ := h.reply_eq (r := r) ha hregistered hphase
      rw [hreply] at hending
      cases hending
      cases hlate
      cases hresult'
      exact ⟨_, rfl, rfl, rfl, rfl⟩
    · cases hending
      rw [Ending.lateResult] at hlate
      split_ifs at hlate
      cases hlate
      cases hresult'
    · cases hending
      cases hlate
      cases hresult'

/-- **In a run every item is answered for what its own task came to if and only if every item that returns a
result had started in its turn**: over any number of turns, any interleaving of starts, completions, failures
and cancellations. -/
theorem lawful_iff (cfg : CoordinatorConfig) (es : List Event) :
    (after cfg es).Lawful cfg ↔ Guarded (step cfg) InTurn {} es := by
  rw [← attributed_after]
  exact ⟨fun h => h.carried, fun ha => (sound_after cfg es).lawful ha⟩

/-- One item runs; a second turn submits two equal items behind it, and the first of them is cancelled while
both wait. -/
def cancelledWaiter : List Event :=
  [.dispatch ⟨"S", [(0, "search", "flights")], by decide⟩, .loop .run, .loop .run,
    .dispatch ⟨"T", [(0, "search", "trains"), (1, "search", "trains")], by decide⟩, .loop .run, .loop .run,
    .loop (.cancel 2), .loop (.wake 2), .searched 1 (.answered .completed), .loop (.wake 0), .loop (.wake 3), .loop .run,
    .searched 4 (.answered .completed), .loop (.wake 3)]

/-- The fan-in of the second turn after that, on a client that sees statuses. -/
def cancelledWaiterContext : FanInContext where
  turn := ⟨"T", [(0, "search", "trains"), (1, "search", "trains")], by decide⟩
  outcomeLabels := (after ⟨4, 8⟩ cancelledWaiter).outcomeLabels 1
  cancelledIds := {"work-T-0"}
  replacesLegacyResult := true

/-- **The result of the second item goes to its cancelled sibling, and is lost**: the task registered under
index 1 ran to its end, and what it returned carries `T-0`; the fan-in files it under index 0, where the text
for the cancelled item replaces it, and the second item, which has no result, is reported as failed. -/
theorem cancelled_item_answered :
    ¬(after ⟨4, 8⟩ cancelledWaiter).Lawful ⟨4, 8⟩ ∧
      (after ⟨4, 8⟩ cancelledWaiter).registered 3 = some (1, 1) ∧
      ((after ⟨4, 8⟩ cancelledWaiter).loop.tasks 2).phase = .done .cancelled ∧
      ((after ⟨4, 8⟩ cancelledWaiter).loop.tasks 3).phase = .done .value ∧
      (after ⟨4, 8⟩ cancelledWaiter).reply? cancelledWaiterContext.turn 3 = some ⟨3, "T-0", .completed⟩ ∧
      ((after ⟨4, 8⟩ cancelledWaiter).submitted ⟨4, 8⟩ 1 cancelledWaiterContext.turn (fun _ => ⟨"", "", true⟩)
          fun _ => true).results = [.object ⟨3, "T-0", .completed⟩] ∧
      ((after ⟨4, 8⟩ cancelledWaiter).fanIn ⟨4, 8⟩ 1 cancelledWaiterContext (fun _ => ⟨"", "", true⟩) fun _ => true).results
        = Dict.set ∅ 0 (.unavailable "T-0") ∧
      ((after ⟨4, 8⟩ cancelledWaiter).fanIn ⟨4, 8⟩ 1 cancelledWaiterContext (fun _ => ⟨"", "", true⟩) fun _ => true).emitted
        = [⟨"work-T-1", some "search", .failed, none⟩] := by
  have hregistered : (after ⟨4, 8⟩ cancelledWaiter).registered 3 = some (1, 1) := by decide +kernel
  have hphase : ((after ⟨4, 8⟩ cancelledWaiter).loop.tasks 3).phase = .done .value := by decide +kernel
  have hcarried : (after ⟨4, 8⟩ cancelledWaiter).carried 3 = some 0 := by decide +kernel
  refine ⟨fun hlawful => ?_, hregistered, by decide +kernel, hphase, by decide +kernel, by decide +kernel,
    by decide +kernel, by decide +kernel⟩
  rw [hlawful.carried 3 1 1 hregistered hphase] at hcarried
  exact absurd hcarried (by decide)

end FanIn

end SubagentsLab

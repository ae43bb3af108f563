import Mathlib.Data.Finset.Card
import SubagentsLab.Machinery.Dict
import SubagentsLab.Machinery.Runs
import SubagentsLab.Workers.ItemLoop

/-!
# Workers/Coordinator — the tasks a coordinator owns, and what becomes of late ones

`WorkItemCoordinator.submit` starts one task per item, waits, and hands back what is done; a task
still running is **retained**, and its done-callback later delivers, queues or suppresses its late
result.  Here the tasks themselves are left open — an item may end at any moment and in any way,
whoever cancelled it — and what is modelled is the coordinator's books: the capacity budget, the
done-callbacks of each task, the submissions under way and the shutdown.
-/

namespace SubagentsLab

open Machinery

/-! ## What an item ends with -/

/-- What a worker's coroutine returns: an object of its own, or a dictionary of `Result` fields. -/
inductive ProviderValue (α : Type)
  | object (value : α)
  | dict (outcome text : Option String) (citations : Option (List String))
  deriving DecidableEq, Repr

/-- `Result(**value) if isinstance(value, dict) else value`. -/
inductive MaterialResult (α : Type)
  | object (value : α)
  | result (outcome text : String) (citations : List String)
  deriving DecidableEq, Repr

/-- What a task raised; `isException` tells subclasses of `Exception` from the other
`BaseException`s. -/
structure RaisedException where
  typeName : String
  message : String
  isException : Bool
  deriving DecidableEq, Repr

/-- How a task ended. -/
inductive Ending (α : Type)
  | value (value : ProviderValue α)
  | raised (exc : RaisedException)
  | cancelled
  deriving DecidableEq, Repr

/-- `TerminalKind`. -/
inductive TerminalKind
  | completed
  | failed
  | cancelled
  deriving DecidableEq, Repr

/-- `FailureKind`. -/
inductive FailureKind
  | capacityRejected
  | retentionRejected
  | cancelled
  | failed
  deriving DecidableEq, Repr

/-- `WorkItemFailure`. -/
structure WorkItemFailure where
  workItemId : String
  workerId : String
  errorType : String
  errorMessage : String
  failureKind : FailureKind
  deriving DecidableEq, Repr

/-- `LateResult`. -/
structure LateResult (α : Type) where
  workItemId : String
  workerId : String
  result : Option (MaterialResult α) := none
  error : Option String := none
  terminalKind : TerminalKind
  deriving DecidableEq, Repr

/-- `SubmittedOutcome`. -/
structure SubmittedOutcome (α : Type) where
  workItems : List String
  results : List (MaterialResult α)
  pendingWorkItemIds : List String
  failures : List WorkItemFailure
  deriving DecidableEq, Repr

variable {α : Type}

/-- `materialize_result`. -/
def ProviderValue.materialize : ProviderValue α → MaterialResult α
  | .object value => .object value
  | .dict outcome text citations =>
    .result (outcome.getD "") (text.getD "") (citations.getD [])

namespace Ending

/-- How the completion callback classifies the task. -/
def terminalKind : Ending α → TerminalKind
  | .cancelled => .cancelled
  | .raised _ => .failed
  | .value _ => .completed

/-- The late result of an ended task.  The callback catches `CancelledError` and `Exception`;
anything else is raised out of it, and there is no late result. -/
def lateResult (workItemId workerId : String) : Ending α → Option (LateResult α)
  | .cancelled =>
    some { workItemId, workerId, error := some "CancelledError: worker task was cancelled",
           terminalKind := .cancelled }
  | .raised exc =>
    if exc.isException then
      some { workItemId, workerId, error := some (exc.typeName ++ ": " ++ exc.message),
             terminalKind := .failed }
    else none
  | .value v =>
    some { workItemId, workerId, result := some v.materialize, terminalKind := .completed }

end Ending

/-! ## The coordinator -/

/-- What `on_late_complete` hands back: a coroutine, or something that is no awaitable. -/
inductive LateCallback
  | coroutine
  | plain
  deriving DecidableEq, Repr

/-- The hooks of a submission: `on_late_complete`, and whether `on_late_terminal` was given. -/
structure LateHooks where
  onLateComplete : Option LateCallback
  onLateTerminal : Bool
  deriving DecidableEq, Repr

/-- A done-callback the coordinator registers on a task. -/
inductive DoneCallback
  | discardOwned
  | discardMandatory
  | discardCancelling
  | discardSubmit
  | workTaskCleanup (workItemId : String)
  | lateCompleted (workItemId workerId : String) (hooks : LateHooks)
  | callbackCompleted
  deriving DecidableEq, Repr

/-- A completion callback of a retained task. -/
def DoneCallback.isLate : DoneCallback → Bool
  | .lateCompleted _ _ _ => true
  | _ => false

theorem DoneCallback.exists_of_isLate {c : DoneCallback} (h : c.isLate = true) :
    ∃ workItemId workerId hooks, c = .lateCompleted workItemId workerId hooks := by
  rcases c with _ | _ | _ | _ | id | ⟨id, worker, hooks⟩ | _
  case lateCompleted => exact ⟨id, worker, hooks, rfl⟩
  all_goals cases h

/-- Where a task comes from: an item of a submission, `start_task`, or elsewhere. -/
inductive Origin
  | item (call : ℕ)
  | started (mandatory : Bool)
  | outside
  deriving DecidableEq, Repr

/-- A selected item. -/
structure SelectedItem where
  workItemId : String
  workerId : String
  text : String
  deriving DecidableEq, Repr

/-- A selected item and the task `start_task` gave it, if it did. -/
structure Slot where
  item : SelectedItem
  task : Option ℕ
  deriving DecidableEq, Repr

/-- Where `submit` is suspended: in `asyncio.wait`, in `asyncio.sleep(0)`, or — cancelled — in the
`gather` of its tasks. -/
inductive SubmitPhase
  | waiting
  | settling
  | unwinding
  deriving DecidableEq, Repr

/-- A submission under way. -/
structure SubmitCall where
  slots : List Slot
  hooks : LateHooks
  phase : SubmitPhase
  cancelRequested : Bool := false
  deriving DecidableEq, Repr

/-- The tasks of a submission. -/
def SubmitCall.tasks (call : SubmitCall) : List ℕ := call.slots.filterMap Slot.task

/-- The coordinator.  Tasks are numbered in creation order; `ended` says which are done and how, and
`callbacks` what the loop has yet to call of each, in registration order. -/
structure WorkItemCoordinator (α : Type) where
  nextTask : ℕ := 0
  origin : ℕ → Option Origin := fun _ => none
  ended : ℕ → Option (Ending α) := fun _ => none
  callbacks : ℕ → List DoneCallback := fun _ => []
  ownedTasks : Finset ℕ := ∅
  mandatoryTasks : Finset ℕ := ∅
  lateTasks : Finset ℕ := ∅
  callbackTasks : Finset ℕ := ∅
  cancellingTasks : Finset ℕ := ∅
  submitTasks : Finset ℕ := ∅
  workTasks : Dict String ℕ := ∅
  backgroundTaskOrder : List ℕ := []
  lateResults : List (LateResult α) := []
  shutdown : Bool := false
  nextCall : ℕ := 0
  calls : ℕ → Option SubmitCall := fun _ => none

/-- What `submit` raises. -/
inductive SubmitError
  | shutDown
  | uncoveredItems
  | cancelled
  deriving DecidableEq, Repr

/-- What can be seen of a step. -/
inductive WorkReport (α : Type)
  | returned (call : ℕ) (outcome : SubmittedOutcome α)
  | raised (call : ℕ) (error : SubmitError)
  /-- `on_late_terminal` is called for the task. -/
  | terminal (task : ℕ) (workItemId : String) (kind : TerminalKind)
  /-- `on_late_complete` receives the late result; `started` is the task of its coroutine. -/
  | delivered (task : ℕ) (late : LateResult α) (started : Option ℕ)
  /-- The late result is appended to the queue. -/
  | queued (task : ℕ) (late : LateResult α)
  /-- The completion callback returns because shutdown has begun. -/
  | suppressed (task : ℕ)
  deriving DecidableEq, Repr

namespace WorkItemCoordinator

/-! ### Owning tasks -/

/-- `_has_background_capacity`. -/
def hasBackgroundCapacity (cfg : CoordinatorConfig) (s : WorkItemCoordinator α) : Bool :=
  (s.ownedTasks \ s.mandatoryTasks).card < cfg.maxBackgroundTasks

/-- `asyncio.create_task`. -/
def createTask (s : WorkItemCoordinator α) (origin : Origin) : WorkItemCoordinator α :=
  { s with nextTask := s.nextTask + 1, origin := Function.update s.origin s.nextTask (some origin) }

/-- `task.add_done_callback`. -/
def addDoneCallback (s : WorkItemCoordinator α) (t : ℕ) (c : DoneCallback) :
    WorkItemCoordinator α :=
  { s with callbacks := Function.update s.callbacks t (s.callbacks t ++ [c]) }

/-- `retain_until_done(task, self._owned_tasks)`. -/
def own (s : WorkItemCoordinator α) (t : ℕ) : WorkItemCoordinator α :=
  { s with ownedTasks := insert t s.ownedTasks }.addDoneCallback t .discardOwned

/-- `_adopt_task`. -/
def adoptTask (cfg : CoordinatorConfig) (s : WorkItemCoordinator α) (t : ℕ) (force : Bool) :
    Bool × WorkItemCoordinator α :=
  if t ∈ s.ownedTasks then (true, s)
  else if !force && !s.hasBackgroundCapacity cfg then (false, s)
  else (true, s.own t)

/-- `start_task`; a refused operation is closed and there is no task. -/
def startTask (cfg : CoordinatorConfig) (s : WorkItemCoordinator α) (origin : Origin)
    (mandatory : Bool) : Option ℕ × WorkItemCoordinator α :=
  if s.shutdown || (!mandatory && !s.hasBackgroundCapacity cfg) then (none, s)
  else
    let t := s.nextTask
    let s := ((s.createTask origin).adoptTask cfg t true).2
    if mandatory then
      (some t, { s with mandatoryTasks := insert t s.mandatoryTasks }.addDoneCallback t
        .discardMandatory)
    else (some t, s)

/-- `_track_cancelling_task`; what the cancelled task then does is its own affair. -/
def trackCancellingTask (cfg : CoordinatorConfig) (s : WorkItemCoordinator α) (t : ℕ) :
    WorkItemCoordinator α :=
  let s := (s.adoptTask cfg t true).2
  { s with cancellingTasks := insert t s.cancellingTasks }.addDoneCallback t .discardCancelling

/-- `_track_callback_task`. -/
def trackCallbackTask (cfg : CoordinatorConfig) (s : WorkItemCoordinator α) (t : ℕ) :
    WorkItemCoordinator α :=
  let (adopted, s') := s.adoptTask cfg t false
  if adopted then
    { s' with
      callbackTasks := insert t s'.callbackTasks
      backgroundTaskOrder := s'.backgroundTaskOrder ++ [t] }.addDoneCallback t .callbackCompleted
  else s'.trackCancellingTask cfg t

/-! ### Late tasks -/

/-- `retain_late_task`. -/
def retainLateTask (cfg : CoordinatorConfig) (s : WorkItemCoordinator α) (t : ℕ)
    (workItemId workerId : String) (hooks : LateHooks) : Bool × WorkItemCoordinator α :=
  if s.shutdown then (false, s.trackCancellingTask cfg t)
  else
    let (adopted, s') := s.adoptTask cfg t false
    if adopted then
      (true, { s' with
        lateTasks := insert t s'.lateTasks
        backgroundTaskOrder := s'.backgroundTaskOrder ++ [t] }.addDoneCallback t
          (.lateCompleted workItemId workerId hooks))
    else (false, s'.trackCancellingTask cfg t)

/-- `_late_results.append`, on a deque that holds at most `maxlen`. -/
def appendLate (maxlen : ℕ) (queue : List (LateResult α)) (late : LateResult α) :
    List (LateResult α) :=
  (queue ++ [late]).drop (queue.length + 1 - maxlen)

/-- The call of `on_late_terminal`, if it was given; what it raises is caught. -/
def terminalReports (t : ℕ) (workItemId : String) (ending : Ending α) (hooks : LateHooks) :
    List (WorkReport α) :=
  if hooks.onLateTerminal then [.terminal t workItemId ending.terminalKind] else []

/-- Where a late result goes: into the queue, or to `on_late_complete`, whose coroutine is started as
a mandatory task. -/
def deliver (cfg : CoordinatorConfig) (s : WorkItemCoordinator α) (t : ℕ) (late : LateResult α)
    (hooks : LateHooks) : WorkItemCoordinator α × WorkReport α :=
  match hooks.onLateComplete with
  | none =>
    ({ s with lateResults := appendLate cfg.maxBackgroundTasks s.lateResults late }, .queued t late)
  | some .plain => (s, .delivered t late none)
  | some .coroutine =>
    match s.startTask cfg (.started true) true with
    | (some u, s') => (s'.trackCallbackTask cfg u, .delivered t late (some u))
    | (none, s') => (s', .delivered t late none)

/-- The completion callback of a retained task. -/
def completed (cfg : CoordinatorConfig) (s : WorkItemCoordinator α) (t : ℕ) (ending : Ending α)
    (workItemId workerId : String) (hooks : LateHooks) :
    WorkItemCoordinator α × List (WorkReport α) :=
  let terminal := terminalReports t workItemId ending hooks
  let s := { s with
    lateTasks := s.lateTasks.erase t
    backgroundTaskOrder := s.backgroundTaskOrder.erase t }
  if s.shutdown then (s, terminal ++ [.suppressed t])
  else
    match ending.lateResult workItemId workerId with
    | none => (s, terminal)
    | some late =>
      let (s', delivery) := s.deliver cfg t late hooks
      (s', terminal ++ [delivery])

/-- A done-callback of task `t`, which ended so. -/
def runCallback (cfg : CoordinatorConfig) (s : WorkItemCoordinator α) (t : ℕ) (ending : Ending α) :
    DoneCallback → WorkItemCoordinator α × List (WorkReport α)
  | .discardOwned => ({ s with ownedTasks := s.ownedTasks.erase t }, [])
  | .discardMandatory => ({ s with mandatoryTasks := s.mandatoryTasks.erase t }, [])
  | .discardCancelling => ({ s with cancellingTasks := s.cancellingTasks.erase t }, [])
  | .discardSubmit => ({ s with submitTasks := s.submitTasks.erase t }, [])
  | .workTaskCleanup id =>
    (if s.workTasks.get? id = some t then { s with workTasks := s.workTasks.pop id } else s, [])
  | .lateCompleted workItemId workerId hooks => s.completed cfg t ending workItemId workerId hooks
  | .callbackCompleted =>
    ({ s with
      callbackTasks := s.callbackTasks.erase t
      backgroundTaskOrder := s.backgroundTaskOrder.erase t }, [])

/-! ### Submitting items -/

/-- The selected items and their work item ids, or `none` where the ids do not cover the items. -/
def selectItems (cfg : CoordinatorConfig) (turnId : String) (items : List (String × String))
    (workItemIds : Option (List String)) : Option (List SelectedItem) :=
  let selected := items.take cfg.maxWorkItemsPerTurn
  let selectedIds :=
    match workItemIds with
    | some ids => ids.take selected.length
    | none => (List.range selected.length).map fun i => turnId ++ "-" ++ toString i
  if selectedIds.length = selected.length then
    some (List.zipWith (fun id item => ⟨id, item.1, item.2⟩) selectedIds selected)
  else none

/-- The books of `submit` on a started item. -/
def trackItem (s : WorkItemCoordinator α) (item : SelectedItem) (t : ℕ) : WorkItemCoordinator α :=
  ({ s with
    workTasks := s.workTasks.set item.workItemId t
    submitTasks := insert t s.submitTasks }.addDoneCallback t .discardSubmit).addDoneCallback t
      (.workTaskCleanup item.workItemId)

/-- The loop of `submit` that starts the items; a refused item has no task. -/
def startItems (cfg : CoordinatorConfig) (call : ℕ) :
    WorkItemCoordinator α → List SelectedItem → List Slot × WorkItemCoordinator α
  | s, [] => ([], s)
  | s, item :: items =>
    match s.startTask cfg (.item call) false with
    | (none, s') =>
      let (slots, s'') := startItems cfg call s' items
      (⟨item, none⟩ :: slots, s'')
    | (some t, s') =>
      let (slots, s'') := startItems cfg call (s'.trackItem item t) items
      (⟨item, some t⟩ :: slots, s'')

/-- `submit` up to its first await. -/
def submit (cfg : CoordinatorConfig) (s : WorkItemCoordinator α) (turnId : String)
    (items : List (String × String)) (workItemIds : Option (List String)) (hooks : LateHooks) :
    WorkItemCoordinator α × List (WorkReport α) :=
  let call := s.nextCall
  let s := { s with nextCall := s.nextCall + 1 }
  if s.shutdown then (s, [.raised call .shutDown])
  else
    match selectItems cfg turnId items workItemIds with
    | none => (s, [.raised call .uncoveredItems])
    | some selected =>
      let (slots, s) := startItems cfg call s selected
      let phase := if slots.filterMap Slot.task = [] then .settling else .waiting
      ({ s with calls := Function.update s.calls call (some { slots, hooks, phase }) }, [])

/-- `capacity_failures`. -/
def capacityFailure (slot : Slot) : Option WorkItemFailure :=
  match slot.task with
  | some _ => none
  | none =>
    some ⟨slot.item.workItemId, slot.item.workerId, "CapacityError",
      "worker execution capacity is exhausted", .capacityRejected⟩

/-- `raw_results`, materialised. -/
def slotResult (ended : ℕ → Option (Ending α)) (slot : Slot) : Option (MaterialResult α) :=
  match slot.task.bind ended with
  | some (.value v) => some v.materialize
  | _ => none

/-- `execution_failures`. -/
def executionFailure (ended : ℕ → Option (Ending α)) (slot : Slot) : Option WorkItemFailure :=
  match slot.task.bind ended with
  | some .cancelled =>
    some ⟨slot.item.workItemId, slot.item.workerId, "CancelledError",
      "worker execution was cancelled", .cancelled⟩
  | some (.raised exc) =>
    some ⟨slot.item.workItemId, slot.item.workerId, exc.typeName, "worker execution failed",
      .failed⟩
  | _ => none

/-- The items whose task is not done. -/
def unfinished (ended : ℕ → Option (Ending α)) (slot : Slot) : Option (SelectedItem × ℕ) :=
  match slot.task with
  | some t => if (ended t).isNone then some (slot.item, t) else none
  | none => none

/-- The loop of `submit` that retains what is not done, with whether each task was accepted. -/
def retainAll (cfg : CoordinatorConfig) (hooks : LateHooks) :
    WorkItemCoordinator α → List (SelectedItem × ℕ) →
      List ((SelectedItem × ℕ) × Bool) × WorkItemCoordinator α
  | s, [] => ([], s)
  | s, (item, t) :: rest =>
    let (accepted, s') := s.retainLateTask cfg t item.workItemId item.workerId hooks
    let (verdicts, s'') := retainAll cfg hooks s' rest
    (((item, t), accepted) :: verdicts, s'')

/-- The pending id of an item that was retained. -/
def pendingId (verdict : (SelectedItem × ℕ) × Bool) : Option String :=
  if verdict.2 then some verdict.1.1.workItemId else none

/-- The failure of an item that was not. -/
def retentionFailure (verdict : (SelectedItem × ℕ) × Bool) : Option WorkItemFailure :=
  if verdict.2 then none
  else
    some ⟨verdict.1.1.workItemId, verdict.1.1.workerId, "RetentionCapacityError",
      "worker execution could not continue in background", .retentionRejected⟩

/-- The rest of `submit`, past its last await. -/
def settle (cfg : CoordinatorConfig) (s : WorkItemCoordinator α) (call : SubmitCall) :
    SubmittedOutcome α × WorkItemCoordinator α :=
  let (verdicts, s') := s.retainAll cfg call.hooks (call.slots.filterMap (unfinished s.ended))
  ({ workItems := call.slots.map (·.item.workItemId)
     results := call.slots.filterMap (slotResult s.ended)
     pendingWorkItemIds := verdicts.filterMap pendingId
     failures := call.slots.filterMap capacityFailure
      ++ call.slots.filterMap (executionFailure s.ended) ++ verdicts.filterMap retentionFailure },
    s')

/-! ### Runs -/

/-- What can happen. -/
inductive Event (α : Type)
  /-- `submit` is called and runs up to its first await. -/
  | submit (turnId : String) (items : List (String × String)) (workItemIds : Option (List String))
      (hooks : LateHooks)
  /-- `asyncio.wait` is over: every task is done, the timeout is, or the call was cancelled. -/
  | waited (call : ℕ)
  /-- `submit` resumes from `asyncio.sleep(0)`. -/
  | resume (call : ℕ)
  /-- The `gather` of a cancelled call is over. -/
  | gathered (call : ℕ)
  /-- Somebody cancels the task that runs the call. -/
  | cancelCall (call : ℕ)
  /-- Somebody else calls `start_task`. -/
  | startTask (mandatory : Bool)
  /-- A task is made outside the coordinator. -/
  | createTask
  /-- Somebody else calls `retain_late_task`, for a task of theirs. -/
  | retainLateTask (task : ℕ) (workItemId workerId : String) (hooks : LateHooks)
  /-- A task ends. -/
  | finish (task : ℕ) (ending : Ending α)
  /-- The loop calls the next done-callback of a task that is done. -/
  | callback (task : ℕ)
  | drainLateResults
  /-- `shutdown` runs up to its wait for the tasks it cancelled. -/
  | shutdown
  /-- `shutdown` is past its wait. -/
  | shutdownOver
  deriving DecidableEq, Repr

/-- The call is over. -/
def endCall (s : WorkItemCoordinator α) (call : ℕ) : WorkItemCoordinator α :=
  { s with calls := Function.update s.calls call none }

/-- One step. -/
def step (cfg : CoordinatorConfig) (s : WorkItemCoordinator α) :
    Event α → WorkItemCoordinator α × List (WorkReport α)
  | .submit turnId items workItemIds hooks => s.submit cfg turnId items workItemIds hooks
  | .waited c =>
    match s.calls c with
    | some call =>
      if call.phase = .waiting then
        let phase := if call.cancelRequested then .unwinding else .settling
        ({ s with calls := Function.update s.calls c (some { call with phase }) }, [])
      else (s, [])
    | none => (s, [])
  | .resume c =>
    match s.calls c with
    | some call =>
      if call.phase = .settling then
        if call.cancelRequested then (s.endCall c, [.raised c .cancelled])
        else
          let (outcome, s') := s.settle cfg call
          (s'.endCall c, [.returned c outcome])
      else (s, [])
    | none => (s, [])
  | .gathered c =>
    match s.calls c with
    | some call =>
      if call.phase = .unwinding then (s.endCall c, [.raised c .cancelled]) else (s, [])
    | none => (s, [])
  | .cancelCall c =>
    match s.calls c with
    | some call =>
      ({ s with calls := Function.update s.calls c (some { call with cancelRequested := true }) },
        [])
    | none => (s, [])
  | .startTask mandatory => ((s.startTask cfg (.started mandatory) mandatory).2, [])
  | .createTask => (s.createTask .outside, [])
  | .retainLateTask t workItemId workerId hooks =>
    if s.origin t = some .outside ∨ s.origin t = some (.started false) then
      ((s.retainLateTask cfg t workItemId workerId hooks).2, [])
    else (s, [])
  | .finish t ending =>
    if t < s.nextTask ∧ s.ended t = none then
      ({ s with ended := Function.update s.ended t (some ending) }, [])
    else (s, [])
  | .callback t =>
    match s.ended t, s.callbacks t with
    | some ending, c :: rest =>
      { s with callbacks := Function.update s.callbacks t rest }.runCallback cfg t ending c
    | _, _ => (s, [])
  | .drainLateResults => ({ s with lateResults := [] }, [])
  | .shutdown =>
    ({ s with
      shutdown := true
      lateResults := []
      -- the calls under way are in `_submission_tasks`, and are cancelled with the owned tasks
      calls := fun c => (s.calls c).map ({ · with cancelRequested := true }) }, [])
  | .shutdownOver =>
    if s.shutdown then
      ({ s with
        ownedTasks := ∅, mandatoryTasks := ∅, lateTasks := ∅, callbackTasks := ∅
        cancellingTasks := ∅, submitTasks := ∅, workTasks := ∅, backgroundTaskOrder := [] }, [])
    else (s, [])

/-- The coordinator after a run. -/
def after (cfg : CoordinatorConfig) (es : List (Event α)) : WorkItemCoordinator α :=
  run (fun s e => (step cfg s e).1) {} es

/-- What a run reports, oldest first. -/
def reports (cfg : CoordinatorConfig) (es : List (Event α)) : List (WorkReport α) :=
  outputs (step cfg) {} es

@[simp] theorem after_concat (cfg : CoordinatorConfig) (es : List (Event α)) (e : Event α) :
    after cfg (es ++ [e]) = (step cfg (after cfg es) e).1 := by
  simp [after]

@[simp] theorem reports_concat (cfg : CoordinatorConfig) (es : List (Event α)) (e : Event α) :
    reports cfg (es ++ [e]) = reports cfg es ++ (step cfg (after cfg es) e).2 := by
  simp [reports, outputs, after]

end WorkItemCoordinator

end SubagentsLab

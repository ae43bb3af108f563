import SubagentsLab.Host.Commit
import SubagentsLab.Speech.Standing
import SubagentsLab.Turn.OneAck

/-!
# Host/Cancellation — cancelling a turn or one of its children

`SessionHost.cancel_turn_or_child` reads four registries to decide whether a turn has another child alive:
the tasks and known ids of the host's `WorkTaskLedger`, the tasks of the coordinator, and the speech of the
connection; the turn's own children are those its `TurnAckLedger` has registered.  A `CancelHost` is the
four of them beside the ledger and the connection that the cancellation is called for.

Tasks are numbers; `TaskRequest`s are the `cancel()` calls a cancellation makes.
-/

namespace SubagentsLab

open Machinery

/-! ## The host's own tasks -/

/-- `WorkTaskLedger`. -/
structure WorkTaskLedger where
  turnTasks : Dict String ℕ := ∅
  workTasks : Dict String (List ℕ) := ∅
  knownIds : Finset String := ∅
  cancelledIds : Finset String := ∅

namespace WorkTaskLedger

variable (l : WorkTaskLedger)

/-- `register_work_task`. -/
def registerWorkTask (workItemId : String) (task : ℕ) : WorkTaskLedger :=
  { l with
    knownIds := insert workItemId l.knownIds
    workTasks := l.workTasks.set workItemId (((l.workTasks.get? workItemId).getD []).insert task) }

/-- The done-callback of a work task. -/
def workTaskDone (workItemId : String) (task : ℕ) : WorkTaskLedger :=
  match l.workTasks.get? workItemId with
  | none => l
  | some tasks =>
    if (tasks.erase task).isEmpty then { l with workTasks := l.workTasks.pop workItemId }
    else { l with workTasks := l.workTasks.set workItemId (tasks.erase task) }

/-- `register_turn_task`. -/
def registerTurnTask (workItemId : String) (task : ℕ) : WorkTaskLedger :=
  { l with
    knownIds := insert workItemId l.knownIds
    turnTasks := l.turnTasks.set workItemId task }

/-- The done-callback of a turn task. -/
def turnTaskDone (workItemId : String) (task : ℕ) : WorkTaskLedger :=
  if l.turnTasks.get? workItemId = some task then
    let l := { l with turnTasks := l.turnTasks.pop workItemId }
    if (l.workTasks.get? workItemId).isSome then l
    else { l with
      knownIds := l.knownIds.erase workItemId
      cancelledIds := l.cancelledIds.erase workItemId }
  else l

/-- `register_known`. -/
def registerKnown (workItemId : String) : WorkTaskLedger :=
  { l with knownIds := insert workItemId l.knownIds }

/-- `retire`. -/
def retire (workItemId : String) : WorkTaskLedger :=
  { l with knownIds := l.knownIds.erase workItemId }

/-- `clear_cancelled`. -/
def clearCancelled (workItemId : String) : WorkTaskLedger :=
  { l with cancelledIds := l.cancelledIds.erase workItemId }

/-- `local_ids`, as a set. -/
def localIds : Finset String := l.turnTasks.keys.toFinset ∪ l.workTasks.keys.toFinset

/-- `live_ids`. -/
def liveIds : Finset String := l.localIds ∪ l.knownIds

end WorkTaskLedger

/-- A `cancel()` call on the task of a work item: one of the host's, or one of the coordinator's. -/
inductive TaskRequest
  | turnTask (workItemId : String) (task : ℕ)
  | workTask (workItemId : String) (task : ℕ)
  | coordinatorTask (workItemId : String) (task : ℕ)
  deriving DecidableEq, Repr

/-- The host's own task of the work item is cancelled. -/
def TaskRequest.ofHost (workItemId : String) : TaskRequest → Bool
  | turnTask w _ => w = workItemId
  | workTask w _ => w = workItemId
  | coordinatorTask _ _ => false

/-- `cancel_selected`. -/
def WorkTaskLedger.cancelSelected (l : WorkTaskLedger) (selected : Finset String) :
    WorkTaskLedger × List TaskRequest :=
  ({ l with cancelledIds := l.cancelledIds ∪ selected },
    (l.turnTasks.entries.filter (·.1 ∈ selected)).map (fun e => .turnTask e.1 e.2) ++
      (l.workTasks.entries.filter (·.1 ∈ selected)).flatMap fun e => e.2.map (.workTask e.1))

/-! ## Cancelled speech -/

/-- What `SpeechScheduler.cancel` returns: the lease, what is queued and what is paused. -/
def SpeechScheduler.cancelled (s : SpeechScheduler) (workItemId : Option String) : List SpeechItem :=
  (s.active.filter fun lease => workItemId.all (· = lease.item.workItemId)).toList.map (·.item) ++
    (workItemId.elim s.queues.keys fun key => [key]).flatMap s.queues.lane ++
    (workItemId.elim s.paused.keys fun key => [key]).flatMap fun key => (s.paused.get? key).toList

/-! ## The host -/

/-- What a cancellation reads and writes of a `SessionHost`. -/
structure CancelHost where
  acks : AckHost
  turnWorkItems : Dict String (Finset String) := ∅
  work : WorkTaskLedger := {}
  coordinatorTasks : Dict String ℕ := ∅

/-- What a cancellation returns, with the tasks it asks to stop. -/
structure Cancelled where
  work : Finset String := ∅
  speech : List SpeechItem := []
  requests : List TaskRequest := []

namespace CancelHost

variable (cfg : LifecycleConfig) (h : CancelHost)

/-- The scheduler of the connection. -/
abbrev scheduler : SpeechScheduler := h.acks.pipeline.scheduler

/-- The turns that hold the latch. -/
abbrev latched : List String := h.acks.ledger.emittedTurns

/-- `turn_work_items`. -/
def children (turnId : String) : Finset String := (h.turnWorkItems.get? turnId).getD ∅

/-- `clear_ack_latch`, where there is a turn. -/
def clearAckLatch (turnId : Option String) : CancelHost :=
  { h with acks := { h.acks with ledger := turnId.elim h.acks.ledger h.acks.ledger.clearAckLatch } }

/-- `scheduler.cancel`, and what the ledger hears of it. -/
def cancelSpeech (workItemId : Option String) : CancelHost :=
  { h with acks := (h.acks.listen cfg (.cancel workItemId)).1 }

/-- `_cancel_work`: the coordinator is asked first, and knows of no exception. -/
def cancelWork (workItemId exclude : Option String) : CancelHost × Finset String × List TaskRequest :=
  let asked := h.coordinatorTasks.entries.filter fun e => workItemId.all (· = e.1)
  let selected := h.work.localIds.filter (fun w => workItemId.all (· = w)) ∪ (asked.map Prod.fst).toFinset ∪
    if workItemId = none then h.work.knownIds else ∅
  let selected := selected.filter fun w => some w ≠ exclude
  let r := h.work.cancelSelected selected
  ({ h with work := r.1 }, selected, asked.map (fun e => .coordinatorTask e.1 e.2) ++ r.2)

/-- The children of the turn, other than this one, that something is left of. -/
def remaining (turnId child : String) : Finset String :=
  let pending := (h.scheduler.queues.keys.filter (· ≠ ackWorkItemId turnId)).toFinset
  let speaking := ((h.scheduler.active.map (·.item.workItemId)).toList.filter (· ≠ ackWorkItemId turnId)).toFinset
  let live := pending ∪ speaking ∪ h.work.liveIds ∪ h.coordinatorTasks.keys.toFinset
  ((live ∩ h.children turnId) \ h.work.cancelledIds).erase child

/-- There is a connection to cancel on: `origin or self.connection`. -/
def connected (origin : Bool) : Bool := origin || h.acks.pipeline.current

/-- The latches of the acknowledgements that were swept. -/
def clearSwept (speech : List SpeechItem) : CancelHost :=
  speech.foldl (fun h item => if item.isAck then h.clearAckLatch item.turnId else h) h

/-- `cancel_turn_or_child` without a child. -/
def cancelAll (turnId exclude : Option String) : CancelHost × Cancelled :=
  let r := h.cancelWork none exclude
  let speech := h.scheduler.cancelled none
  (((r.1.cancelSpeech cfg none).clearAckLatch turnId).clearSwept speech, ⟨r.2.1, speech, r.2.2⟩)

/-- The acknowledgement of the turn goes with its last child. -/
def settleSole (turnId : Option String) (child : String) : CancelHost :=
  turnId.elim h fun t =>
    if h.remaining t child = ∅ then (h.cancelSpeech cfg (some (ackWorkItemId t))).clearAckLatch (some t) else h

/-- `cancel_turn_or_child` with a child. -/
def cancelChild (turnId : Option String) (child : String) (exclude : Option String) : CancelHost × Cancelled :=
  let r := h.cancelWork (some child) exclude
  ((r.1.cancelSpeech cfg (some child)).settleSole cfg turnId child,
    ⟨r.2.1, h.scheduler.cancelled (some child), r.2.2⟩)

/-- `cancel_turn_or_child`; `origin` says that it is given a connection. -/
def cancelTurnOrChild (turnId child : Option String) (origin : Bool) (exclude : Option String) :
    CancelHost × Cancelled :=
  if h.connected origin then
    child.elim (h.cancelAll cfg turnId exclude) fun child => h.cancelChild cfg turnId child exclude
  else (h.clearAckLatch turnId, {})

/-- `release_turn_work_item`. -/
def releaseTurnWorkItem (turnId workItemId : String) : CancelHost :=
  match h.turnWorkItems.get? turnId with
  | none => h
  | some items =>
    if items.erase workItemId = ∅ then
      { h with turnWorkItems := h.turnWorkItems.pop turnId }.clearAckLatch (some turnId)
    else { h with turnWorkItems := h.turnWorkItems.set turnId (items.erase workItemId) }

/-- `_begin_delegation` accepts a child: of a turn, or of an item of a fan-out. -/
def beginDelegation (turnId : String) (item : Option ℕ) : CancelHost :=
  let w := Session.workItemId (item.elim turnId (Session.itemTurnId turnId))
  { h with
    turnWorkItems := h.turnWorkItems.set turnId (insert w (h.children turnId))
    work := h.work.registerKnown w }

/-- What can happen. -/
inductive Event
  /-- To the acknowledgements, and to the connection. -/
  | acks (e : AckHost.Event)
  | beginDelegation (turnId : String) (item : Option ℕ)
  | releaseTurnWorkItem (turnId workItemId : String)
  | releaseAllTurnWorkItems (turnId : String)
  | registerWorkTask (workItemId : String) (task : ℕ)
  | workTaskDone (workItemId : String) (task : ℕ)
  | registerTurnTask (workItemId : String) (task : ℕ)
  | turnTaskDone (workItemId : String) (task : ℕ)
  | retire (workItemId : String)
  | clearCancelled (workItemId : String)
  /-- `coordinator.submit` starts a task for the work item. -/
  | submitted (workItemId : String) (task : ℕ)
  | submittedDone (workItemId : String) (task : ℕ)
  | cancelTurnOrChild (turnId child : Option String) (origin : Bool) (exclude : Option String)
  | clearAll

/-- One step. -/
def step : Event → CancelHost
  | .acks e => { h with acks := (h.acks.step cfg e).1 }
  | .beginDelegation turnId item => h.beginDelegation turnId item
  | .releaseTurnWorkItem turnId workItemId => h.releaseTurnWorkItem turnId workItemId
  | .releaseAllTurnWorkItems turnId =>
    { h with turnWorkItems := h.turnWorkItems.pop turnId }.clearAckLatch (some turnId)
  | .registerWorkTask workItemId task => { h with work := h.work.registerWorkTask workItemId task }
  | .workTaskDone workItemId task => { h with work := h.work.workTaskDone workItemId task }
  | .registerTurnTask workItemId task => { h with work := h.work.registerTurnTask workItemId task }
  | .turnTaskDone workItemId task => { h with work := h.work.turnTaskDone workItemId task }
  | .retire workItemId => { h with work := h.work.retire workItemId }
  | .clearCancelled workItemId => { h with work := h.work.clearCancelled workItemId }
  | .submitted workItemId task => { h with coordinatorTasks := h.coordinatorTasks.set workItemId task }
  | .submittedDone workItemId task =>
    if h.coordinatorTasks.get? workItemId = some task then
      { h with coordinatorTasks := h.coordinatorTasks.pop workItemId }
    else h
  | .cancelTurnOrChild turnId child origin exclude => (h.cancelTurnOrChild cfg turnId child origin exclude).1
  | .clearAll => { h with acks := (h.acks.step cfg .clearAll).1, turnWorkItems := ∅ }

/-- A connection as it is opened, with nothing delegated. -/
def opened (epoch : ℤ) (enableEarlyAck : Bool) (earlyAckText : String) : CancelHost where
  acks := (AckHost.Heard.opened epoch enableEarlyAck earlyAckText).host

end CancelHost

end SubagentsLab

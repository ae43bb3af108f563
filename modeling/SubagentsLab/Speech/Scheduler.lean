import SubagentsLab.Machinery.Lanes
import SubagentsLab.Speech.Coordinator
import SubagentsLab.Speech.Delivery

/-!
# Speech/Scheduler — queued speech and the one lease

`SpeechScheduler` queues utterances per work item, admits one at a time into the lifecycle's
transport slot, and reports each one's progress to `SessionState`.  `start_next` suspends while
`speak` is awaited, and once more in its failure path; a call that is suspended there is a
`Submission`.  What the scheduler tells the outside (callbacks it invokes, calls that return or
raise) is a list of `Notice`s.
-/

namespace SubagentsLab

open Machinery

/-- `SpeechRole`. -/
inductive SpeechRole
  | result
  | timeoutNotice
  | ack
  deriving DecidableEq, Repr

/-- What `SpeechItem.__post_init__` accepts. -/
def SpeechRole.accepts (role : SpeechRole) (resultId ackId : Option String) : Bool :=
  match role with
  | .ack => ackId.isSome && resultId.isNone
  | _ => resultId.isSome

/-- `SpeechItem`. -/
structure SpeechItem where
  resultId : Option String
  workItemId : String
  runId : String
  text : String
  utteranceId : UtteranceId
  originEpoch : Option ℤ
  role : SpeechRole
  ackId : Option String
  turnId : Option String
  valid : role.accepts resultId ackId = true
  deriving DecidableEq

namespace SpeechItem

variable (item : SpeechItem)

/-- The item is an acknowledgement, which leaves no delivery record. -/
def isAck : Bool := item.role = .ack

/-- The identity an item is admitted under. -/
def identity : GenerationIdentity where
  utteranceId := item.utteranceId
  workItemId := item.workItemId
  originEpoch := item.originEpoch
  role := if item.isAck then .ack else .result
  turnId := item.turnId
  ackId := item.ackId

/-- `_progress`, with the epoch an interruption may put in place of the item's. -/
def progress (state : DeliveryState) (epoch : Option ℤ) : SpeechProgress where
  resultId := item.resultId
  workItemId := item.workItemId
  runId := item.runId
  utteranceId := item.utteranceId
  state := state
  originEpoch := epoch <|> item.originEpoch

end SpeechItem

/-- Report an item's progress; acknowledgements are invisible. -/
def SessionState.emit (s : SessionState) (state : DeliveryState) (allowStaleReconnect : Bool)
    (epoch : Option ℤ) (item : SpeechItem) : SessionState :=
  if item.isAck then s else s.speechProgress (item.progress state epoch) allowStaleReconnect

/-- The arguments of `enqueue`. -/
structure SpeechRequest where
  resultId : Option String := none
  workItemId : String
  runId : String := ""
  text : String := ""
  originEpoch : Option ℤ := none
  role : SpeechRole := .result
  ackId : Option String := none
  turnId : Option String := none
  deriving DecidableEq, Repr

/-- The item a request makes under a fresh utterance id, or `none` where `enqueue` raises. -/
def SpeechRequest.item? (r : SpeechRequest) (u : UtteranceId) : Option SpeechItem :=
  let ackId := if r.role = .ack then some (r.ackId.getD r.workItemId) else r.ackId
  if r.role = .ack ∧ ackId ≠ some r.workItemId then none
  else if valid : r.role.accepts r.resultId ackId = true then
    some
      { resultId := r.resultId
        workItemId := r.workItemId
        runId := r.runId
        text := r.text
        utteranceId := u
        originEpoch := r.originEpoch
        role := r.role
        ackId, turnId := r.turnId
        valid }
  else none

/-- The request that replays an item. -/
def SpeechItem.replay (item : SpeechItem) : SpeechRequest where
  resultId := item.resultId
  workItemId := item.workItemId
  runId := item.runId
  text := item.text
  originEpoch := item.originEpoch
  role := item.role
  ackId := item.ackId
  turnId := item.turnId

/-- `UtteranceLease`. -/
structure UtteranceLease where
  item : SpeechItem
  token : Token
  deriving DecidableEq

/-- Who awaits a `start_next` call: an owner of speech, the lifecycle's terminal callback (run by the
coroutine of that id), a queue-advance task, or the admission of an acknowledgement. -/
inductive Caller
  | owner
  | terminal (id : ℕ)
  | advance
  | admission (id : ℕ)
  deriving DecidableEq, Repr

/-- The exception of a failed submission reaches whoever asked for the speech: the queue-advance task
swallows it, and behind the terminal callback there is no owner. -/
def Caller.hears : Caller → Bool
  | .owner | .admission _ => true
  | .terminal _ | .advance => false

/-- A `start_next` call that is suspended: `speak` is awaited, or, past its failure, the coroutine of
`provider_error`. -/
structure Submission where
  id : ℕ
  lease : UtteranceLease
  caller : Caller
  failing : Option ℕ := none
  deriving DecidableEq

/-- A queue-advance task that has not begun. -/
structure Advance where
  id : ℕ
  exclude : String
  deriving DecidableEq, Repr

/-- What the scheduler tells the outside. -/
inductive Notice
  | enqueued (item : SpeechItem)
  | speak (item : SpeechItem)
  | stop (item : SpeechItem)
  | ackTerminal (identity : GenerationIdentity) (reason : PreAdmissionTerminalReason)
  | returned (caller : Caller) (item : Option SpeechItem)
  | raised (caller : Caller) (item : SpeechItem)
  deriving DecidableEq

/-- `SpeechScheduler`, with the `SessionState` and the lifecycle it drives. -/
structure SpeechScheduler where
  state : SessionState := {}
  lifecycle : SpeechLifecycleCoordinator := {}
  queues : Lanes SpeechItem.workItemId := ∅
  active : Option UtteranceLease := none
  paused : Dict String SpeechItem := ∅
  providerContexts : UtteranceId → Option Token := fun _ => none
  discarded : Bool := false
  submissions : List Submission := []
  advances : List Advance := []
  nextUtterance : UtteranceId := 0
  nextCall : ℕ := 0

namespace SpeechScheduler

variable (cfg : LifecycleConfig) (s : SpeechScheduler)

/-! ## Progress -/

/-- `_emit_progress`. -/
def emitProgress (item : SpeechItem) (state : DeliveryState) (allowStaleReconnect : Bool := false)
    (epoch : Option ℤ := none) : SpeechScheduler :=
  { s with state := s.state.emit state allowStaleReconnect epoch item }

/-- One report for each of several items. -/
def emitAll (items : List SpeechItem) (state : DeliveryState) (allowStaleReconnect : Bool := false)
    (epoch : Option ℤ := none) : SpeechScheduler :=
  { s with state := items.foldl (fun st item => st.emit state allowStaleReconnect epoch item) s.state }

/-- `_notify_ack_swept`. -/
def ackSwept (reason : PreAdmissionTerminalReason) (item : SpeechItem) : List Notice :=
  if item.isAck then [.ackTerminal item.identity reason] else []

/-! ## Queues -/

/-- `enqueue`, with the item it files, or `none` where it raises. -/
def enqueue (r : SpeechRequest) : SpeechScheduler × Option SpeechItem :=
  match r.item? s.nextUtterance with
  | none => (s, none)
  | some item =>
    let s := { s with queues := s.queues.push item, nextUtterance := s.nextUtterance + 1 }
    ((s.emitProgress item .displayed).emitProgress item .queued, some item)

/-- `discard_queued_ack`. -/
def discardQueuedAck (ackId : String) : SpeechScheduler :=
  { s with queues := s.queues.keep ackId fun item => !(item.isAck && item.ackId = some ackId) }

/-- `discard_queued_notice`. -/
def discardQueuedNotice (workItemId : String) : SpeechScheduler :=
  let superseded := fun item : SpeechItem => decide (item.role = .timeoutNotice)
  { s with queues := s.queues.keep workItemId fun item => !superseded item }
    |>.emitAll ((s.queues.lane workItemId).filter superseded) .interrupted

/-- `_discard_from_queue`. -/
def discardFromQueue (item : SpeechItem) : SpeechScheduler :=
  if (s.queues.lane item.workItemId).head? = some item then
    { s with queues := s.queues.dropHead item.workItemId }
  else s

/-! ## The lease -/

/-- The provider contexts of other leases. -/
def contextsWithout (token : Token) (ctx : UtteranceId) : Option Token :=
  (s.providerContexts ctx).filter (· ≠ token)

/-- `_release`. -/
def release (u : UtteranceId) : SpeechScheduler :=
  match s.active with
  | none => s
  | some lease =>
    if lease.item.utteranceId = u then
      { s with active := none, providerContexts := s.contextsWithout lease.token }
    else s

/-- `_active_item`, as its lease. -/
def activeLease (u : UtteranceId) : Option UtteranceLease :=
  s.active.filter fun lease => lease.item.utteranceId = u

/-- `_provider_item`, as its lease. -/
def providerLease (ctx : UtteranceId) : Option UtteranceLease :=
  s.active.filter fun lease => s.providerContexts ctx = some lease.token

/-- `provider_started`. -/
def providerStarted (ctx : UtteranceId) : SpeechScheduler :=
  match s.activeLease ctx with
  | none => s
  | some lease =>
    if (s.providerContexts ctx).isSome then s
    else { s with providerContexts := Function.update s.providerContexts ctx (some lease.token) }

/-- `synthesis_ended`. -/
def synthesisEnded (u : UtteranceId) : SpeechScheduler :=
  match s.activeLease u with
  | none => s
  | some lease => s.emitProgress lease.item .synthesisEnded

/-- `delivery_completed` and `delivery_unknown`: the state they report and the disposition they
release the generation with. -/
def deliver (state : DeliveryState) (disposition : DeliveryDisposition) (u : UtteranceId) :
    SpeechScheduler :=
  match s.activeLease u with
  | none => s
  | some lease =>
    let s := s.emitProgress lease.item state
    { s with lifecycle := s.lifecycle.releaseGeneration cfg lease.token true disposition }
      |>.release u

/-- `delivery_completed`. -/
def deliveryCompleted (u : UtteranceId) : SpeechScheduler :=
  s.deliver cfg .deliveryCompleted .deliveryCompleted u

/-- `delivery_unknown`. -/
def deliveryUnknown (u : UtteranceId) : SpeechScheduler :=
  s.deliver cfg .deliveryUnknown .deliveryUnknown u

/-- Forget a provider context. -/
def forgetContext (ctx : UtteranceId) : SpeechScheduler :=
  { s with providerContexts := Function.update s.providerContexts ctx none }

/-- `provider_synthesis_ended`. -/
def providerSynthesisEnded (ctx : UtteranceId) : SpeechScheduler :=
  match s.providerLease ctx with
  | none => s
  | some lease => s.synthesisEnded lease.item.utteranceId

/-- `provider_delivery_completed`. -/
def providerDeliveryCompleted (ctx : UtteranceId) : SpeechScheduler :=
  match s.providerLease ctx with
  | none => s
  | some lease => (s.deliveryCompleted cfg lease.item.utteranceId).forgetContext ctx

/-- `provider_delivery_unknown`. -/
def providerDeliveryUnknown (ctx : UtteranceId) : SpeechScheduler :=
  match s.providerLease ctx with
  | none => s
  | some lease => (s.deliveryUnknown cfg lease.item.utteranceId).forgetContext ctx

/-! ## Starting the next item -/

/-- How the pre-admission loop ends. -/
inductive Scan
  | exhausted
  | busy
  | admitted (item : SpeechItem) (token : Token)
  deriving DecidableEq

/-- The pre-admission loop over one queue: candidates the lifecycle rejects for good are discarded
until one is admitted. -/
def scanLane (acceptable : Bool) (s : SpeechScheduler) :
    List SpeechItem → SpeechScheduler × List Notice × Scan
  | [] => (s, [], .exhausted)
  | candidate :: rest =>
    match s.lifecycle.preAdmissionDisposition cfg acceptable candidate.identity with
    | (_, .terminal reason) =>
      let r := scanLane acceptable
        ((s.discardFromQueue candidate).emitProgress candidate .deliveryUnknown) rest
      (r.1, ackSwept reason candidate ++ r.2.1, r.2.2)
    | (_, .busy) => (s, [], .busy)
    | (lifecycle, .admitted token) => ({ s with lifecycle }, [], .admitted candidate token)

/-- The pre-admission loop over several queues. -/
def scanKeys (acceptable : Bool) (s : SpeechScheduler) :
    List String → SpeechScheduler × List Notice × Scan
  | [] => (s, [], .exhausted)
  | key :: keys =>
    match scanLane cfg acceptable s (s.queues.lane key) with
    | (s', ns, .exhausted) =>
      let r := scanKeys acceptable s' keys
      (r.1, ns ++ r.2.1, r.2.2)
    | r => r

/-- An admitted item leaves its queue, takes the lease and is handed to `speak`. -/
def submit (item : SpeechItem) (token : Token) (caller : Caller) : SpeechScheduler :=
  let s := { s with
    queues := s.queues.dropHead item.workItemId
    active := some ⟨item, token⟩ }
  let s := s.emitProgress item .started
  { s with
    lifecycle := s.lifecycle.markHandedToTts cfg token
    submissions := s.submissions ++ [{ id := s.nextCall, lease := ⟨item, token⟩, caller }]
    nextCall := s.nextCall + 1 }

/-- A `start_next` call is over: the terminal callback that awaited it is too, and the coroutine that
awaited the callback goes on. -/
def finish (caller : Caller) (ok : Bool) : SpeechScheduler :=
  match caller with
  | .terminal id => { s with lifecycle := s.lifecycle.terminalReported cfg id ok }
  | _ => s

/-- `start_next`, up to the await of `speak`. -/
def startNext (acceptable : Bool) (workItemId : Option String) (caller : Caller) :
    SpeechScheduler × List Notice :=
  if s.active.isSome || s.lifecycle.slotToken.isSome then
    (s.finish cfg caller true, [.returned caller none])
  else
    match s.scanKeys cfg acceptable (workItemId.elim s.queues.keys fun key => [key]) with
    | (s', ns, .admitted item token) => (s'.submit cfg item token caller, ns ++ [.speak item])
    | (s', ns, _) => (s'.finish cfg caller true, ns ++ [.returned caller none])

/-- The submission of that id. -/
def submission? (id : ℕ) : Option Submission := s.submissions.find? (·.id = id)

/-- The submission of that id, if the transport slot is its own. -/
def slotHolder? (id : ℕ) : Option Submission :=
  (s.submission? id).filter fun sub => s.lifecycle.slotToken = some sub.lease.token

/-- `speak` returns. -/
def speakReturns (id : ℕ) : SpeechScheduler × List Notice :=
  match s.submission? id with
  | none => (s, [])
  | some sub =>
    if sub.failing.isSome then (s, [])
    else
      ({ s with submissions := s.submissions.erase sub }.finish cfg sub.caller true,
        [.returned sub.caller (some sub.lease.item)])

/-- `speak` raises: the failure path of `start_next` up to the end of `provider_error`. -/
def speakRaises (id : ℕ) : SpeechScheduler :=
  match s.submission? id with
  | none => s
  | some sub =>
    if sub.failing.isSome then s
    else
      let s := s.emitProgress sub.lease.item .deliveryUnknown
      { s with
        lifecycle := (s.lifecycle.providerError sub.lease.token).1
        submissions := s.submissions.map fun t =>
          if t = sub then { t with failing := some s.lifecycle.nextTransition } else t }

/-- `_schedule_queue_advance`. -/
def scheduleQueueAdvance (exclude : String) : SpeechScheduler :=
  if s.discarded then s
  else { s with advances := s.advances ++ [⟨s.nextCall, exclude⟩], nextCall := s.nextCall + 1 }

/-- The rest of the failure path, once `provider_error` is over. -/
def submissionFails (id : ℕ) : SpeechScheduler × List Notice :=
  match s.submission? id with
  | none => (s, [])
  | some sub =>
    if sub.failing.all fun coroutine => s.lifecycle.transitions.any (·.id = coroutine) then (s, [])
    else
      let s := { s with
        submissions := s.submissions.erase sub
        lifecycle := s.lifecycle.releaseGeneration cfg sub.lease.token false .deliveryUnknown }
      (((s.release sub.lease.item.utteranceId).scheduleQueueAdvance sub.lease.item.workItemId).finish
          cfg sub.caller false,
        [.raised sub.caller sub.lease.item])

/-- A queue-advance task runs: `start_next` for the first other key that has speech queued. -/
def runAdvance (acceptable : Bool) (id : ℕ) : SpeechScheduler × List Notice :=
  match s.advances.find? (·.id = id) with
  | none => (s, [])
  | some task =>
    let s := { s with advances := s.advances.erase task }
    match s.queues.keys.find? (· ≠ task.exclude) with
    | none => (s, [])
    | some key => s.startNext cfg acceptable (some key) .advance

/-! ## Interruption, pause and cancellation -/

/-- The active lease is interrupted in the lifecycle and in transport, reported and released. -/
def interruptActive (lease : UtteranceLease) (state : DeliveryState) (pause : Bool := false)
    (allowStaleReconnect : Bool := false) (epoch : Option ℤ := none) : SpeechScheduler :=
  { s with lifecycle := s.lifecycle.recordInterruption cfg lease.token pause }
    |>.emitProgress lease.item state allowStaleReconnect epoch
    |>.release lease.item.utteranceId

/-- Everything queued and paused is swept, for a scheduler that is being discarded. -/
def sweep (state : DeliveryState) (epoch : Option ℤ) : SpeechScheduler × List Notice :=
  let held := s.queues.items ++ s.paused.values
  ({ s with discarded := true, queues := ∅, advances := [], paused := ∅ }.emitAll held state true epoch,
    held.flatMap (ackSwept .connectionClosed))

/-- `interrupt`. -/
def interrupt (epoch : Option ℤ) (reconnect fullStop : Bool) : SpeechScheduler × List Notice :=
  let state := if reconnect then DeliveryState.interruptedByReconnect else .interrupted
  let discarding := reconnect || fullStop
  let r := match s.active with
    | none => (s, [])
    | some lease => (s.interruptActive cfg lease state false discarding epoch, [Notice.stop lease.item])
  if discarding then
    let swept := r.1.sweep state epoch
    (swept.1, r.2 ++ swept.2)
  else r

/-- `pause`. -/
def pause (workItemId : String) : SpeechScheduler × List Notice :=
  match s.active with
  | none => (s, [])
  | some lease =>
    if lease.item.workItemId = workItemId then
      ({ s with paused := s.paused.set workItemId lease.item }.interruptActive cfg lease .paused true,
        [.stop lease.item])
    else (s, [])

/-- What `resume` is asked for. -/
inductive Target
  | latest
  | workItem (workItemId : String)
  | item (item : SpeechItem)
  deriving DecidableEq

/-- The paused item a target stands for. -/
def pausedFor : Target → Option SpeechItem
  | .latest => s.paused.values.getLast?
  | .workItem workItemId => s.paused.get? workItemId
  | .item item => s.paused.get? item.workItemId

/-- The item a target stands for, paused or handed in. -/
def resumable (target : Target) : Option SpeechItem :=
  s.pausedFor target <|> match target with
    | .item item => some item
    | _ => none

/-- The item is no longer paused. -/
def unpause (item : SpeechItem) : SpeechScheduler :=
  if s.paused.get? item.workItemId = some item then
    { s with paused := s.paused.pop item.workItemId }
  else s

/-- The end of `resume`: the replay of an item that is not paused any more. -/
def enqueueReplay (item : SpeechItem) : SpeechScheduler × List Notice :=
  match s.enqueue item.replay with
  | (s', none) => (s', [])
  | (s', some replay) => (s'.emitProgress replay .resumed, [.enqueued replay])

/-- `resume`. -/
def resume (target : Target) : SpeechScheduler × List Notice :=
  match s.resumable target with
  | none => (s, [])
  | some item =>
    let wasPaused := (s.pausedFor target).isSome
    let s := s.unpause item
    if item.isAck then (s, [.ackTerminal item.identity .unavailableTransport])
    else
      let s := if wasPaused then s.emitProgress item .interrupted else s
      s.enqueueReplay item

/-- The queued items of one key are dropped, reported as interrupted. -/
def cancelLane (workItemId : String) : SpeechScheduler :=
  { s with queues := s.queues.pop workItemId }.emitAll (s.queues.lane workItemId) .interrupted

/-- The paused item of one key is dropped, reported as interrupted. -/
def cancelPaused (workItemId : String) : SpeechScheduler :=
  { s with paused := s.paused.pop workItemId }.emitAll (s.paused.get? workItemId).toList .interrupted

/-- `cancel`. -/
def cancel (workItemId : Option String) : SpeechScheduler × List Notice :=
  let r := match s.active with
    | none => (s, [])
    | some lease =>
      if workItemId.all (· = lease.item.workItemId) then
        (s.interruptActive cfg lease .interrupted, [Notice.stop lease.item])
      else (s, [])
  let keys := workItemId.elim r.1.queues.keys fun key => [key]
  let queued := keys.foldl cancelLane r.1
  let pausedKeys := workItemId.elim queued.paused.keys fun key => [key]
  let swept := keys.flatMap r.1.queues.lane ++ pausedKeys.flatMap fun key => (r.1.paused.get? key).toList
  (pausedKeys.foldl cancelPaused queued, r.2 ++ swept.flatMap (ackSwept .cancelled))

end SpeechScheduler

end SubagentsLab

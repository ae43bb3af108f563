import SubagentsLab.Machinery.Dict
import SubagentsLab.Speech.Connection

/-!
# Turn/AckLedger — one early acknowledgement per turn

`TurnAckLedger` files a turn's acknowledgement when the first of its children is delegated, latches the
turn, and sees the item through admission in a chain of retries.  An `AckHost` is the ledger beside the
connection it files on; the scheduler tells it of acknowledgements that are swept and of admissions that
return or raise.  Every await of the source is a point at which a call can be found suspended: an
`Emission` in its one-tick yield, an `Admission` before it runs, in `start_next`, or asleep.

The registry of delegated children is left out: all it does to the latch is to clear it, at moments of
the turn handlers' choosing (`Event.clearAckLatch`).
-/

namespace SubagentsLab

open Machinery

/-- `_ACK_ADMISSION_MAX_ATTEMPTS`. -/
def ackAdmissionMaxAttempts : ℕ := 4

/-- `_MAX_ACK_GENERATION_TURNS`. -/
def maxAckGenerationTurns : ℕ := 2048

/-- `ack_work_item_id`. -/
def ackWorkItemId (turnId : String) : String := "ack-" ++ turnId

/-- What `TurnAckLedger` keeps. -/
structure TurnAckLedger where
  emittedTurns : List String := []
  admissionGeneration : Dict String ℕ := ∅
  generationSequence : ℕ := 0

namespace TurnAckLedger

variable (l : TurnAckLedger)

/-- `clear_ack_latch`. -/
def clearAckLatch (turnId : String) : TurnAckLedger :=
  { l with emittedTurns := l.emittedTurns.filter (· ≠ turnId) }

/-- The turn is latched. -/
def latch (turnId : String) : TurnAckLedger :=
  { l with emittedTurns := l.emittedTurns.insert turnId }

/-- Evict the oldest turns past the cap. -/
def evict (generations : Dict String ℕ) : Dict String ℕ :=
  (generations.keys.take (generations.keys.length - maxAckGenerationTurns)).foldl Dict.pop generations

/-- `_claim_ack_admission_generation`; a turn that claims again moves to the end. -/
def claimGeneration (turnId : String) : TurnAckLedger × ℕ :=
  let generation := l.generationSequence + 1
  ({ l with
    generationSequence := generation
    admissionGeneration := evict ((l.admissionGeneration.pop turnId).set turnId generation) },
    generation)

/-- A newer chain holds the turn; a turn that was evicted is held by none. -/
def superseded (turnId : String) (generation : ℕ) : Bool :=
  (l.admissionGeneration.get? turnId).any (· ≠ generation)

end TurnAckLedger

/-- An `emit_early_ack` call in its one-tick yield. -/
structure Emission where
  id : ℕ
  turnId : String
  originEpoch : ℤ
  deriving DecidableEq, Repr

/-- Where an admission chain stands. -/
inductive AdmissionPoint
  | scheduled
  | admitting
  | sleeping
  deriving DecidableEq, Repr

/-- A task of an admission chain. -/
structure Admission where
  id : ℕ
  turnId : String
  originEpoch : ℤ
  generation : ℕ
  attempt : ℕ
  point : AdmissionPoint
  deriving DecidableEq, Repr

/-- The ledger beside the connection `origin` it files on: `epoch` is that connection's, and the other
fields are what the ledger reads of its host. -/
structure AckHost where
  pipeline : ConnectionPipeline
  epoch : ℤ
  closing : Bool := false
  enableEarlyAck : Bool := true
  earlyAckText : String := ""
  ledger : TurnAckLedger := {}
  emissions : List Emission := []
  admissions : List Admission := []
  nextTask : ℕ := 0

namespace AckHost

variable (cfg : LifecycleConfig) (h : AckHost)

/-- `connection is origin`, `origin.active` and `accepts(origin_epoch)`: the arbiter's epoch is that of
the host's connection. -/
def live (originEpoch : ℤ) : Bool :=
  h.pipeline.current && h.pipeline.active && !h.closing && decide (h.epoch = originEpoch)

/-- The arguments of the acknowledgement's `enqueue`. -/
def ackRequest (turnId : String) (originEpoch : ℤ) : SpeechRequest where
  workItemId := ackWorkItemId turnId
  runId := "run-" ++ ackWorkItemId turnId
  text := h.earlyAckText
  originEpoch := some originEpoch
  role := .ack
  ackId := some (ackWorkItemId turnId)
  turnId := some turnId

/-- `enqueue_ack`. -/
def enqueueAck (turnId : String) (originEpoch : ℤ) : AckHost :=
  { h with pipeline := (h.pipeline.step cfg (.enqueue (h.ackRequest turnId originEpoch))).1 }

/-- `_schedule_ack_admission`; a chain that has no generation yet claims one. -/
def scheduleAckAdmission (turnId : String) (originEpoch : ℤ) (attempt : ℕ) (generation : Option ℕ) :
    AckHost :=
  let claim := generation.elim (h.ledger.claimGeneration turnId) fun generation => (h.ledger, generation)
  { h with
    ledger := claim.1
    admissions := h.admissions ++ [⟨h.nextTask, turnId, originEpoch, claim.2, attempt, .scheduled⟩]
    nextTask := h.nextTask + 1 }

/-- `settle_turn_ack` without `cancel_admitted`. -/
def retract (turnId : String) : AckHost :=
  { h with
    pipeline := (h.pipeline.step cfg (.discardQueuedAck (ackWorkItemId turnId))).1
    ledger := h.ledger.clearAckLatch turnId }

/-- A task is over. -/
def forget (id : ℕ) : AckHost := { h with admissions := h.admissions.filter (·.id ≠ id) }

/-- `_retry_or_abandon`. -/
def retryOrAbandon (task : Admission) (needsRequeue : Bool) : AckHost :=
  if h.ledger.superseded task.turnId task.generation then h
  else if task.turnId ∉ h.ledger.emittedTurns ∨ h.live task.originEpoch = false then
    h.retract cfg task.turnId
  else if ackAdmissionMaxAttempts ≤ task.attempt then h.retract cfg task.turnId
  else
    let h := if needsRequeue then h.enqueueAck cfg task.turnId task.originEpoch else h
    { h with
      admissions := h.admissions ++ [{ task with id := h.nextTask, point := .sleeping }]
      nextTask := h.nextTask + 1 }

/-- The admission `id` is back from `start_next`. -/
def admissionEnds (id : ℕ) (needsRequeue : Bool) : AckHost :=
  match h.admissions.find? (·.id = id) with
  | none => h
  | some task => (h.forget id).retryOrAbandon cfg task needsRequeue

/-- What the ledger makes of a notice of the scheduler: `on_ack_terminal`, and the end of `admit`. -/
def hear : Notice → AckHost
  | .ackTerminal identity _ =>
    { h with ledger := identity.turnId.elim h.ledger h.ledger.clearAckLatch }
  | .returned (.admission id) none => h.admissionEnds cfg id false
  | .returned (.admission id) (some _) => h.forget id
  | .raised (.admission id) _ => h.admissionEnds cfg id true
  | _ => h

/-- A step of the connection, and what the ledger makes of it. -/
def listen (e : ConnectionPipeline.Event) : AckHost × List Notice :=
  let r := h.pipeline.step cfg e
  (r.2.foldl (hear cfg) { h with pipeline := r.1 }, r.2)

/-- The rest of `emit_early_ack`, once nothing speaks against it. -/
def emit (turnId : String) (originEpoch : ℤ) : AckHost :=
  let h := h.enqueueAck cfg turnId originEpoch
  { h with ledger := h.ledger.latch turnId }.scheduleAckAdmission turnId originEpoch 1 none

/-- `emit_early_ack` gets past its checks: `searching` says that it is given a search task. -/
def eligible (turnId : String) (originEpoch : ℤ) (dispatched searching : Bool) : Bool :=
  dispatched = searching && h.enableEarlyAck && h.ledger.emittedTurns.all (· ≠ turnId) &&
    cfg.ttsAvailable && h.live originEpoch

/-- What can happen. -/
inductive Event
  | speech (e : ConnectionPipeline.Event)
  | emitEarlyAck (turnId : String) (originEpoch : ℤ) (dispatched searching : Bool)
  /-- The emission `id` is back from its yield. -/
  | resumeEmission (id : ℕ) (searchDone : Bool)
  | cancelEmission (id : ℕ)
  /-- The admission `id` runs: `admit`. -/
  | runAdmission (id : ℕ)
  /-- The admission `id` has slept. -/
  | wake (id : ℕ)
  | cancelAdmission (id : ℕ)
  | settleTurnAck (turnId : String) (cancelAdmitted : Bool)
  | clearAckLatch (turnId : String)
  | clearAll
  | setClosing (closing : Bool)
  | configure (enableEarlyAck : Bool) (earlyAckText : String)
  deriving DecidableEq

/-- One step, with what the scheduler tells. -/
def step : Event → AckHost × List Notice
  | .speech e => h.listen cfg e
  | .emitEarlyAck turnId originEpoch dispatched searching =>
    if h.eligible cfg turnId originEpoch dispatched searching then
      if searching then
        ({ h with
          emissions := h.emissions ++ [⟨h.nextTask, turnId, originEpoch⟩]
          nextTask := h.nextTask + 1 }, [])
      else (h.emit cfg turnId originEpoch, [])
    else (h, [])
  | .resumeEmission id searchDone =>
    match h.emissions.find? (·.id = id) with
    | none => (h, [])
    | some emission =>
      let h := { h with emissions := h.emissions.erase emission }
      if searchDone then (h, []) else (h.emit cfg emission.turnId emission.originEpoch, [])
  | .cancelEmission id => ({ h with emissions := h.emissions.filter (·.id ≠ id) }, [])
  | .runAdmission id =>
    match h.admissions.find? (·.id = id) with
    | none => (h, [])
    | some task =>
      if task.point = .scheduled then
        if h.ledger.superseded task.turnId task.generation then (h.forget id, [])
        else
          { h with admissions := (h.forget id).admissions ++ [{ task with point := .admitting }] }.listen cfg
            (.startAck id (ackWorkItemId task.turnId))
      else (h, [])
  | .wake id =>
    match h.admissions.find? (·.id = id) with
    | none => (h, [])
    | some task =>
      if task.point = .sleeping then
        ((h.forget id).scheduleAckAdmission task.turnId task.originEpoch (task.attempt + 1)
          (some task.generation), [])
      else (h, [])
  | .cancelAdmission id => (h.forget id, [])
  | .settleTurnAck turnId cancelAdmitted =>
    let r := if cancelAdmitted then h.listen cfg (.cancel (some (ackWorkItemId turnId))) else (h, [])
    (r.1.retract cfg turnId, r.2)
  | .clearAckLatch turnId => ({ h with ledger := h.ledger.clearAckLatch turnId }, [])
  | .clearAll =>
    ({ h with ledger := { h.ledger with emittedTurns := [], admissionGeneration := ∅ } }, [])
  | .setClosing closing => ({ h with closing }, [])
  | .configure enableEarlyAck earlyAckText => ({ h with enableEarlyAck, earlyAckText }, [])

end AckHost

end SubagentsLab

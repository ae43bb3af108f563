import Mathlib.Algebra.Order.Field.Rat
import Mathlib.Logic.Function.Basic

/-!
# Speech/Generation — the data of the speech lifecycle

An admitted utterance is a **generation**: a private, token-fenced record of how far it got between
admission and the end of transport.  The coordinator keeps the generations, the one transport slot,
the map from TTS contexts to tokens, a bounded list of retired contexts, one timer handle per token,
and the coroutines that are under way.
-/

namespace SubagentsLab

/-- A generation's token; fresh tokens are drawn from a counter. -/
abbrev Token := ℕ

/-- A scheduler utterance id, which is also the TTS context id of its speech. -/
abbrev UtteranceId := ℕ

/-- `GenerationPhase`. -/
inductive GenerationPhase
  | admitted
  | handedToTts
  | synthesizing
  | synthesisEnded
  | transportStarted
  | transportStopped
  deriving DecidableEq, Repr

/-- `DeliveryDisposition`: how a generation ended, for the scheduler. -/
inductive DeliveryDisposition
  | paused
  | interrupted
  | cancelled
  | deliveryCompleted
  | deliveryUnknown
  deriving DecidableEq, Repr

/-- `GenerationRole`. -/
inductive GenerationRole
  | result
  | ack
  deriving DecidableEq, Repr

/-- `GenerationIdentity`: what a generation is admitted for. -/
structure GenerationIdentity where
  utteranceId : UtteranceId
  workItemId : String
  originEpoch : Option ℤ := none
  role : GenerationRole := .result
  turnId : Option String := none
  ackId : Option String := none
  deriving DecidableEq, Repr

/-- `PreAdmissionTerminalReason`. -/
inductive PreAdmissionTerminalReason
  | noTts
  | unavailableTransport
  | connectionClosed
  | cancelled
  deriving DecidableEq, Repr

/-- `SpeechGeneration`: one admitted utterance's lifecycle state. -/
structure SpeechGeneration where
  identity : GenerationIdentity
  phase : GenerationPhase := .admitted
  disposition : Option DeliveryDisposition := none
  contextId : Option UtteranceId := none
  audioDurationSeconds : ℚ := 0
  audioSubmitted : Bool := false
  synthesisEndedAt : Option ℚ := none
  cleanupPending : Bool := false
  teardownPending : Bool := false
  tombstoned : Bool := false
  terminalized : Bool := false
  deriving DecidableEq, Repr

/-- The four deadlines that share a token's timer handle. -/
inductive Deadline
  | start
  | drain
  | interruption
  | flushAck
  deriving DecidableEq, Repr

/-- A timer handle: what it will schedule, when, and whether it has. -/
structure TimerHandle where
  deadline : Deadline
  due : ℚ
  fired : Bool := false
  deriving DecidableEq, Repr

/-- Where an internal coroutine of the coordinator stands: scheduled and not begun, or suspended on
one of the three callbacks. -/
inductive TransitionPoint
  | onTimeout (deadline : Deadline) (token : Token)
  | finalizeUncontextedInterruption (token : Token) (disposition : DeliveryDisposition)
  | terminalize (token : Token) (disposition : DeliveryDisposition)
  | callOnTerminal (token : Token) (identity : GenerationIdentity)
      (disposition : DeliveryDisposition)
  | noop
  | dispatchingCleanup (token : Token)
  | dispatchingFinalCleanup (token : Token) (disposition : DeliveryDisposition)
  | dispatchingTeardown (token : Token)
  | reportingTerminal (token : Token) (teardown : Bool)
  deriving DecidableEq, Repr

/-- Whether the coroutine is suspended on a callback. -/
def TransitionPoint.begun : TransitionPoint → Bool
  | .dispatchingCleanup _ | .dispatchingFinalCleanup _ _ | .dispatchingTeardown _
  | .reportingTerminal _ _ => true
  | _ => false

/-- Whether the coroutine is suspended on the terminal callback. -/
def TransitionPoint.reporting : TransitionPoint → Bool
  | .reportingTerminal _ _ => true
  | _ => false

/-- A coroutine of the coordinator; `scheduled` ones are held in `_transition_tasks`, the others are
awaited by their caller. -/
structure Coroutine where
  id : ℕ
  scheduled : Bool
  deriving DecidableEq, Repr

/-- A coroutine that is under way. -/
structure Transition extends Coroutine where
  point : TransitionPoint
  deriving DecidableEq, Repr

/-- A callback invocation; the coroutine `id` awaits it. -/
inductive Effect
  | dispatchCleanup (id : ℕ) (token : Token) (identity : GenerationIdentity)
  | dispatchTeardown (id : ℕ) (token : Token) (identity : GenerationIdentity)
  | onTerminal (id : ℕ) (token : Token) (identity : GenerationIdentity)
      (disposition : DeliveryDisposition)
  deriving DecidableEq, Repr

/-- The coordinator's settings. -/
structure LifecycleConfig where
  speechStartTimeoutSeconds : ℚ := 10
  speechTransportGraceSeconds : ℚ := 1
  contextTombstoneLimit : ℕ := 256
  ttsAvailable : Bool := true

/-- What the coordinator stores about generations: the generations themselves, the one transport
slot, the contexts bound to them and the contexts retired, oldest first. -/
structure SlotStore where
  generations : Token → Option SpeechGeneration := fun _ => none
  slotToken : Option Token := none
  contextTokens : UtteranceId → Option Token := fun _ => none
  contextTombstones : List UtteranceId := []
  connectionClosed : Bool := false
  nextToken : Token := 0

/-- `SpeechLifecycleCoordinator`: the store, one timer handle per token, and the coroutines that are
under way. -/
structure SpeechLifecycleCoordinator extends SlotStore where
  timerHandles : Token → Option TimerHandle := fun _ => none
  transitions : List Transition := []
  teardownGeneration : ℕ := 0
  clock : ℚ := 0
  nextTransition : ℕ := 0

namespace SlotStore

variable (cfg : LifecycleConfig) (s : SlotStore)

/-- `_live`. -/
def live (token : Token) : Option SpeechGeneration :=
  (s.generations token).filter fun g => !g.terminalized

/-- Retire a context: newest last, the oldest forgotten beyond the limit. -/
def tombstone (contextId : UtteranceId) : List UtteranceId :=
  if cfg.contextTombstoneLimit = 0 then s.contextTombstones
  else
    let retired := s.contextTombstones.erase contextId ++ [contextId]
    retired.drop (retired.length - cfg.contextTombstoneLimit)

/-- Reap the generation `g` of `token`: it leaves the store and the slot, and its context is
retired. -/
def reap (token : Token) (g : SpeechGeneration) : SlotStore :=
  { s with
    generations := Function.update s.generations token none
    slotToken := if s.slotToken = some token then none else s.slotToken
    contextTokens :=
      match g.contextId with
      | none => s.contextTokens
      | some contextId =>
        if s.contextTokens contextId = some token then
          Function.update s.contextTokens contextId none
        else s.contextTokens
    contextTombstones :=
      match g.contextId with
      | none => s.contextTombstones
      | some contextId => s.tombstone cfg contextId }

/-- Admit a generation for `identity` under a fresh token. -/
def enter (identity : GenerationIdentity) : SlotStore :=
  { s with
    generations := Function.update s.generations s.nextToken (some { identity })
    slotToken := some s.nextToken
    nextToken := s.nextToken + 1 }

/-- Bind a context to the generation of `token`. -/
def bind (token : Token) (contextId : UtteranceId) : SlotStore :=
  { s with
    generations := Function.update s.generations token
      ((s.generations token).map fun g => { g with contextId := some contextId })
    contextTokens := Function.update s.contextTokens contextId (some token) }

/-- Discard everything connection-scoped. -/
def close : SlotStore :=
  { s with
    generations := fun _ => none
    slotToken := none
    contextTokens := fun _ => none
    contextTombstones := []
    connectionClosed := true }

/-- Change the stored generation of `token`, if there is one. -/
def modify (token : Token) (f : SpeechGeneration → SpeechGeneration) : SlotStore :=
  { s with generations := Function.update s.generations token ((s.generations token).map f) }

end SlotStore

end SubagentsLab

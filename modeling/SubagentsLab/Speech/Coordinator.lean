import SubagentsLab.Machinery.Runs
import SubagentsLab.Speech.Generation

/-!
# Speech/Coordinator — the speech lifecycle coordinator

The operations of `SpeechLifecycleCoordinator`, each as the state it leaves and the callbacks it
invokes.  A coroutine runs up to its next await in one step: `suspend` parks it there, `run` takes
the first step of a scheduled one and `callbackDone` resumes one whose callback has returned or
raised.  The clock moves between steps, and a timer fires at a step of its own once it is due.
-/

namespace SubagentsLab

open Machinery

namespace SpeechLifecycleCoordinator

variable (cfg : LifecycleConfig) (c : SpeechLifecycleCoordinator)

/-! ## Internal state -/

/-- The same coordinator over another store. -/
def upon (s : SlotStore) : SpeechLifecycleCoordinator := { c with toSlotStore := s }

/-- Change the stored generation of `token`, if there is one. -/
def modify (token : Token) (f : SpeechGeneration → SpeechGeneration) : SpeechLifecycleCoordinator :=
  c.upon (c.toSlotStore.modify token f)

/-- `_cancel_timer`. -/
def cancelTimer (token : Token) : SpeechLifecycleCoordinator :=
  { c with timerHandles := Function.update c.timerHandles token none }

/-- `_arm`. -/
def arm (token : Token) (due : ℚ) (deadline : Deadline) : SpeechLifecycleCoordinator :=
  { c with timerHandles := Function.update c.timerHandles token (some { deadline, due }) }

/-- Coroutine `me` suspends. -/
def suspend (me : Coroutine) (point : TransitionPoint) : SpeechLifecycleCoordinator :=
  { c with transitions := c.transitions ++ [{ me with point }] }

/-- A coroutine id is drawn. -/
def drawId : SpeechLifecycleCoordinator := { c with nextTransition := c.nextTransition + 1 }

/-- `_schedule`. -/
def schedule (point : TransitionPoint) : SpeechLifecycleCoordinator :=
  c.drawId.suspend ⟨c.nextTransition, true⟩ point

/-- A coroutine that is under way is taken up again. -/
def take (t : Transition) : SpeechLifecycleCoordinator :=
  { c with transitions := c.transitions.erase t }

/-- `_terminalize_state`: reap the generation and free the slot. -/
def terminalizeState (token : Token) (disposition : DeliveryDisposition) :
    SpeechLifecycleCoordinator × Option SpeechGeneration :=
  match c.live token with
  | none => (c, none)
  | some g =>
    ((c.cancelTimer token).upon (c.reap cfg token g),
      some { g with terminalized := true, disposition := some (g.disposition.getD disposition) })

/-- `_terminalize`, for coroutine `me`; `teardown` marks the caller `_teardown_complete`, which
counts itself once this returns. -/
def terminalize (me : Coroutine) (token : Token) (disposition : DeliveryDisposition)
    (teardown : Bool := false) : SpeechLifecycleCoordinator × List Effect :=
  match c.terminalizeState cfg token disposition with
  | (c', none) =>
    (if teardown then { c' with teardownGeneration := c'.teardownGeneration + 1 } else c', [])
  | (c', some g) =>
    (c'.suspend me (.reportingTerminal token teardown),
      [.onTerminal me.id token g.identity (g.disposition.getD disposition)])

/-- `_request_teardown`. -/
def requestTeardown (me : Coroutine) (token : Token) : SpeechLifecycleCoordinator × List Effect :=
  match c.live token with
  | none => (c, [])
  | some g =>
    if g.teardownPending then (c, [])
    else
      let c' := (c.modify token fun g => { g with teardownPending := true }).cancelTimer token
      (c'.suspend me (.dispatchingTeardown token), [.dispatchTeardown me.id token g.identity])

/-- `_begin_cleanup`. -/
def beginCleanup (me : Coroutine) (token : Token) : SpeechLifecycleCoordinator × List Effect :=
  match c.generations token with
  | none => (c, [])
  | some g =>
    if g.cleanupPending then (c, [])
    else
      let c' := c.modify token fun g => { g with cleanupPending := true }
      (c'.suspend me (.dispatchingCleanup token), [.dispatchCleanup me.id token g.identity])

/-- `_begin_delivery_unknown`. -/
def beginDeliveryUnknown (me : Coroutine) (token : Token) :
    SpeechLifecycleCoordinator × List Effect :=
  match c.live token with
  | none => (c, [])
  | some _ =>
    let c' := c.modify token fun g =>
      { g with
        disposition := some (g.disposition.getD .deliveryUnknown)
        tombstoned := true }
    c'.beginCleanup me token

/-- `_begin_cleanup` past its dispatch. -/
def endCleanup (me : Coroutine) (token : Token) (ok : Bool) :
    SpeechLifecycleCoordinator × List Effect :=
  if ok then
    match c.live token with
    | none => (c, [])
    | some g =>
      if g.audioSubmitted then c.requestTeardown me token
      else (c.arm token (c.clock + cfg.speechTransportGraceSeconds) .flushAck, [])
  else c.requestTeardown me token

/-- `_finalize_uncontexted_interruption` up to its dispatch. -/
def finalizeUncontextedInterruption (me : Coroutine) (token : Token)
    (disposition : DeliveryDisposition) : SpeechLifecycleCoordinator × List Effect :=
  match c.live token with
  | none => (c, [])
  | some g =>
    (c.suspend me (.dispatchingFinalCleanup token disposition),
      [.dispatchCleanup me.id token g.identity])

/-! ## Admission and TTS handoff -/

/-- `try_admit`. -/
def tryAdmit (identity : GenerationIdentity) : SpeechLifecycleCoordinator × Option Token :=
  if c.connectionClosed || c.slotToken.isSome then (c, none)
  else (c.upon (c.enter identity), some c.nextToken)

/-- What `pre_admission_disposition` answers. -/
inductive PreAdmission
  | admitted (token : Token)
  | terminal (reason : PreAdmissionTerminalReason)
  | busy
  deriving DecidableEq, Repr

/-- `pre_admission_disposition`; `acceptable` is what `transport_acceptance` says now. -/
def preAdmissionDisposition (acceptable : Bool) (identity : GenerationIdentity) :
    SpeechLifecycleCoordinator × PreAdmission :=
  if !cfg.ttsAvailable then (c, .terminal .noTts)
  else if identity.role = .ack && !acceptable then (c, .terminal .unavailableTransport)
  else if c.connectionClosed then (c, .terminal .connectionClosed)
  else
    match c.tryAdmit identity with
    | (c', some token) => (c', .admitted token)
    | (c', none) => (c', .busy)

/-- `mark_handed_to_tts`. -/
def markHandedToTts (token : Token) : SpeechLifecycleCoordinator :=
  match c.live token with
  | none => c
  | some g =>
    if g.tombstoned then c
    else
      let c' := c.modify token fun g => { g with phase := .handedToTts }
      c'.arm token (c.clock + cfg.speechStartTimeoutSeconds) .start

/-- `bind_context`. -/
def bindContext (token : Token) (contextId : UtteranceId) : SpeechLifecycleCoordinator × Bool :=
  match c.live token with
  | none => (c, false)
  | some g =>
    if g.tombstoned then (c, false)
    else if contextId ≠ g.identity.utteranceId then (c, false)
    else
      match g.contextId with
      | some bound => (c, bound = contextId && c.contextTokens contextId = some token)
      | none =>
        if (c.contextTokens contextId).any (· ≠ token) then (c, false)
        else if contextId ∈ c.contextTombstones then (c, false)
        else (c.upon (c.toSlotStore.bind token contextId), true)

/-! ## Provider synthesis -/

/-- The generation a context-correlated frame may act on. -/
def heard (contextId : UtteranceId) : Option (Token × SpeechGeneration) :=
  (c.contextTokens contextId).bind fun token =>
    ((c.live token).filter fun g => !g.tombstoned).map (token, ·)

/-- `on_tts_started`. -/
def onTtsStarted (contextId : UtteranceId) : SpeechLifecycleCoordinator × Bool :=
  match c.heard contextId with
  | none => (c, false)
  | some (token, _) =>
    ((c.cancelTimer token).modify token fun g => { g with phase := .synthesizing }, true)

/-- The duration of 16-bit PCM audio, in seconds. -/
def pcmSeconds (bytes : ℕ) (sampleRate numChannels : ℤ) : ℚ :=
  (bytes : ℚ) / ((max numChannels 1 : ℤ) * 2) / (max sampleRate 1 : ℤ)

/-- `on_tts_audio`. -/
def onTtsAudio (contextId : UtteranceId) (bytes : ℕ) (sampleRate numChannels : ℤ) :
    SpeechLifecycleCoordinator × Bool :=
  match c.heard contextId with
  | none => (c, false)
  | some (token, _) =>
    (c.modify token fun g =>
      { g with
        audioDurationSeconds := g.audioDurationSeconds + pcmSeconds bytes sampleRate numChannels
        audioSubmitted := true }, true)

/-- `on_tts_stopped`. -/
def onTtsStopped (contextId : UtteranceId) : SpeechLifecycleCoordinator × Bool :=
  match c.heard contextId with
  | none => (c, false)
  | some (token, g) =>
    let c' := c.modify token fun g =>
      { g with phase := .synthesisEnded, synthesisEndedAt := some c.clock }
    (c'.arm token (c.clock + g.audioDurationSeconds + cfg.speechTransportGraceSeconds) .drain, true)

/-! ## Transport -/

/-- `on_transport_bot_started`. -/
def onTransportBotStarted : SpeechLifecycleCoordinator :=
  match c.slotToken with
  | none => c
  | some token => c.modify token fun g => { g with phase := .transportStarted }

/-- `on_transport_bot_stopped`. -/
def onTransportBotStopped : SpeechLifecycleCoordinator :=
  match c.slotToken with
  | none => c.schedule .noop
  | some token =>
    match c.generations token with
    | none => c.schedule .noop
    | some _ =>
      let c' := (c.cancelTimer token).modify token fun g => { g with phase := .transportStopped }
      c'.schedule (.terminalize token .deliveryUnknown)

/-! ## Interruption, errors and teardown -/

/-- `record_interruption`, inside a running loop. -/
def recordInterruption (token : Token) (pause : Bool) : SpeechLifecycleCoordinator :=
  match c.live token with
  | none => c
  | some g =>
    let disposition := if pause then DeliveryDisposition.paused else .interrupted
    let c' := (c.cancelTimer token).modify token fun g =>
      { g with disposition := some disposition, tombstoned := true }
    match g.contextId with
    | none => c'.schedule (.finalizeUncontextedInterruption token disposition)
    | some _ => c'.arm token (c.clock + cfg.speechTransportGraceSeconds) .interruption

/-- `release_generation`. -/
def releaseGeneration (token : Token) (notify : Bool) (disposition : DeliveryDisposition) :
    SpeechLifecycleCoordinator :=
  match c.terminalizeState cfg token disposition with
  | (c', none) => c'
  | (c', some g) =>
    if notify then
      c'.schedule (.callOnTerminal token g.identity (g.disposition.getD disposition))
    else c'

/-- A caller awaits a coroutine of the coordinator: it gets an id and runs at once. -/
def callNow (body : SpeechLifecycleCoordinator → Coroutine → SpeechLifecycleCoordinator × List Effect) :
    SpeechLifecycleCoordinator × List Effect :=
  body c.drawId ⟨c.nextTransition, false⟩

/-- `provider_error`. -/
def providerError (token : Token) : SpeechLifecycleCoordinator × List Effect :=
  c.callNow fun c me => c.beginDeliveryUnknown me token

/-- `acknowledge_tts_lane_flush`. -/
def acknowledgeTtsLaneFlush (token : Token) : SpeechLifecycleCoordinator × List Effect :=
  match c.generations token with
  | none => (c, [])
  | some g =>
    if !(g.cleanupPending || g.tombstoned) || g.audioSubmitted || g.teardownPending then (c, [])
    else c.callNow fun c me =>
      c.terminalize cfg me token (g.disposition.getD .deliveryUnknown)

/-- `teardown_complete`. -/
def teardownComplete (token : Token) : SpeechLifecycleCoordinator × List Effect :=
  match c.generations token with
  | none => (c, [])
  | some g => c.callNow fun c me =>
      c.terminalize cfg me token (g.disposition.getD .deliveryUnknown) true

/-- `drop_stale_frame`. -/
def dropStaleFrame (contextId : UtteranceId) : Bool :=
  contextId ∈ c.contextTombstones ||
    (c.contextTokens contextId).any fun token =>
      (c.generations token).all fun g => g.terminalized || g.tombstoned

/-- `connection_closed`. -/
def closeConnection : SpeechLifecycleCoordinator :=
  { c with
    toSlotStore := c.close
    timerHandles := fun _ => none
    transitions := c.transitions.filter fun t => !t.scheduled }

/-! ## The step function -/

/-- What can happen to the coordinator. -/
inductive Event
  | tryAdmit (identity : GenerationIdentity)
  | markHandedToTts (token : Token)
  | bindContext (token : Token) (contextId : UtteranceId)
  | onTtsStarted (contextId : UtteranceId)
  | onTtsAudio (contextId : UtteranceId) (bytes : ℕ) (sampleRate numChannels : ℤ)
  | onTtsStopped (contextId : UtteranceId)
  | onTransportBotStarted
  | onTransportBotStopped
  | recordInterruption (token : Token) (pause : Bool)
  | releaseGeneration (token : Token) (notify : Bool) (disposition : DeliveryDisposition)
  | providerError (token : Token)
  | acknowledgeTtsLaneFlush (token : Token)
  | teardownComplete (token : Token)
  | connectionClosed
  /-- The clock reads `now`, or later. -/
  | tick (now : ℚ)
  /-- The due timer of `token` fires. -/
  | timerFires (token : Token)
  /-- The loop takes the first step of a scheduled coroutine. -/
  | run (id : ℕ)
  /-- The callback that coroutine `id` awaits returns (`ok`) or raises. -/
  | callbackDone (id : ℕ) (ok : Bool)
  deriving DecidableEq, Repr

/-- A due timer schedules its coroutine; its handle stays, fired. -/
def fireTimer (token : Token) : SpeechLifecycleCoordinator :=
  match c.timerHandles token with
  | none => c
  | some h =>
    if h.fired || c.clock < h.due then c
    else
      { c with timerHandles := Function.update c.timerHandles token (some { h with fired := true }) }
        |>.schedule (.onTimeout h.deadline token)

/-- The body of a scheduled coroutine up to its first await. -/
def firstStep (me : Coroutine) : TransitionPoint → SpeechLifecycleCoordinator × List Effect
  | .onTimeout .start token => c.beginDeliveryUnknown me token
  | .onTimeout .drain token => c.beginDeliveryUnknown me token
  | .onTimeout .interruption token =>
    match c.live token with
    | none => (c, [])
    | some _ => c.beginCleanup me token
  | .onTimeout .flushAck token => c.requestTeardown me token
  | .finalizeUncontextedInterruption token disposition =>
    c.finalizeUncontextedInterruption me token disposition
  | .terminalize token disposition => c.terminalize cfg me token disposition
  | .callOnTerminal token identity disposition =>
    (c.suspend me (.reportingTerminal token false), [.onTerminal me.id token identity disposition])
  | _ => (c, [])

/-- The body of a coroutine past the callback it awaited. -/
def afterCallback (me : Coroutine) (ok : Bool) :
    TransitionPoint → SpeechLifecycleCoordinator × List Effect
  | .dispatchingCleanup token => c.endCleanup cfg me token ok
  | .dispatchingFinalCleanup token disposition =>
    if ok then c.terminalize cfg me token disposition else c.requestTeardown me token
  | .reportingTerminal _ teardown =>
    (if ok && teardown then { c with teardownGeneration := c.teardownGeneration + 1 } else c, [])
  | _ => (c, [])

/-- One step of the coordinator, with the callbacks it invokes. -/
def step : Event → SpeechLifecycleCoordinator × List Effect
  | .tryAdmit identity => ((c.tryAdmit identity).1, [])
  | .markHandedToTts token => (c.markHandedToTts cfg token, [])
  | .bindContext token contextId => ((c.bindContext token contextId).1, [])
  | .onTtsStarted contextId => ((c.onTtsStarted contextId).1, [])
  | .onTtsAudio contextId bytes sampleRate numChannels =>
    ((c.onTtsAudio contextId bytes sampleRate numChannels).1, [])
  | .onTtsStopped contextId => ((c.onTtsStopped cfg contextId).1, [])
  | .onTransportBotStarted => (c.onTransportBotStarted, [])
  | .onTransportBotStopped => (c.onTransportBotStopped, [])
  | .recordInterruption token pause => (c.recordInterruption cfg token pause, [])
  | .releaseGeneration token notify disposition =>
    (c.releaseGeneration cfg token notify disposition, [])
  | .providerError token => c.providerError token
  | .acknowledgeTtsLaneFlush token => c.acknowledgeTtsLaneFlush cfg token
  | .teardownComplete token => c.teardownComplete cfg token
  | .connectionClosed => (c.closeConnection, [])
  | .tick now => ({ c with clock := max c.clock now }, [])
  | .timerFires token => (c.fireTimer token, [])
  | .run id =>
    match c.transitions.find? (·.id = id) with
    | none => (c, [])
    | some t => if t.point.begun then (c, []) else (c.take t).firstStep cfg t.toCoroutine t.point
  | .callbackDone id ok =>
    match c.transitions.find? (·.id = id) with
    | none => (c, [])
    | some t =>
      if t.point.begun then (c.take t).afterCallback cfg t.toCoroutine ok t.point else (c, [])

/-- The terminal callback that coroutine `id` awaits returns (`ok`) or raises. -/
def terminalReported (id : ℕ) (ok : Bool) : SpeechLifecycleCoordinator :=
  match c.transitions.find? fun t => t.id = id && t.point.reporting with
  | none => c
  | some t => ((c.take t).afterCallback cfg t.toCoroutine ok t.point).1

/-- The coordinator after a run from a fresh one. -/
def after (es : List Event) : SpeechLifecycleCoordinator :=
  Machinery.run (fun c e => (step cfg c e).1) {} es

/-- The callbacks a run from a fresh coordinator invokes. -/
def effects (es : List Event) : List Effect := outputs (step cfg) {} es

end SpeechLifecycleCoordinator

end SubagentsLab

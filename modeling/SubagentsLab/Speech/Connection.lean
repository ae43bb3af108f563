import SubagentsLab.Speech.Scheduler

/-!
# Speech/Connection — scheduler and lifecycle of one connection

A connection wires the lifecycle's callbacks to its scheduler.  `on_terminal` runs up to its first
await within the step that invokes it: an unknown delivery is reported to the scheduler, and the
freed slot is offered to the next queued item.  A dispatched teardown fences the connection at once.
The cleanup and teardown callbacks themselves belong to the outside and return or raise at a step of
their own.
-/

namespace SubagentsLab

open Machinery

/-- What reaches the lifecycle other than through the scheduler: frames, errors, the clock, and the
loop that runs its coroutines. -/
inductive Signal
  | bindContext (token : Token) (contextId : UtteranceId)
  | onTtsStarted (contextId : UtteranceId)
  | onTtsAudio (contextId : UtteranceId) (bytes : ℕ) (sampleRate numChannels : ℤ)
  | onTtsStopped (contextId : UtteranceId)
  | onTransportBotStarted
  | onTransportBotStopped
  | providerError (token : Token)
  | acknowledgeTtsLaneFlush (token : Token)
  | teardownComplete (token : Token)
  | connectionClosed
  | tick (now : ℚ)
  | timerFires (token : Token)
  | run (id : ℕ)
  /-- The cleanup or teardown callback that coroutine `id` awaits returns (`ok`) or raises. -/
  | dispatchDone (id : ℕ) (ok : Bool)
  deriving DecidableEq, Repr

/-- The lifecycle's event. -/
def Signal.event : Signal → SpeechLifecycleCoordinator.Event
  | bindContext token contextId => .bindContext token contextId
  | onTtsStarted contextId => .onTtsStarted contextId
  | onTtsAudio contextId bytes sampleRate numChannels =>
    .onTtsAudio contextId bytes sampleRate numChannels
  | onTtsStopped contextId => .onTtsStopped contextId
  | onTransportBotStarted => .onTransportBotStarted
  | onTransportBotStopped => .onTransportBotStopped
  | providerError token => .providerError token
  | acknowledgeTtsLaneFlush token => .acknowledgeTtsLaneFlush token
  | teardownComplete token => .teardownComplete token
  | connectionClosed => .connectionClosed
  | tick now => .tick now
  | timerFires token => .timerFires token
  | run id => .run id
  | dispatchDone id ok => .callbackDone id ok

/-- `ConnectionPipeline`: `current` says that it is the host's connection. -/
structure ConnectionPipeline where
  scheduler : SpeechScheduler := {}
  active : Bool := true
  current : Bool := true

namespace ConnectionPipeline

variable (cfg : LifecycleConfig) (p : ConnectionPipeline)

/-- `_connect_transport_acceptable`. -/
def acceptable : Bool := p.current && p.active

/-- The same connection with its scheduler moved on. -/
def upon (r : SpeechScheduler × List Notice) : ConnectionPipeline × List Notice :=
  ({ p with scheduler := r.1 }, r.2)

/-- The terminal callback tells the scheduler of an unknown delivery. -/
def report (identity : GenerationIdentity) (disposition : DeliveryDisposition) : SpeechScheduler :=
  if disposition = .deliveryUnknown then p.scheduler.deliveryUnknown cfg identity.utteranceId
  else p.scheduler

/-- `_connect_on_lifecycle_terminal`, for the coroutine `id`. -/
def onLifecycleTerminal (id : ℕ) (identity : GenerationIdentity) (disposition : DeliveryDisposition) :
    ConnectionPipeline × List Notice :=
  if !p.current then p.upon (p.scheduler.finish cfg (.terminal id) true, [])
  else if p.active && (p.report cfg identity disposition).active.isNone then
    p.upon ((p.report cfg identity disposition).startNext cfg p.acceptable none (.terminal id))
  else p.upon ((p.report cfg identity disposition).finish cfg (.terminal id) true, [])

/-- The callbacks a step of the lifecycle invokes, up to their first await. -/
def react (p : ConnectionPipeline) : List Effect → ConnectionPipeline × List Notice
  | [] => (p, [])
  | .onTerminal id _ identity disposition :: effects =>
    let r := p.onLifecycleTerminal cfg id identity disposition
    let rest := react r.1 effects
    (rest.1, r.2 ++ rest.2)
  | .dispatchTeardown _ _ _ :: effects => react { p with active := false } effects
  | .dispatchCleanup _ _ _ :: effects => react p effects

/-- The coroutine awaits the terminal callback. -/
def reporting (id : ℕ) : Bool :=
  (p.scheduler.lifecycle.transitions.find? (·.id = id)).any (·.point.reporting)

/-- A signal reaches the lifecycle. -/
def receive (signal : Signal) : ConnectionPipeline × List Notice :=
  let r := p.scheduler.lifecycle.step cfg signal.event
  { p with scheduler := { p.scheduler with lifecycle := r.1 } }.react cfg r.2

/-- `deactivate`. -/
def deactivate (epoch : Option ℤ) (reconnect : Bool) : ConnectionPipeline × List Notice :=
  { p with active := false }.upon (p.scheduler.interrupt cfg epoch reconnect true)

/-- The host gives this connection up, for one that it promotes (`epoch`) or for none, and retires
it. -/
def replace (epoch : Option ℤ) (reconnect : Bool) : ConnectionPipeline × List Notice :=
  let state := { p.scheduler.state with activeEpoch := epoch }
  { p with current := false, scheduler := { p.scheduler with state } }.deactivate cfg
    p.scheduler.state.activeEpoch reconnect

/-- What can happen to a connection. -/
inductive Event
  | enqueue (request : SpeechRequest)
  | startNext (workItemId : Option String)
  /-- The admission task `id` of an acknowledgement calls `start_next`. -/
  | startAck (id : ℕ) (workItemId : String)
  | speakReturns (id : ℕ)
  | speakRaises (id : ℕ)
  | submissionFails (id : ℕ)
  | runAdvance (id : ℕ)
  | providerStarted (contextId : UtteranceId)
  | providerSynthesisEnded (contextId : UtteranceId)
  | providerDeliveryCompleted (contextId : UtteranceId)
  | providerDeliveryUnknown (contextId : UtteranceId)
  | synthesisEnded (utteranceId : UtteranceId)
  | deliveryCompleted (utteranceId : UtteranceId)
  | deliveryUnknown (utteranceId : UtteranceId)
  | interrupt (epoch : Option ℤ) (reconnect fullStop : Bool)
  | pause (workItemId : String)
  | resume (target : SpeechScheduler.Target)
  | cancel (workItemId : Option String)
  | discardQueuedNotice (workItemId : String)
  | discardQueuedAck (ackId : String)
  | deactivate (epoch : Option ℤ) (reconnect : Bool)
  | replaced (epoch : Option ℤ) (reconnect : Bool)
  | signal (signal : Signal)
  deriving DecidableEq

/-- One step of the connection, with what its scheduler tells the outside. -/
def step : Event → ConnectionPipeline × List Notice
  | .enqueue r =>
    p.upon ((p.scheduler.enqueue r).1, ((p.scheduler.enqueue r).2.map Notice.enqueued).toList)
  | .startNext key => p.upon (p.scheduler.startNext cfg p.acceptable key .owner)
  | .startAck id key => p.upon (p.scheduler.startNext cfg p.acceptable (some key) (.admission id))
  | .speakReturns id => p.upon (p.scheduler.speakReturns cfg id)
  | .speakRaises id => p.upon (p.scheduler.speakRaises id, [])
  | .submissionFails id => p.upon (p.scheduler.submissionFails cfg id)
  | .runAdvance id => p.upon (p.scheduler.runAdvance cfg p.acceptable id)
  | .providerStarted ctx => p.upon (p.scheduler.providerStarted ctx, [])
  | .providerSynthesisEnded ctx => p.upon (p.scheduler.providerSynthesisEnded ctx, [])
  | .providerDeliveryCompleted ctx => p.upon (p.scheduler.providerDeliveryCompleted cfg ctx, [])
  | .providerDeliveryUnknown ctx => p.upon (p.scheduler.providerDeliveryUnknown cfg ctx, [])
  | .synthesisEnded u => p.upon (p.scheduler.synthesisEnded u, [])
  | .deliveryCompleted u => p.upon (p.scheduler.deliveryCompleted cfg u, [])
  | .deliveryUnknown u => p.upon (p.scheduler.deliveryUnknown cfg u, [])
  | .interrupt epoch reconnect fullStop =>
    p.upon (p.scheduler.interrupt cfg epoch reconnect fullStop)
  | .pause key => p.upon (p.scheduler.pause cfg key)
  | .resume target => p.upon (p.scheduler.resume target)
  | .cancel key => p.upon (p.scheduler.cancel cfg key)
  | .discardQueuedNotice key => p.upon (p.scheduler.discardQueuedNotice key, [])
  | .discardQueuedAck ackId => p.upon (p.scheduler.discardQueuedAck ackId, [])
  | .deactivate epoch reconnect => p.deactivate cfg epoch reconnect
  | .replaced epoch reconnect => p.replace cfg epoch reconnect
  | .signal (.dispatchDone id ok) =>
    if p.reporting id then (p, []) else p.receive cfg (.dispatchDone id ok)
  | .signal sig => p.receive cfg sig

/-- A connection as it is opened, in the active epoch of its session. -/
def opened (epoch : Option ℤ) : ConnectionPipeline :=
  { scheduler := { state := { activeEpoch := epoch } } }

/-- The connection after a run. -/
def after (epoch : Option ℤ) (es : List Event) : ConnectionPipeline :=
  run (fun p e => (step cfg p e).1) (opened epoch) es

/-- What a run tells the outside. -/
def notices (epoch : Option ℤ) (es : List Event) : List Notice := outputs (step cfg) (opened epoch) es

end ConnectionPipeline

end SubagentsLab

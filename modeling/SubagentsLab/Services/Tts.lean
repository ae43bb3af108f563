import SubagentsLab.Machinery.Update
import SubagentsLab.Services.Clients

/-!
# Services/Tts — speech from the local server

`LocalTTS`: each `run_tts` is a generator of its own that takes the client of the service, sends it a text and yields
what comes back.  Any number of them run side by side, and whatever one awaits — the client, a callback, its consumer —
the others, `on_audio_context_interrupted` and `cleanup` may come in between.

* `synthesis_protocol`: what a synthesis tells its callback and its consumer, and in which order.
* `clients_fenced`: an aborted client is never taken again, and it is the only kind that is not in use.
-/

namespace SubagentsLab

open Machinery

namespace Tts

/-! ## What is said -/

/-- An event of the speech server; `audio` is what its audio decodes to, if it does. -/
structure ProviderEvent where
  type : String
  audio : Option (List UInt8) := none
  message : Option String := none
  error : Option String := none
  deriving DecidableEq

/-- What a callback is told. -/
inductive Report
  | synthesisStarted
  | synthesisEnded
  | deliveryUnknown
  deriving DecidableEq, Repr

/-- A frame that is yielded. -/
inductive TtsFrame
  | started
  | audio (audio : List UInt8) (sampleRate : ℤ)
  | stopped
  deriving DecidableEq

/-- For whom a synthesis speaks: its context, and the callback it found. -/
structure Party where
  contextId : String
  onEvent : Option ℕ
  deriving DecidableEq, Repr

/-- What a service does.  `report` is a call of `on_event`, where there is one. -/
inductive Output
  | created (client : ℕ)
  | acquired (id client : ℕ)
  | closed (client : ℕ)
  | began (id : ℕ) (party : Party)
  | append (id : ℕ) (text : String)
  | commit (id : ℕ)
  | report (id : ℕ) (party : Party) (report : Report)
  | frame (id : ℕ) (contextId : String) (frame : TtsFrame)
  | failed (id : ℕ) (message : String)
  | refused (id : ℕ) (message : String)
  deriving DecidableEq

/-! ## The service -/

/-- Where a `run_tts` is: what it awaits, or which frame it has yielded. -/
inductive Phase
  | connecting
  | appending
  | committing
  | announcing
  | yieldedStarted
  | receiving
  | yieldedAudio
  | ending
  | yieldedStopped
  /-- `_abort_client`, in the `finally` clause. -/
  | aborting
  /-- `_notify_delivery_unknown`. -/
  | notifying
  /-- `connect()`, called by the host; it is over. -/
  | connected
  /-- It raised before it took a client. -/
  | refused
  /-- It is over, and its audio is complete. -/
  | finished
  /-- The callback raised at the end of its audio. -/
  | cutShort
  /-- It is over, and its delivery unknown. -/
  | told
  /-- Closing its client raised. -/
  | untold
  deriving DecidableEq, Repr

/-- A `run_tts`, or a call of `connect()` by the host, which has no context. -/
structure Synthesis where
  contextId : Option String
  text : String := ""
  client : Option ℕ := none
  onEvent : Option ℕ := none
  phase : Phase
  audioBytes : ℕ := 0
  eventCount : ℕ := 0
  deriving DecidableEq

/-- For whom it speaks. -/
def Synthesis.party (run : Synthesis) : Party := ⟨run.contextId.getD "", run.onEvent⟩

/-- The limits of a synthesis. -/
structure TtsConfig where
  maxEventsPerUtterance : ℕ := 4096
  maxAudioBytesPerUtterance : ℕ := 32 * 1024 * 1024
  deriving DecidableEq

/-- `LocalTTS`, with the calls there have been. -/
structure LocalTTS where
  slot : ClientSlot := .empty
  contextClients : Dict String ℕ := ∅
  started : Bool := false
  onEvent : Option ℕ := none
  sampleRate : ℤ := 24000
  runs : List Synthesis := []
  deriving DecidableEq

namespace LocalTTS

variable (cfg : TtsConfig) (s : LocalTTS)

/-- A call has moved on. -/
def put (id : ℕ) (run : Synthesis) : LocalTTS := { s with runs := s.runs.set id run }

/-- `_abort_client`, up to the await of `close()`. -/
def abortClient (client : Option ℕ) : LocalTTS × List Output :=
  match client.or s.slot.client with
  | none => (s, [])
  | some c =>
    ({ s with
        slot := s.slot.drop c
        contextClients := s.contextClients.filter fun _ client => client ≠ c }, [.closed c])

/-- An exception in a synthesis that has a client: the `finally` clause, up to its first await. -/
def unwind (id : ℕ) (run : Synthesis) (message : String) : LocalTTS × List Output :=
  let contextId := run.contextId.getD ""
  let contextClients :=
    if s.contextClients.get? contextId = run.client then s.contextClients.pop contextId else s.contextClients
  let r := { s with contextClients }.abortClient run.client
  (r.1.put id { run with phase := .aborting }, .failed id message :: r.2)

/-- The `finally` clause of a synthesis whose audio is complete. -/
def complete (id : ℕ) (run : Synthesis) (phase : Phase) : LocalTTS × List Output :=
  let contextId := run.contextId.getD ""
  let contextClients :=
    if s.contextClients.get? contextId = run.client then s.contextClients.pop contextId else s.contextClients
  ({ s with contextClients }.put id { run with phase }, [])

/-- `run_tts` after `connect()`: it takes the client there is by now.  Without one, the `finally` clause finds none to
abort. -/
def takeClient (id : ℕ) (run : Synthesis) : LocalTTS × List Output :=
  match run.contextId with
  | none => (s.put id { run with phase := .connected }, [])
  | some contextId =>
    let run := { run with client := s.slot.client, onEvent := s.onEvent }
    match s.slot.client with
    | some c =>
      ({ s with contextClients := s.contextClients.set contextId c }.put id { run with phase := .appending },
        [.began id run.party, .acquired id c, .append id run.text])
    | none =>
      ({ s with contextClients := s.contextClients.pop contextId }.put id { run with phase := .notifying },
        [.began id run.party, .failed id "'NoneType' object has no attribute 'append'",
          .report id run.party .deliveryUnknown])

/-- `connect()`, up to the await of the client's own. -/
def connect (contextId : Option String) (text : String) : LocalTTS × List Output :=
  let id := s.runs.length
  let run : Synthesis := { contextId, text, phase := .connecting }
  let s := { s with runs := s.runs ++ [run] }
  match s.slot.client with
  | some _ => s.takeClient id run
  | none =>
    ({ s with slot := s.slot.create }.put id { run with client := some s.slot.nextClient }, [.created s.slot.nextClient])

/-- `run_tts` begins. -/
def runTts (contextId text : String) : LocalTTS × List Output :=
  if s.started then s.connect (some contextId) text
  else
    ({ s with runs := s.runs ++ [{ contextId, text, phase := .refused }] },
      [.refused s.runs.length "TTS service is not started"])

/-- What a call awaits returns, or its consumer asks for more. -/
def goesOn (id : ℕ) (run : Synthesis) : LocalTTS × List Output :=
  match run.phase with
  | .appending => (s.put id { run with phase := .committing }, [.commit id])
  | .committing => (s.put id { run with phase := .announcing }, [.report id run.party .synthesisStarted])
  | .announcing => (s.put id { run with phase := .yieldedStarted }, [.frame id run.party.contextId .started])
  | .yieldedStarted | .yieldedAudio => (s.put id { run with phase := .receiving }, [])
  | .ending => (s.put id { run with phase := .yieldedStopped }, [.frame id run.party.contextId .stopped])
  | .yieldedStopped => s.complete id run .finished
  | .aborting => (s.put id { run with phase := .notifying }, [.report id run.party .deliveryUnknown])
  | .notifying => (s.put id { run with phase := .told }, [])
  | _ => (s, [])

/-- The connection of the client is made; `rate` is what its greeting says of the audio. -/
def connects (id : ℕ) (run : Synthesis) (rate : Option ℤ) : LocalTTS × List Output :=
  match run.phase with
  | .connecting => { s with sampleRate := (rate.filter (0 < ·)).getD s.sampleRate }.takeClient id run
  | _ => (s, [])

/-- What a call awaits raises, it is cancelled there, or its consumer closes it. -/
def raises (id : ℕ) (run : Synthesis) (message : String) : LocalTTS × List Output :=
  match run.phase with
  | .connecting =>
    let r := s.abortClient run.client
    (r.1.put id { run with phase := .refused }, .refused id message :: r.2)
  | .appending | .committing | .announcing | .yieldedStarted | .receiving | .yieldedAudio => s.unwind id run message
  | .ending => s.complete id run .cutShort
  | .yieldedStopped => s.complete id run .finished
  | .aborting => (s.put id { run with phase := .untold }, [])
  | .notifying => (s.put id { run with phase := .told }, [])
  | _ => (s, [])

/-- An event of the server reaches the synthesis that listens. -/
def hears (id : ℕ) (run : Synthesis) (event : ProviderEvent) : LocalTTS × List Output :=
  match run.phase with
  | .receiving =>
    let run := { run with eventCount := run.eventCount + 1 }
    if cfg.maxEventsPerUtterance < run.eventCount then s.unwind id run "local TTS event limit exceeded"
    else if event.type.endsWith "audio.delta" then
      match event.audio with
      | none => s.unwind id run "local TTS returned invalid audio"
      | some audio =>
        let run := { run with audioBytes := run.audioBytes + audio.length }
        if cfg.maxAudioBytesPerUtterance < run.audioBytes then s.unwind id run "local TTS audio limit exceeded"
        else (s.put id { run with phase := .yieldedAudio },
          [.frame id run.party.contextId (.audio audio s.sampleRate)])
    else if event.type.endsWith "audio.done" ∨ event.type.endsWith "cancelled" then
      (s.put id { run with phase := .ending }, [.report id run.party .synthesisEnded])
    else if event.type ∈ ["error", "response.failed"] then
      let message := ((event.message.filter (· ≠ "")).or (event.error.filter (· ≠ ""))).getD "provider error"
      s.unwind id run s!"local TTS error: {String.ofList (message.toList.take 256)}"
    else (s.put id run, [])
  | _ => (s, [])

/-- What can happen to a service. -/
inductive Event
  | start
  | stop
  | setOnEvent (onEvent : Option ℕ)
  | connect
  | runTts (contextId text : String)
  | connects (id : ℕ) (rate : Option ℤ)
  | goesOn (id : ℕ)
  | raises (id : ℕ) (message : String)
  | hears (id : ℕ) (event : ProviderEvent)
  /-- The events of its client are over. -/
  | streamEnds (id : ℕ)
  | onAudioContextInterrupted (contextId : String)
  | cleanup
  deriving DecidableEq

/-- A call that is under way moves on. -/
def onRun (id : ℕ) (f : Synthesis → LocalTTS × List Output) : LocalTTS × List Output :=
  match s.runs[id]? with
  | none => (s, [])
  | some run => f run

/-- One step. -/
def step : Event → LocalTTS × List Output
  | .start => ({ s with started := true }, [])
  | .stop => ({ s with started := false }, [])
  | .setOnEvent onEvent => ({ s with onEvent }, [])
  | .connect => s.connect none ""
  | .runTts contextId text => s.runTts contextId text
  | .connects id rate => s.onRun id fun run => s.connects id run rate
  | .goesOn id => s.onRun id fun run => s.goesOn id run
  | .raises id message => s.onRun id fun run => s.raises id run message
  | .hears id event => s.onRun id fun run => s.hears cfg id run event
  | .streamEnds id => s.onRun id fun run =>
    if run.phase = .receiving then s.unwind id run "local TTS stream ended before audio completion" else (s, [])
  | .onAudioContextInterrupted contextId =>
    match s.contextClients.get? contextId with
    | none => (s, [])
    | some c => { s with contextClients := s.contextClients.pop contextId }.abortClient (some c)
  | .cleanup => s.abortClient none

end LocalTTS

end Tts

end SubagentsLab

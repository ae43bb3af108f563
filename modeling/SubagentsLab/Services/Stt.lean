import SubagentsLab.Services.Clients

/-!
# Services/Stt — transcription by the local server

`LocalSTT`: each `run_stt` is a generator of its own that sends its audio to the client of the service and yields what
it is told.  It has its client before its first await and stays with it, also when another call closes that client in
the meantime.  What a transcript is handed to runs later, in a task of its own.

* `transcription_protocol`: what a call yields and hands over, and in which order.
* `failed_clients_closed`: a client that has failed a call is closed and never taken again.
-/

namespace SubagentsLab

open Machinery

namespace Stt

/-! ## What is said -/

/-- An event of the server; `message` is what `event.get('message', event)` is written as. -/
structure ProviderEvent where
  type : String := ""
  transcript : String := ""
  message : String := ""
  deriving DecidableEq

/-- A frame that is yielded. -/
inductive SttFrame
  | transcription (text : String)
  | error (error : String)
  deriving DecidableEq, Repr

/-- What a service does. -/
inductive Output
  | created (client : ℕ)
  | acquired (id client : ℕ)
  | closed (client : ℕ)
  | began (id : ℕ) (onFinal : Option ℕ)
  | sendAudio (id : ℕ) (audio : List UInt8)
  | commit (id : ℕ)
  | frame (id : ℕ) (frame : SttFrame)
  /-- A task is created that calls `handle_final_transcript`. -/
  | handed (id onFinal : ℕ) (text : String)
  /-- It has called the callback. -/
  | called (id onFinal : ℕ) (text : String)
  /-- It has found the service stopped. -/
  | dropped (id : ℕ) (text : String)
  | returned (id : ℕ)
  | failed (id : ℕ) (message : String)
  deriving DecidableEq

/-! ## The service -/

/-- Where a `run_stt` is: what it awaits, or which frame it has yielded. -/
inductive Phase
  | connecting
  | sending
  | committing
  | listening
  | yieldedTranscription (text : String)
  /-- `_abort_client`, before an error is yielded. -/
  | aborting (error : String)
  | yieldedError
  /-- `_abort_client`, because of an exception. -/
  | unwinding
  /-- It is over; `final` is the text of its task, if that has not run yet. -/
  | finished (final : Option String)
  /-- It is over, after an error. -/
  | gaveUp
  /-- It has raised. -/
  | failed
  deriving DecidableEq, Repr

/-- A call of `run_stt`. -/
structure Transcription where
  audio : List UInt8
  client : Option ℕ := none
  onFinal : Option ℕ := none
  phase : Phase
  deriving DecidableEq

/-- `LocalSTT`, with the calls there have been. -/
structure LocalSTT where
  slot : ClientSlot := .empty
  started : Bool := false
  onFinal : Option ℕ := none
  runs : List Transcription := []
  deriving DecidableEq

namespace LocalSTT

variable (s : LocalSTT)

/-- A call has moved on. -/
def put (id : ℕ) (run : Transcription) : LocalSTT := { s with runs := s.runs.set id run }

/-- `_abort_client`, up to the await of `close()`. -/
def abortClient (client : Option ℕ) : LocalSTT × List Output :=
  match client.or s.slot.client with
  | none => (s, [])
  | some c => ({ s with slot := s.slot.drop c }, [.closed c])

/-- A call aborts its client. -/
def leave (id : ℕ) (run : Transcription) (phase : Phase) : LocalSTT × List Output :=
  let r := s.abortClient run.client
  (r.1.put id { run with phase }, r.2)

/-- An exception in a call: the `except` clause, up to its await. -/
def unwind (id : ℕ) (run : Transcription) (message : String) : LocalSTT × List Output :=
  let r := s.leave id run .unwinding
  (r.1, .failed id message :: r.2)

/-- `run_stt` begins.  `refusal` is what the factory raises, if it does when it is asked for a client. -/
def runStt (audio : List UInt8) (refusal : Option String) : LocalSTT × List Output :=
  let id := s.runs.length
  if s.started then
    match s.slot.client, refusal with
    | some c, _ =>
      ({ s with runs := s.runs ++ [{ audio, client := some c, onFinal := s.onFinal, phase := .sending }] },
        [.began id s.onFinal, .acquired id c, .sendAudio id audio])
    | none, some message =>
      ({ s with runs := s.runs ++ [{ audio, onFinal := s.onFinal, phase := .failed }] },
        [.began id s.onFinal, .failed id message])
    | none, none =>
      ({ s with
          slot := s.slot.create
          runs := s.runs ++
            [{ audio, client := some s.slot.nextClient, onFinal := s.onFinal, phase := .connecting }] },
        [.began id s.onFinal, .created s.slot.nextClient])
  else
    ({ s with runs := s.runs ++ [{ audio, phase := .failed }] }, [.failed id "STT service is not started"])

/-- What a call awaits returns, or its consumer asks for more. -/
def goesOn (id : ℕ) (run : Transcription) : LocalSTT × List Output :=
  match run.phase with
  | .connecting => (s.put id { run with phase := .sending }, [.sendAudio id run.audio])
  | .sending => (s.put id { run with phase := .committing }, [.commit id])
  | .committing => (s.put id { run with phase := .listening }, [])
  | .yieldedTranscription text =>
    match run.onFinal with
    | some h => (s.put id { run with phase := .finished (some text) }, [.handed id h text, .returned id])
    | none => (s.put id { run with phase := .finished none }, [.returned id])
  | .aborting error => (s.put id { run with phase := .yieldedError }, [.frame id (.error error)])
  | .yieldedError => (s.put id { run with phase := .gaveUp }, [.returned id])
  | .unwinding => (s.put id { run with phase := .failed }, [])
  | _ => (s, [])

/-- What a call awaits raises, it is cancelled there, or its consumer closes it. -/
def raises (id : ℕ) (run : Transcription) (message : String) : LocalSTT × List Output :=
  match run.phase with
  | .connecting | .sending | .committing | .listening | .yieldedTranscription _ | .aborting _ | .yieldedError =>
    s.unwind id run message
  | .unwinding => (s.put id { run with phase := .failed }, [])
  | _ => (s, [])

/-- An event of the server reaches the call that listens. -/
def hears (id : ℕ) (run : Transcription) (event : ProviderEvent) : LocalSTT × List Output :=
  match run.phase with
  | .listening =>
    if event.type.endsWith "transcription.completed" then
      if event.transcript ≠ "" then
        (s.put id { run with phase := .yieldedTranscription event.transcript },
          [.frame id (.transcription event.transcript)])
      else (s.put id { run with phase := .finished none }, [.returned id])
    else if event.type = "error" then s.leave id run (.aborting s!"local STT error: {event.message}")
    else (s, [])
  | _ => (s, [])

/-- The server has nothing more to say. -/
def streamEnds (id : ℕ) (run : Transcription) : LocalSTT × List Output :=
  match run.phase with
  | .listening => s.leave id run (.aborting "local STT stream ended before transcription completion")
  | _ => (s, [])

/-- The task of a transcript runs: `handle_final_transcript`. -/
def runFinal (id : ℕ) (run : Transcription) : LocalSTT × List Output :=
  match run.phase, run.onFinal with
  | .finished (some text), some h =>
    (s.put id { run with phase := .finished none }, [if s.started then .called id h text else .dropped id text])
  | _, _ => (s, [])

/-- What can happen to a service. -/
inductive Event
  | start
  | stop
  | setOnFinal (onFinal : Option ℕ)
  | runStt (audio : List UInt8) (refusal : Option String)
  | goesOn (id : ℕ)
  | raises (id : ℕ) (message : String)
  | hears (id : ℕ) (event : ProviderEvent)
  | streamEnds (id : ℕ)
  | runFinal (id : ℕ)
  | cleanup
  deriving DecidableEq

/-- A call, if there is one. -/
def onRun (id : ℕ) (f : Transcription → LocalSTT × List Output) : LocalSTT × List Output :=
  match s.runs[id]? with
  | some run => f run
  | none => (s, [])

/-- One step of the service. -/
def step : Event → LocalSTT × List Output
  | .start => ({ s with started := true }, [])
  | .stop => ({ s with started := false }, [])
  | .setOnFinal onFinal => ({ s with onFinal }, [])
  | .runStt audio refusal => s.runStt audio refusal
  | .goesOn id => s.onRun id (s.goesOn id)
  | .raises id message => s.onRun id fun run => s.raises id run message
  | .hears id event => s.onRun id fun run => s.hears id run event
  | .streamEnds id => s.onRun id (s.streamEnds id)
  | .runFinal id => s.onRun id (s.runFinal id)
  | .cleanup => s.abortClient none

end LocalSTT

end Stt

end SubagentsLab

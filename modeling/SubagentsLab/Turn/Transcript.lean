import Mathlib.Data.Rat.Lemmas
import SubagentsLab.Machinery.CodePoints
import SubagentsLab.Machinery.Dict
import SubagentsLab.Machinery.Joined
import SubagentsLab.Machinery.Runs
import SubagentsLab.Machinery.Semaphore
import SubagentsLab.Speech.Processor

/-!
# Turn/Transcript — debouncing the stops of a turn

`FinalTurnTranscriptProcessor` buffers the fragments of a turn.  A stop frame arms a completion task, which
sleeps for the grace period; a start frame, or another stop, cancels it.  The task whose sleep ends
*commits*: it takes the buffer, waits for a dispatch slot, leaves a dispatch task behind and passes the
stop frame on.

Every await is a point at which a task can be found suspended, so the completion tasks are kept with their
phases, in `CompletionState`; a cancelled one is there until it runs again.  `process_frame` is called with
one system frame at a time: the next start or stop is delivered when the handler of the one before has
returned, whereas transcriptions are data and come at any time.

`CancelFrame`, `EndFrame` and `cleanup` throw the turn away and end the tasks; they are outside, so
`_closing` stays false and what it guards is left out.
-/

namespace SubagentsLab

open Machinery

/-- The arguments of `FinalTurnTranscriptProcessor`. -/
structure TranscriptConfig where
  completeGraceSeconds : ℚ := 3 / 2
  maxPendingDispatches : ℕ := 8
  maxTranscriptChars : ℕ := 16000
  pendingDispatches_pos : 1 ≤ maxPendingDispatches := by decide
  transcriptChars_pos : 1 ≤ maxTranscriptChars := by decide

/-- The frames `process_frame` tells apart. -/
inductive TurnFrame
  | transcription (text : PyStr)
  | userStartedSpeaking
  | vadUserStartedSpeaking
  | userStoppedSpeaking
  | other
  deriving DecidableEq, Repr

/-- Only transcriptions are data; the others are system frames, delivered one at a time. -/
def TurnFrame.isSystem : TurnFrame → Bool
  | transcription _ => false
  | _ => true

/-- Where a completion task is suspended: not run yet, in its sleep, with the sleep over, in the
semaphore's queue with the text it has taken, or in `push_frame`. -/
inductive CompletionPhase
  | fresh
  | sleeping (wakeAt : ℚ)
  | woken
  | acquiring (text : PyStr)
  | pushing
  deriving DecidableEq, Repr

/-- The task has taken the buffer. -/
def CompletionPhase.committed : CompletionPhase → Bool
  | fresh | sleeping _ | woken => false
  | acquiring _ | pushing => true

/-- A completion task that has not ended. -/
structure Completion where
  phase : CompletionPhase := .fresh
  cancelRequested : Bool := false
  deriving DecidableEq, Repr

/-- The text that waits for a dispatch slot. -/
def Completion.awaitingText? (c : Completion) : Option PyStr :=
  match c.phase with
  | .acquiring text => some text
  | _ => none

/-- The completion tasks and what the processor knows of them.  `completionTasks` has the tasks that are not
done; `arming` is the task that the handler of a stop frame awaits; `stoppedAt` is kept for the statements
only: when the last stop frame came, if no start frame has come since. -/
structure CompletionState where
  completionTask : Option ℕ := none
  completionTasks : Dict ℕ Completion := ∅
  completionCommitted : Bool := false
  nextTask : ℕ := 0
  arming : Option ℕ := none
  now : ℚ := 0
  stoppedAt : Option ℚ := none

namespace CompletionState

variable (s : CompletionState)

/-- The texts of completions that wait for a slot. -/
def awaitingSlot : List PyStr := s.completionTasks.values.filterMap Completion.awaitingText?

/-- The task runs up to its next await. -/
def suspend (id : ℕ) (phase : CompletionPhase) : CompletionState :=
  { s with completionTasks := s.completionTasks.set id { phase } }

/-- The task returns. -/
def retire (id : ℕ) : CompletionState := { s with completionTasks := s.completionTasks.pop id }

/-- `task.cancel()`, where the task is not done: it is told at its next step. -/
def cancelTask (id : ℕ) : CompletionState :=
  match s.completionTasks.get? id with
  | none => s
  | some c => { s with completionTasks := s.completionTasks.set id { c with cancelRequested := true } }

/-- `_cancel_completion`. -/
def cancelCompletion : CompletionState :=
  let s := s.completionTask.elim s s.cancelTask
  { s with completionTask := none, completionCommitted := false }

/-- The end of `_arm_completion`: a new task. -/
def createCompletion : CompletionState :=
  { s with
    completionTask := some s.nextTask
    completionTasks := s.completionTasks.set s.nextTask {}
    nextTask := s.nextTask + 1 }

/-- `_arm_completion`, up to its await. -/
def armCompletion : CompletionState :=
  match s.completionTask with
  | none => s.createCompletion
  | some id =>
    if (s.completionTasks.get? id).isSome then
      if s.completionCommitted then { s with arming := some id } else s.cancelCompletion.createCompletion
    else s.createCompletion

/-- The rest of `_arm_completion`, once the task it awaits is done. -/
def resumeArming : CompletionState :=
  match s.arming with
  | none => s
  | some id =>
    if (s.completionTasks.get? id).isSome then s else { s with arming := none }.createCompletion

/-- What a start frame does. -/
def resumeSpeech : CompletionState :=
  if s.completionTask.isSome && !s.completionCommitted then s.cancelCompletion else s

/-- The timer of a sleep: it is not set off before its time, nor for a task whose sleep was cancelled. -/
def sleepEnds (id : ℕ) : CompletionState :=
  match s.completionTasks.get? id with
  | some { phase := .sleeping wakeAt, cancelRequested := false } =>
    if wakeAt ≤ s.now then s.suspend id .woken else s
  | _ => s

/-- The end of `_complete_after_grace`, after `push_frame`. -/
def finish (id : ℕ) : CompletionState :=
  let s := s.retire id
  if s.completionTask = some id then { s with completionTask := none, completionCommitted := false } else s

end CompletionState

/-- `FinalTurnTranscriptProcessor`.  The dispatch tasks that have not begun are in `dispatchTasks`, and
`dispatching` counts those in their handler; `dispatched` are the texts that `_dispatch` was called with. -/
structure FinalTurnTranscriptProcessor extends CompletionState where
  fragments : List PyStr := []
  fragmentChars : ℕ := 0
  dispatchSlots : Semaphore
  dispatchTasks : List PyStr := []
  dispatching : ℕ := 0
  dispatched : List PyStr := []

/-- `" ".join(fragments)`. -/
def joinFragments (fragments : List PyStr) : PyStr := joined 0x20 fragments

/-- What happens to the processor. -/
inductive TurnEvent
  | deliver (frame : TurnFrame) (direction : FrameDirection)
  | clock (time : ℚ)
  | sleepEnds (id : ℕ)
  /-- The loop runs a completion task that has something to go on with. -/
  | resume (id : ℕ)
  /-- `push_frame` returns in a completion task. -/
  | pushed (id : ℕ)
  | resumeArming
  /-- The oldest of the dispatch tasks begins. -/
  | beginDispatch
  /-- A handler returns or raises. -/
  | endDispatch
  deriving DecidableEq, Repr

namespace FinalTurnTranscriptProcessor

variable (cfg : TranscriptConfig) (p : FinalTurnTranscriptProcessor)

/-- `__init__`. -/
def init : FinalTurnTranscriptProcessor where
  dispatchSlots := { value := cfg.maxPendingDispatches }

/-- `_append_fragment`. -/
def appendFragment (text : PyStr) : FinalTurnTranscriptProcessor :=
  let separatorChars := if p.fragments = [] then 0 else 1
  let remaining := cfg.maxTranscriptChars - p.fragmentChars
  if remaining ≤ separatorChars then p
  else
    let fragment := text.take (remaining - separatorChars)
    if fragment = [] then p
    else
      { p with
        fragments := p.fragments ++ [fragment]
        fragmentChars := p.fragmentChars + (separatorChars + fragment.length) }

/-- `_dispatch_in_background`, called by task `id`, up to its await: `acquire` returns at once, or queues. -/
def dispatchInBackground (id : ℕ) (text : PyStr) : FinalTurnTranscriptProcessor :=
  if p.dispatchSlots.locked then
    { p with
      toCompletionState := p.suspend id (.acquiring text)
      dispatchSlots := p.dispatchSlots.wait id }
  else
    { p with
      toCompletionState := p.suspend id .pushing
      dispatchSlots := p.dispatchSlots.take
      dispatchTasks := p.dispatchTasks ++ [text] }

/-- `_complete_after_grace` once its sleep is over. -/
def completeTurn (id : ℕ) : FinalTurnTranscriptProcessor :=
  let text := joinFragments p.fragments
  let p := { p with fragments := [], fragmentChars := 0 }
  if text = [] then { p with toCompletionState := { p.retire id with completionTask := none } }
  else { p with completionCommitted := true }.dispatchInBackground id text

/-- A step of completion task `id`.  A cancelled task is told in its sleep, or before it has run at all;
only the frames and the `cleanup` that are outside cancel one that has committed. -/
def resume (id : ℕ) : FinalTurnTranscriptProcessor :=
  match p.completionTasks.get? id with
  | none => p
  | some c =>
    match c.phase with
    | .fresh =>
      if c.cancelRequested then { p with toCompletionState := p.retire id }
      else { p with toCompletionState := p.suspend id (.sleeping (p.now + cfg.completeGraceSeconds)) }
    | .sleeping _ => if c.cancelRequested then { p with toCompletionState := p.retire id } else p
    | .woken => if c.cancelRequested then { p with toCompletionState := p.retire id } else p.completeTurn id
    | .acquiring text =>
      if p.dispatchSlots.isGranted id then
        { p with
          toCompletionState := p.suspend id .pushing
          dispatchSlots := p.dispatchSlots.resume id
          dispatchTasks := p.dispatchTasks ++ [text] }
      else p
    | .pushing => p

/-- `push_frame` has returned in task `id`. -/
def pushed (id : ℕ) : FinalTurnTranscriptProcessor :=
  match p.completionTasks.get? id with
  | some { phase := .pushing, .. } => { p with toCompletionState := p.finish id }
  | _ => p

/-- The branches of `process_frame` for a frame on its way downstream. -/
def processFrame : TurnFrame → FinalTurnTranscriptProcessor
  | .transcription text => if text.strip = [] then p else p.appendFragment cfg text.strip
  | .userStartedSpeaking | .vadUserStartedSpeaking =>
    { p with toCompletionState := { p.resumeSpeech with stoppedAt := none } }
  | .userStoppedSpeaking =>
    { p with toCompletionState := { p.toCompletionState with stoppedAt := some p.now }.armCompletion }
  | .other => p

/-- `process_frame`; a system frame is not delivered while the handler of a stop frame is suspended. -/
def deliver (frame : TurnFrame) : FrameDirection → FinalTurnTranscriptProcessor
  | .upstream => p
  | .downstream => if frame.isSystem && p.arming.isSome then p else p.processFrame cfg frame

/-- The oldest dispatch task calls `_dispatch`. -/
def beginDispatch : FinalTurnTranscriptProcessor :=
  match p.dispatchTasks with
  | [] => p
  | text :: rest =>
    { p with dispatchTasks := rest, dispatching := p.dispatching + 1, dispatched := p.dispatched ++ [text] }

/-- The end of `_dispatch_with_slot`. -/
def endDispatch : FinalTurnTranscriptProcessor :=
  if p.dispatching = 0 then p
  else { p with dispatching := p.dispatching - 1, dispatchSlots := p.dispatchSlots.release }

/-- One event; the clock does not go back. -/
def step : TurnEvent → FinalTurnTranscriptProcessor
  | .deliver frame direction => p.deliver cfg frame direction
  | .clock time => { p with now := max p.now time }
  | .sleepEnds id => { p with toCompletionState := p.toCompletionState.sleepEnds id }
  | .resume id => p.resume cfg id
  | .pushed id => p.pushed id
  | .resumeArming => { p with toCompletionState := p.toCompletionState.resumeArming }
  | .beginDispatch => p.beginDispatch
  | .endDispatch => p.endDispatch

/-- The texts that have been fixed, in the order they are dispatched: dispatched, in a dispatch task, or
waiting for a slot. -/
def fixedTexts : List PyStr := p.dispatched ++ p.dispatchTasks ++ p.awaitingSlot

end FinalTurnTranscriptProcessor

end SubagentsLab

import SubagentsLab.Host.Handshake
import SubagentsLab.Session.State
import SubagentsLab.Speech.Scheduler

/-!
# Host/Commit — committing a turn's results

A delegated child's result reaches the log on one of two ways: its turn commits it (`_commit_and_speak`,
from the epilogue of a turn with one child or from the loop of a fan-out), or the turn gave up waiting,
the coordinator kept the task, and `commit_late_result_once` commits it whenever it comes.  A cancellation
leaves a marker on the work item; whichever commit comes first consumes it.  Every call of the host up to
its next await is one event, and the turns, the late callbacks and the cancellations interleave freely.

The statuses a turn emits outside its epilogue (`searching`, a rejected delegation, the sweep of a turn
that raised) are reports of their own.  Pending clarifications and recorders play no part in a commit and
are left out; what they raise is a `Fault`.
-/

namespace SubagentsLab

open Machinery

namespace Session

/-! ## From outcomes to statuses -/

/-- `WorkItemOutcome` and `WorkOutcome`: how a work item ended. -/
inductive WorkOutcome
  | direct
  | unsupported
  | completed
  | retained
  | clarify
  | declined
  | failed
  | cancelled
  | missingWorker
  | missingSearch
  | capacityRejected
  | retentionRejected
  | invalidResult
  deriving DecidableEq, Repr

/-- `CommitOutcome`. -/
inductive CommitOutcome
  | committed
  | notApplicable
  | suppressedCancelled
  | suppressedStale
  | suppressedDuplicate
  | suppressedShutdown
  | failed
  deriving DecidableEq, Repr

/-- A status to publish, with the reason it names. -/
abbrev Derived := WorkStatusState × Option TerminalReason

/-- `work_status_for_outcome`. -/
def workStatusForOutcome (outcome : Option WorkOutcome) (cancelled committed : Bool)
    (terminalKind : Option WorkOutcome) : Option Derived :=
  if cancelled then some (.cancelled, none)
  else
    match outcome with
    | none => none
    | some label =>
      if (label = .completed ∨ label = .clarify ∨ label = .declined) ∧ committed = true then
        some (.resultReady, none)
      else some (.failed, if terminalKind = some .retentionRejected then some .retentionRejected else none)

/-- `work_status_after_commit_failure`. -/
def workStatusAfterCommitFailure : Option Derived → Option Derived
  | none => none
  | some derived =>
    if derived.1.terminal = false then none
    else if derived.1 = .cancelled then some derived
    else some (.failed, none)

/-- `child_work_status_after_dispatch`. -/
def childWorkStatusAfterDispatch (outcome : Option WorkOutcome) (cancelled : Bool)
    (terminalKind : Option WorkOutcome) : Option Derived :=
  if outcome = some .retained ∧ cancelled = false then some (.background, none)
  else workStatusForOutcome outcome cancelled true terminalKind

/-- `status_omitted_while_retained`. -/
def statusOmittedWhileRetained (outcome : Option WorkOutcome) (cancelled : Bool)
    (terminalKind : Option WorkOutcome) : Option Derived :=
  if outcome = some .retained ∧ cancelled = false then none
  else workStatusForOutcome outcome cancelled true terminalKind

/-- `late_commit_work_status`. -/
def lateCommitWorkStatus (workOutcome : Option WorkOutcome) (commitOutcome : Option CommitOutcome)
    (terminalKind : Option WorkOutcome) : Option Derived :=
  if commitOutcome = some .suppressedDuplicate then none
  else workStatusForOutcome workOutcome (workOutcome = some .cancelled) (commitOutcome = some .committed) terminalKind

/-- The two handlers of a turn with one child. -/
inductive Handler
  | transcript
  | pending
  deriving DecidableEq, Repr

/-- `derive_status`: the policy a handler passes to its epilogue. -/
def Handler.deriveStatus : Handler → Option WorkOutcome → Bool → Option WorkOutcome → Option Derived
  | transcript => statusOmittedWhileRetained
  | pending => childWorkStatusAfterDispatch

/-- `_speech_role_for_child_outcome`. -/
def speechRoleForChildOutcome (outcome : WorkOutcome) : SpeechRole :=
  if outcome = .retained then .timeoutNotice else .result

/-! ## The host -/

/-- The work item of a turn. -/
def workItemId (turnId : String) : String := "work-" ++ turnId

/-- The turn id the results of one item of a fan-out carry. -/
def itemTurnId (turnId : String) (index : ℕ) : String := turnId ++ "-" ++ toString index

/-- What a commit reads of the `ConnectionPipeline` its turn came in on. -/
structure Origin where
  pipeline : ℕ
  epoch : ℕ
  tts : Bool
  supportsWorkStatus : Bool
  deriving DecidableEq, Repr

/-- What the foreground still owes a delegated child: its outcome, the status after the speech of its
result is started, the status after its turn comes to commit the item, or nothing. -/
inductive Stage
  | searching
  | speaking (result : GroundedResult) (derived : Option Derived)
  | deferred (turnId : String) (index : ℕ)
  | closed
  deriving DecidableEq

/-- A delegated child; `retained` while the coordinator holds its task for a late commit. -/
structure Child where
  turnId : String
  parentWorkItemId : Option String
  workerId : String
  originEpoch : ℕ
  turnId_ne : turnId ≠ ""
  stage : Stage := .searching
  retained : Bool := false
  deriving DecidableEq

/-- A status of the child. -/
def Child.report (c : Child) (workItemId : String) (workerId : Option String) (derived : Derived) :
    WorkStatusLedger.ChildReport where
  turnId := c.turnId
  workItemId
  parentWorkItemId := c.parentWorkItemId
  workerId
  state := derived.1
  originEpoch := some c.originEpoch
  terminalReason := derived.2

/-- An entry of `deferred_status`. -/
structure Deferred where
  workItemId : String
  workerId : Option String
  derived : Derived
  deriving DecidableEq

/-- A run of `finalize_fan_out_turn` and of the joins before it: the results it has not come to, the
statuses it holds back, and the item whose speech it awaits. -/
structure FanOut where
  origin : Origin
  results : Dict ℕ (GroundedResult × SpeechRole) := ∅
  deferred : Dict ℕ Deferred := ∅
  current : Option (ℕ × GroundedResult) := none
  looping : Bool := false

namespace FanOut

/-- The item the loop comes to next: `sorted(results)`. -/
def next (fan : FanOut) : Option (ℕ × GroundedResult × SpeechRole) :=
  fan.results.keys.min?.bind fun index => (fan.results.get? index).map fun entry => (index, entry)

/-- The status of an item, under the one parent of the turn. -/
def report (fan : FanOut) (turnId : String) (d : Deferred) (derived : Derived) : WorkStatusLedger.ChildReport where
  turnId
  workItemId := d.workItemId
  parentWorkItemId := some (Session.workItemId turnId)
  workerId := d.workerId
  state := derived.1
  originEpoch := some fan.origin.epoch
  terminalReason := derived.2

end FanOut

/-- What a commit reads and writes of the `SessionHost`. -/
structure CommitHost where
  enableBackgroundStatus : Bool
  state : SessionState
  knownIds : Finset String := ∅
  cancelledIds : Finset String := ∅
  arbiter : ConnectionArbiter := {}
  connection : Option Origin := none
  active : Finset ℕ := ∅
  closing : Bool := false
  children : Dict String Child := ∅
  fanOuts : Dict String FanOut := ∅

/-- A status, with the result it speaks for and the log at the moment it is emitted. -/
structure Emission where
  report : WorkStatusLedger.ChildReport
  canonical : Option String
  log : List String
  deriving DecidableEq, Repr

/-- The arguments of `scheduler.enqueue`. -/
structure Enqueue where
  resultId : String
  workItemId : String
  runId : String
  text : String
  originEpoch : Option ℕ
  role : SpeechRole
  deriving DecidableEq, Repr

/-- What the host does to others. -/
inductive Effect
  | status (e : Emission)
  | speech (item : Enqueue)
  | discardQueuedNotice (workItemId : String)
  deriving DecidableEq, Repr

/-- Where a commit raises: in a listener of the transcript's event, or after the result was filed. -/
inductive Fault
  | transcript
  | result
  deriving DecidableEq, Repr

/-- How far `_commit_and_speak` got by its first await. -/
inductive Attempt
  | suppressed
  | returned
  | raised
  | speaking
  deriving DecidableEq, Repr

/-- How the await of `start_next` ends. -/
inductive Finish
  | returned
  | raised
  | cancelled
  deriving DecidableEq, Repr

namespace CommitHost

/-- The ids in the result log. -/
def log (h : CommitHost) : List String := h.state.results.map (·.resultId)

/-- `accepts`. -/
def accepts (h : CommitHost) (epoch : Option ℕ) : Bool :=
  !h.closing && h.arbiter.accepts epoch && h.connection.any fun c => c.pipeline ∈ h.active

/-- `_emit_work_status`. -/
def emitWorkStatus (cfg : RetentionConfig) (h : CommitHost) (report : WorkStatusLedger.ChildReport)
    (canonical : Option String) (now : ℚ) : CommitHost × List Effect :=
  if h.enableBackgroundStatus then
    ({ h with state := (h.state.setChildWorkStatus cfg report now).1 }, [.status ⟨report, canonical, h.log⟩])
  else (h, [])

/-- `replaces_legacy_result_for`. -/
def replacesLegacyResultFor (h : CommitHost) (origin : Origin) : Bool :=
  origin.supportsWorkStatus && h.enableBackgroundStatus

/-- `retire`. -/
def retire (h : CommitHost) (workItemId : String) : CommitHost :=
  { h with knownIds := h.knownIds.erase workItemId }

/-- Note where a child stands. -/
def note (h : CommitHost) (workItemId : String) (c : Child) : CommitHost :=
  { h with children := h.children.set workItemId c }

/-- `_commit_result_state`, and whether it raises. -/
def commitResultState (h : CommitHost) (r : GroundedResult) (stamp : String) (fault : Option Fault) :
    CommitHost × Bool :=
  let h := { h with state := (h.state.appendTranscript ⟨.assistant, r.text, r.turnId, stamp, r.originEpoch⟩).1 }
  if fault = some .transcript then (h, true)
  else ({ h with state := (h.state.appendResult r none r.originEpoch).1 }, fault = some .result)

/-- `_commit_and_speak`, up to the await of `start_next`. -/
def commitAndSpeak (h : CommitHost) (r : GroundedResult) (origin : Origin) (role : SpeechRole) (requireTts : Bool)
    (stamp : String) (fault : Option Fault) : CommitHost × Attempt × List Effect :=
  let w := workItemId r.turnId
  if w ∈ h.cancelledIds then (retire { h with cancelledIds := h.cancelledIds.erase w } w, .suppressed, [])
  else
    match h.commitResultState r stamp fault with
    | (h, true) => (h, .raised, [])
    | (h, false) =>
      let h := h.retire w
      if requireTts && !origin.tts || h.connection.map (·.pipeline) ≠ some origin.pipeline ||
          origin.pipeline ∉ h.active || !h.accepts r.originEpoch then
        (h, .returned, [])
      else
        (h, .speaking, [.speech ⟨r.resultId, w, "run-" ++ r.turnId, r.spokenText, r.originEpoch, role⟩])

/-! ## A turn with one child -/

/-- Publish what an epilogue derived, if anything. -/
def publish (cfg : RetentionConfig) (h : CommitHost) (w : String) (c : Child) (derived : Option Derived)
    (canonical : Option String) (now : ℚ) : CommitHost × List Effect :=
  match derived with
  | none => (h, [])
  | some derived => h.emitWorkStatus cfg (c.report w (some c.workerId) derived) canonical now

/-- `finalize_single_child_turn`, up to the await of its commit; a commit that awaits nothing settles the
child at once. -/
def finalizeSingleChildTurn (cfg : RetentionConfig) (h : CommitHost) (w : String) (c : Child) (r : GroundedResult)
    (origin : Origin) (role : SpeechRole) (derived : Option Derived) (stamp : String) (fault : Option Fault)
    (now : ℚ) : CommitHost × List Effect :=
  match h.commitAndSpeak r origin role true stamp fault with
  | (h, .speaking, out) => (h.note w { c with stage := .speaking r derived }, out)
  | (h, .raised, out) =>
    let settled := (h.note w { c with stage := .closed }).publish cfg w c (workStatusAfterCommitFailure derived)
      (some r.resultId) now
    (settled.1, out ++ settled.2)
  | (h, _, out) =>
    let settled := (h.note w { c with stage := .closed }).publish cfg w c derived (some r.resultId) now
    (settled.1, out ++ settled.2)

/-- The end of a turn with one child: its work item has an outcome and a result to commit.  A child whose
task is retained is in the background; a client that can see that is told nothing else. -/
def settleChild (cfg : RetentionConfig) (h : CommitHost) (w : String) (c : Child) (handler : Handler)
    (outcome : WorkOutcome) (r : GroundedResult) (origin : Origin) (stamp : String) (fault : Option Fault)
    (backgroundAt settledAt : ℚ) : CommitHost × List Effect :=
  let c := { c with retained := outcome = .retained }
  let background :=
    if outcome = .retained then
      h.emitWorkStatus cfg (c.report w (some c.workerId) (.background, none)) none backgroundAt
    else (h, [])
  if outcome = .retained ∧ h.replacesLegacyResultFor origin = true then
    (background.1.note w { c with stage := .closed }, background.2)
  else
    let wasCancelled : Bool := w ∈ h.cancelledIds
    let derived := handler.deriveStatus (some outcome) wasCancelled (some outcome)
    let settled := background.1.finalizeSingleChildTurn cfg w c r origin (speechRoleForChildOutcome outcome) derived
      stamp fault settledAt
    (settled.1, background.2 ++ settled.2)

/-- The rest of `finalize_single_child_turn`, after `start_next`. -/
def finishChild (cfg : RetentionConfig) (h : CommitHost) (w : String) (c : Child) (r : GroundedResult)
    (derived : Option Derived) (finish : Finish) (now : ℚ) : CommitHost × List Effect :=
  let h := h.note w { c with stage := .closed }
  match finish with
  | .returned => h.publish cfg w c derived (some r.resultId) now
  | .raised => h.publish cfg w c (workStatusAfterCommitFailure derived) (some r.resultId) now
  | .cancelled => (h, [])

/-! ## A fan-out -/

/-- What `coordinator.submit` came back with for one item, or the turn's own answer to it. -/
inductive Disposition
  | main (result : GroundedResult)
  | completed (outcome : WorkOutcome) (result : GroundedResult)
  | pending (notice : GroundedResult)
  | failed (outcome : WorkOutcome) (result : GroundedResult)
  | missing
  deriving DecidableEq

/-- The result an item is answered with. -/
def Disposition.result : Disposition → Option GroundedResult
  | main result => some result
  | completed _ result => some result
  | pending notice => some notice
  | failed _ result => some result
  | missing => none

/-- Hold back the status of an item until its result is committed. -/
def defer (h : CommitHost) (turnId : String) (fan : FanOut) (index : ℕ) (w : String) (c : Child)
    (r : GroundedResult) (derived : Option Derived) : CommitHost :=
  match derived with
  | none => { h with fanOuts := h.fanOuts.set turnId { fan with results := fan.results.set index (r, .result) } }
  | some derived =>
    { h.note w { c with stage := .deferred turnId index } with
      fanOuts := h.fanOuts.set turnId
        { fan with
          results := fan.results.set index (r, .result)
          deferred := fan.deferred.set index ⟨w, some c.workerId, derived⟩ } }

/-- One item of the fan-in loops of `_handle_multi_intent`.  An item the coordinator did not account for may
still be one it retained. -/
def joinItem (cfg : RetentionConfig) (h : CommitHost) (turnId : String) (fan : FanOut) (index : ℕ) (w : String)
    (c : Child) (now : ℚ) : Disposition → CommitHost × List Effect
  | .main _ => (h, [])
  | .completed outcome r =>
    (h.defer turnId fan index w c r (workStatusForOutcome (some outcome) (w ∈ h.cancelledIds) true (some outcome)), [])
  | .pending notice =>
    let results :=
      if h.replacesLegacyResultFor fan.origin then fan.results else fan.results.set index (notice, .timeoutNotice)
    let h' := { h with fanOuts := h.fanOuts.set turnId { fan with results } }
    (h'.note w { c with stage := .closed, retained := true }).publish cfg w c
      (childWorkStatusAfterDispatch (some .retained) (w ∈ h.cancelledIds) none) none now
  | .failed outcome r =>
    (h.defer turnId fan index w c r (workStatusForOutcome (some outcome) (w ∈ h.cancelledIds) true (some outcome)), [])
  | .missing =>
    (h.note w { c with stage := .closed, retained := true }).publish cfg w c
      (some (if w ∈ h.cancelledIds then .cancelled else .failed, none)) none now

/-- The status an item ends with, once its commit did. -/
def itemStatus (d : Deferred) (r : GroundedResult) : Attempt → Derived
  | .raised => (.failed, none)
  | .suppressed => if d.workItemId = workItemId r.turnId then (.cancelled, none) else d.derived
  | .returned => d.derived
  | .speaking => d.derived

/-- Emit the status an item held back, if it did. -/
def concludeItem (cfg : RetentionConfig) (h : CommitHost) (turnId : String) (fan : FanOut) (index : ℕ)
    (r : GroundedResult) (attempt : Attempt) (now : ℚ) : CommitHost × List Effect :=
  let h := { h with
    fanOuts := h.fanOuts.set turnId { fan with deferred := fan.deferred.pop index, current := none } }
  match fan.deferred.get? index with
  | none => (h, [])
  | some d =>
    let h :=
      match h.children.get? d.workItemId with
      | none => h
      | some c => h.note d.workItemId { c with stage := .closed }
    h.emitWorkStatus cfg (fan.report turnId d (itemStatus d r attempt)) (some r.resultId) now

/-- One round of the loop of `finalize_fan_out_turn`, up to the await of its commit. -/
def commitItem (cfg : RetentionConfig) (h : CommitHost) (turnId : String) (fan : FanOut) (index : ℕ)
    (r : GroundedResult) (role : SpeechRole) (stamp : String) (fault : Option Fault) (now : ℚ) :
    CommitHost × List Effect :=
  let fan := { fan with results := fan.results.pop index, looping := true }
  match h.commitAndSpeak r fan.origin role true stamp fault with
  | (h, .speaking, out) => ({ h with fanOuts := h.fanOuts.set turnId { fan with current := some (index, r) } }, out)
  | (h, attempt, out) =>
    let settled := h.concludeItem cfg turnId fan index r attempt now
    (settled.1, out ++ settled.2)

/-- The rest of the round, after `start_next`; a cancelled turn unwinds out of the loop. -/
def finishItem (cfg : RetentionConfig) (h : CommitHost) (turnId : String) (fan : FanOut) (index : ℕ)
    (r : GroundedResult) (finish : Finish) (now : ℚ) : CommitHost × List Effect :=
  match finish with
  | .returned => h.concludeItem cfg turnId fan index r .returned now
  | .raised => h.concludeItem cfg turnId fan index r .raised now
  | .cancelled => ({ h with fanOuts := h.fanOuts.pop turnId }, [])

/-- The sweep after the loop: one status nothing was committed for. -/
def sweepItem (cfg : RetentionConfig) (h : CommitHost) (turnId : String) (fan : FanOut) (index : ℕ) (now : ℚ) :
    CommitHost × List Effect :=
  match fan.deferred.get? index with
  | none => (h, [])
  | some d =>
    let h := { h with fanOuts := h.fanOuts.set turnId { fan with deferred := fan.deferred.pop index } }
    h.emitWorkStatus cfg (fan.report turnId d d.derived) none now

/-! ## A late result -/

/-- `LateResult`; `result` is there when it is a `GroundedResult`. -/
structure LateResult where
  result : Option GroundedResult := none
  error : Option String := none
  terminalKind : Option WorkOutcome := none
  deriving DecidableEq

/-- What `commit_late_result_once` decided. -/
structure Verdict where
  host : CommitHost
  workOutcome : WorkOutcome
  commitOutcome : CommitOutcome
  resultId : Option String := none
  effects : List Effect := []

/-- The worker of a late result goes idle, if it still belongs to the epoch. -/
def idleWorker (h : CommitHost) (r : GroundedResult) (originEpoch : ℕ) : CommitHost :=
  match h.state.workers.get? r.workerId with
  | none => h
  | some worker =>
    if worker.originEpoch = some originEpoch then
      { h with state := (h.state.setWorker { worker with status := "idle", latestResultId := some r.resultId }).1 }
    else h

/-- Whether the connection could have spoken a late result. -/
def speakable (h : CommitHost) (originEpoch : ℕ) : Bool :=
  h.connection.any fun c =>
    c.tts && c.pipeline ∈ h.active && c.epoch = originEpoch && h.accepts (some originEpoch)

/-- The branches of `commit_late_result_once`, in their order: a worker error, the three fences, a
cancelled work item, and the normal commit. -/
def lateVerdict (h : CommitHost) (w : String) (originEpoch : ℕ) (late : LateResult) (wasCancelled : Bool)
    (stamp : String) (fault : Option Fault) : Verdict :=
  if late.error.isSome then
    { host := h.retire w
      workOutcome := late.terminalKind.getD .failed
      commitOutcome := if late.terminalKind = some .cancelled then .suppressedCancelled else .notApplicable }
  else
    match late.result with
    | none =>
      { host := h.retire w
        workOutcome := if wasCancelled then .cancelled else .invalidResult
        commitOutcome := if wasCancelled then .suppressedCancelled else .notApplicable }
    | some r =>
      if r.originEpoch ≠ some originEpoch then
        { host := h.retire w
          workOutcome := if wasCancelled then .cancelled else .completed
          commitOutcome := .suppressedStale }
      else if h.state.results.any fun item => item.resultId = r.resultId then
        { host := h.retire w
          workOutcome := if wasCancelled then .cancelled else .completed
          commitOutcome := .suppressedDuplicate }
      else if wasCancelled then
        match (h.retire w).commitResultState r stamp fault with
        | (h, true) => { host := h, workOutcome := .cancelled, commitOutcome := .failed }
        | (h, false) =>
          { host := h.idleWorker r originEpoch
            workOutcome := .cancelled
            commitOutcome := .committed
            resultId := some r.resultId }
      else
        match h.commitResultState r stamp fault with
        | (h, true) => { host := h.retire w, workOutcome := .completed, commitOutcome := .failed }
        | (h, false) =>
          let h := (h.retire w).idleWorker r originEpoch
          { host := h
            workOutcome := .completed
            commitOutcome := .committed
            resultId := some r.resultId
            effects := if h.speakable originEpoch then [.discardQueuedNotice w] else [] }

/-- `commit_late_result_once`. -/
def commitLateResultOnce (cfg : RetentionConfig) (h : CommitHost) (w : String) (c : Child) (late : LateResult)
    (stamp : String) (fault : Option Fault) (now : ℚ) : CommitHost × List Effect :=
  let wasCancelled : Bool := late.error.isNone && w ∈ h.cancelledIds
  let h := if wasCancelled then { h with cancelledIds := h.cancelledIds.erase w } else h
  let v := h.lateVerdict w c.originEpoch late wasCancelled stamp fault
  match lateCommitWorkStatus (some v.workOutcome) (some v.commitOutcome) late.terminalKind with
  | none => (v.host, v.effects)
  | some derived =>
    let settled := v.host.emitWorkStatus cfg (c.report w none derived) v.resultId now
    (settled.1, v.effects ++ settled.2)

/-! ## Cancellations -/

/-- `_cancel_work`: what a cancellation of one work item, or of all, marks; `localIds` have a task of the
host, `coordinatorIds` one of the coordinator. -/
def cancelWork (h : CommitHost) (target exclude : Option String) (localIds coordinatorIds : List String) :
    CommitHost :=
  let selected := (localIds ++ coordinatorIds).filter fun w => target.all (· = w)
  let selected := selected.toFinset ∪ (if target = none then h.knownIds else ∅)
  { h with cancelledIds := h.cancelledIds ∪ selected.filter fun w => some w ≠ exclude }

/-! ## The machine -/

/-- What happens to the host, one event for each stretch between awaits. -/
inductive Event
  /-- `_begin_delegation` accepts a child: of a turn, or of an item of a fan-out. -/
  | delegate (turnId : String) (item : Option ℕ) (workerId : String) (originEpoch : ℕ) (now : ℚ)
  /-- A status from outside the epilogues; none of them is `result_ready`. -/
  | report (r : WorkStatusLedger.ChildReport) (now : ℚ)
  /-- A reader prunes the ledger. -/
  | prune (now : ℚ)
  /-- A mutator that is neither `append_result` nor `set_child_work_status`. -/
  | call (c : SessionState.Call)
  /-- `_cancel_work`. -/
  | cancel (target exclude : Option String) (localIds coordinatorIds : List String)
  /-- A turn's task is done, and no work task is left: its work item is forgotten. -/
  | turnDone (workItemId : String)
  /-- A connection comes, goes or changes its epoch. -/
  | reconnect (arbiter : ConnectionArbiter) (connection : Option Origin) (active : Finset ℕ) (closing : Bool)
      (activeEpoch : Option ℕ)
  /-- A turn without a child answers. -/
  | respond (r : GroundedResult) (origin : Origin) (requireTts : Bool) (stamp : String) (fault : Option Fault)
  /-- A turn with one child comes to its epilogue. -/
  | settle (turnId : String) (handler : Handler) (outcome : WorkOutcome) (r : GroundedResult) (origin : Origin)
      (stamp : String) (fault : Option Fault) (backgroundAt settledAt : ℚ)
  /-- Its `start_next` ends. -/
  | finish (turnId : String) (how : Finish) (now : ℚ)
  /-- A fan-out comes back from `coordinator.submit`. -/
  | fanOut (turnId : String) (origin : Origin)
  /-- One of its items is joined. -/
  | join (turnId : String) (index : ℕ) (d : Disposition) (now : ℚ)
  /-- Its loop comes to the next item. -/
  | commit (turnId : String) (stamp : String) (fault : Option Fault) (now : ℚ)
  /-- The `start_next` of that item ends. -/
  | finishItem (turnId : String) (how : Finish) (now : ℚ)
  /-- It sweeps a status its loop left. -/
  | sweep (turnId : String) (index : ℕ) (now : ℚ)
  /-- The task of a retained child is done. -/
  | late (workItemId : String) (result : LateResult) (stamp : String) (fault : Option Fault) (now : ℚ)

/-- The calls a `call` stands for. -/
def plain : SessionState.Call → Bool
  | .appendResult _ _ _ => false
  | .setChildWorkStatus _ _ => false
  | _ => true

/-- A child whose turn is about to settle it. -/
def searching (h : CommitHost) (w : String) (parent : Option String) (turnId : String) : Option Child :=
  (h.children.get? w).filter fun c => c.stage = .searching ∧ c.parentWorkItemId = parent ∧ c.turnId = turnId

/-- A new child is filed as `routing`. -/
def delegate (cfg : RetentionConfig) (h : CommitHost) (w : String) (c : Child) (now : ℚ) : CommitHost × List Effect :=
  ({ h with knownIds := insert w h.knownIds }.note w c).emitWorkStatus cfg
    (c.report w (some c.workerId) (.routing, none)) none now

/-- One event. -/
def step (cfg : RetentionConfig) (h : CommitHost) : Event → CommitHost × List Effect
  | .delegate turnId item workerId originEpoch now =>
    let w := workItemId (item.elim turnId (itemTurnId turnId))
    if hturn : turnId = "" then (h, [])
    else if (h.children.get? w).isSome then (h, [])
    else h.delegate cfg w ⟨turnId, item.map fun _ => workItemId turnId, workerId, originEpoch, hturn, .searching, false⟩ now
  | .report r now => if r.state = .resultReady then (h, []) else h.emitWorkStatus cfg r none now
  | .prune now => ({ h with state := { h.state with ledger := h.state.ledger.pruneExpiredWorkStatus cfg now } }, [])
  | .call c => if plain c then ({ h with state := (h.state.step cfg c).1 }, []) else (h, [])
  | .cancel target exclude localIds coordinatorIds => (h.cancelWork target exclude localIds coordinatorIds, [])
  | .turnDone w => (retire { h with cancelledIds := h.cancelledIds.erase w } w, [])
  | .reconnect arbiter connection active closing activeEpoch =>
    ({ h with arbiter, connection, active, closing, state := { h.state with activeEpoch } }, [])
  | .respond r origin requireTts stamp fault =>
    if (h.children.get? (workItemId r.turnId)).isSome then (h, [])
    else
      let attempt := h.commitAndSpeak r origin .result requireTts stamp fault
      (attempt.1, attempt.2.2)
  | .settle turnId handler outcome r origin stamp fault backgroundAt settledAt =>
    match h.searching (workItemId turnId) none turnId with
    | none => (h, [])
    | some c =>
      if r.turnId = turnId then
        h.settleChild cfg (workItemId turnId) c handler outcome r origin stamp fault backgroundAt settledAt
      else (h, [])
  | .finish turnId how now =>
    match h.children.get? (workItemId turnId) with
    | none => (h, [])
    | some c =>
      match c.stage with
      | .speaking r derived => h.finishChild cfg (workItemId turnId) c r derived how now
      | _ => (h, [])
  | .fanOut turnId origin =>
    if (h.fanOuts.get? turnId).isSome then (h, [])
    else ({ h with fanOuts := h.fanOuts.set turnId { origin } }, [])
  | .join turnId index d now =>
    match h.fanOuts.get? turnId with
    | none => (h, [])
    | some fan =>
      if fan.looping ∨ (fan.results.get? index).isSome ∨ (fan.deferred.get? index).isSome ∨
          d.result.any (·.turnId ≠ itemTurnId turnId index) then
        (h, [])
      else
        let w := workItemId (itemTurnId turnId index)
        match d with
        | .main r =>
          if (h.children.get? w).isSome then (h, [])
          else
            ({ h with
                fanOuts := h.fanOuts.set turnId { fan with results := fan.results.set index (r, .result) } }, [])
        | d =>
          match h.searching w (some (workItemId turnId)) turnId with
          | none => (h, [])
          | some c => if c.originEpoch = fan.origin.epoch then h.joinItem cfg turnId fan index w c now d else (h, [])
  | .commit turnId stamp fault now =>
    match h.fanOuts.get? turnId with
    | none => (h, [])
    | some fan =>
      match fan.current, fan.next with
      | none, some (index, r, role) => h.commitItem cfg turnId fan index r role stamp fault now
      | _, _ => (h, [])
  | .finishItem turnId how now =>
    match h.fanOuts.get? turnId with
    | none => (h, [])
    | some fan =>
      match fan.current with
      | none => (h, [])
      | some (index, r) => h.finishItem cfg turnId fan index r how now
  | .sweep turnId index now =>
    match h.fanOuts.get? turnId with
    | none => (h, [])
    | some fan =>
      if fan.looping ∧ fan.current = none ∧ fan.next = none then h.sweepItem cfg turnId fan index now else (h, [])
  | .late w late stamp fault now =>
    match h.children.get? w with
    | none => (h, [])
    | some c =>
      if c.retained then (h.note w { c with retained := false }).commitLateResultOnce cfg w c late stamp fault now
      else (h, [])

/-- A host before its first turn. -/
def fresh (enableBackgroundStatus : Bool) (sessionId : String) : CommitHost :=
  { enableBackgroundStatus, state := { sessionId } }

/-- The host a run leads to. -/
def after (cfg : RetentionConfig) (h : CommitHost) (es : List Event) : CommitHost :=
  run (fun h e => (step cfg h e).1) h es

end CommitHost

end Session

end SubagentsLab

import SubagentsLab.Machinery.Update
import SubagentsLab.Telemetry.Format

/-!
# Telemetry/Recorders — the recorders of a turn and of its work items

`AppTurnRecorder` and `WorkItemRecorder` of `perf_metrics.py`.  A recorder emits at most once, and a record
that the contract refuses is dropped; finalizing the turn first sweeps the work items that are still open.
-/

namespace SubagentsLab

open Machinery

namespace PerfMetric

/-! ## Records -/

/-- `MeasurementRecord`: its line is the one `format_record` gives. -/
structure MeasurementRecord where
  event : String
  fields : Fields
  line : String
  formatted : formatRecord event fields = .ok line

/-- `build_record`. -/
def buildRecord (event : String) (fields : Fields) : Option MeasurementRecord :=
  match h : formatRecord event fields with
  | .ok line => some ⟨event, fields, line, h⟩
  | .error _ => none

/-- `d[name] = value`, where there is a value. -/
def putSome (fields : Fields) (name : String) : Option FieldValue → Fields
  | none => fields
  | some value => fields.set name value

/-! ## Outcomes and counters -/

/-- `_CHILD_COUNTER_FOR_OUTCOME`. -/
def childCounterForOutcome : List (String × String) :=
  [("direct", "direct_count"), ("unsupported", "unsupported_count"), ("completed", "completed_count"),
    ("retained", "retained_count"), ("clarify", "clarification_count"), ("declined", "declined_count"),
    ("failed", "failed_count"), ("cancelled", "cancelled_count"), ("missing_worker", "failed_count"),
    ("missing_search", "failed_count"), ("capacity_rejected", "failed_count"), ("retention_rejected", "failed_count")]

/-- `_PARENT_OUTCOME_FOR_COUNTER`. -/
def parentOutcomeForCounter : List (String × String) :=
  [("direct_count", "direct"), ("unsupported_count", "unsupported"), ("completed_count", "completed"),
    ("retained_count", "retained"), ("clarification_count", "clarify"), ("declined_count", "declined"),
    ("failed_count", "failed"), ("cancelled_count", "cancelled")]

/-- The member of a vocabulary that a string is. -/
def member (vocabulary : List String) (s : PyStr) : Option String := vocabulary.find? (PyStr.ofString · = s)

/-- The counter of an outcome; an unknown one counts as failed. -/
def counterFor (outcome : String) : String := (Dict.find outcome childCounterForOutcome).getD "failed_count"

/-! ## Recorders -/

/-- `WorkItemRecorder`; readings of the clock go by their number. -/
structure WorkItemRecorder where
  workItemId : PyStr
  start : ℕ
  finalized : Bool := false

/-- `AppTurnRecorder`; the work items that are open go by their number. -/
structure AppTurnRecorder where
  sessionId : PyStr
  originEpoch : ℤ
  turnId : PyStr
  start : ℕ
  counters : Dict String ℕ
  dispatchedChildren : ℕ := 0
  openChildren : Dict PyStr ℕ := ∅
  finalized : Bool := false
  routingMs : Option FieldValue := none
  commitMs : Option FieldValue := none

/-- `dict.fromkeys(_APP_TURN_COUNTER_FIELDS, 0)`. -/
def noCounts : Dict String ℕ := ⟨appTurnCounterFields.map (·, 0), by decide⟩

/-- A turn, its work items in the order they were made, the readings of the clock so far and what the sink got. -/
structure Recording where
  turn : AppTurnRecorder
  children : List WorkItemRecorder := []
  readings : ℕ
  emitted : List MeasurementRecord := []

namespace Recording

/-- `AppTurnRecorder(...)`. -/
def fresh (sessionId : PyStr) (originEpoch : ℤ) (turnId : PyStr) : Recording where
  turn := { sessionId, originEpoch, turnId, start := 0, counters := noCounts }
  readings := 1

/-- `_safe_emit`. -/
def emit (s : Recording) (event : String) (fields : Fields) : Recording :=
  { s with emitted := s.emitted ++ (buildRecord event fields).toList }

/-- `new_child`; a work item whose id is open already is not tracked. -/
def newChild (s : Recording) (workItemId : PyStr) : Recording :=
  let turn :=
    if (s.turn.openChildren.get? workItemId).isSome then s.turn
    else { s.turn with openChildren := s.turn.openChildren.set workItemId s.children.length }
  { s with turn, children := s.children ++ [{ workItemId, start := s.readings }], readings := s.readings + 1 }

/-- `_record_child`. -/
def recordChild (turn : AppTurnRecorder) (workItemId : PyStr) (outcome : String) : AppTurnRecorder :=
  { turn with
    openChildren := turn.openChildren.pop workItemId
    counters := turn.counters.set (counterFor outcome) ((turn.counters.get? (counterFor outcome)).getD 0 + 1)
    dispatchedChildren := turn.dispatchedChildren + 1 }

/-- The optional arguments of `WorkItemRecorder.finalize`. -/
structure ChildDetails where
  appWorkerId : Option FieldValue := none
  resultId : Option FieldValue := none
  searchMs : Option FieldValue := none
  commitMs : Option FieldValue := none
  queryChars : Option FieldValue := none
  contextChars : Option FieldValue := none
  provider : Option FieldValue := none
  model : Option FieldValue := none

/-- The optional fields of the record of a work item. -/
def ChildDetails.fields (details : ChildDetails) : List (String × Option FieldValue) :=
  [("app_worker_id", details.appWorkerId), ("result_id", details.resultId), ("search_ms", details.searchMs),
    ("commit_ms", details.commitMs), ("query_chars", details.queryChars), ("context_chars", details.contextChars),
    ("provider", details.provider), ("model", details.model)]

/-- Fields that are put where they have a value, one after another. -/
def putAll (fields : Fields) (optional : List (String × Option FieldValue)) : Fields :=
  optional.foldl (fun fields entry => putSome fields entry.1 entry.2) fields

/-- What goes into the record of a work item. -/
def childEntries (turn : AppTurnRecorder) (workItemId : PyStr) (outcome : String) (totalMs : PyFloat)
    (details : ChildDetails) : List (String × Option FieldValue) :=
  [("session_id", some (.str turn.sessionId)), ("origin_epoch", some (.int turn.originEpoch)),
    ("turn_id", some (.str turn.turnId)), ("work_item_id", some (.str workItemId)), ("outcome", some (.text outcome)),
    ("total_ms", some (.float totalMs))] ++ details.fields

/-- The record of a work item. -/
def childFields (turn : AppTurnRecorder) (workItemId : PyStr) (outcome : String) (totalMs : PyFloat)
    (details : ChildDetails) : Fields := putAll ∅ (childEntries turn workItemId outcome totalMs details)

variable (elapsedMs : ℕ → ℕ → PyFloat)

/-- `WorkItemRecorder.finalize`; `elapsedMs` is the time between two readings of the clock. -/
def finalizeChild (s : Recording) (i : ℕ) (outcome : PyStr) (details : ChildDetails) : Recording :=
  match s.children[i]? with
  | none => s
  | some child =>
    if child.finalized then s
    else
      let outcome := (member workItemOutcomes outcome).getD "failed"
      let totalMs := elapsedMs child.start s.readings
      let s := { s with children := s.children.set i { child with finalized := true }, readings := s.readings + 1 }
      let s := s.emit "work_item_foreground" (childFields s.turn child.workItemId outcome totalMs details)
      { s with turn := recordChild s.turn child.workItemId outcome }

/-- The arguments of `AppTurnRecorder.finalize`. -/
structure FinalizeArgs where
  outcome : Option PyStr := none
  controlAction : Option PyStr := none
  controlOutcome : Option PyStr := none
  scenario : Option FieldValue := none
  acknowledgement : Option Bool := none

/-- The outcome of a turn that was given none. -/
def derivedOutcome (counters : Dict String ℕ) : String :=
  match appTurnCounterFields.filter fun name => (counters.get? name).getD 0 ≠ 0 with
  | [name] => (Dict.find name parentOutcomeForCounter).getD "failed"
  | [] => "failed"
  | _ => "mixed"

/-- The outcome and the control fields that go into the record of a turn: those that were asked for, where they
are consistent. -/
def recordedOutcome (counters : Dict String ℕ) (args : FinalizeArgs) : String × Option String × Option String :=
  let outcome? :=
    match args.outcome with
    | none => some (derivedOutcome counters)
    | some outcome => member appTurnOutcomes outcome
  let action? := args.controlAction.bind (member controlActions)
  let controlOutcome? := args.controlOutcome.bind (member controlOutcomes)
  let pairPresent := args.controlAction.isSome && args.controlOutcome.isSome
  let pairAbsent := args.controlAction.isNone && args.controlOutcome.isNone
  let vocabularyOk :=
    (args.controlAction.isNone || action?.isSome) && (args.controlOutcome.isNone || controlOutcome?.isSome)
  match outcome? with
  | some outcome =>
    if vocabularyOk && (pairPresent || pairAbsent) && (decide (outcome = "control") == pairPresent) then
      (outcome, action?, controlOutcome?)
    else ("failed", none, none)
  | none => ("failed", none, none)

/-- What goes into the record of a turn before the counters. -/
def turnEntries (turn : AppTurnRecorder) (outcome : String) (totalMs : PyFloat) : List (String × Option FieldValue) :=
  [("session_id", some (.str turn.sessionId)), ("origin_epoch", some (.int turn.originEpoch)),
    ("turn_id", some (.str turn.turnId)), ("outcome", some (.text outcome)), ("total_ms", some (.float totalMs)),
    ("child_count", some (.int turn.dispatchedChildren))]

/-- What goes into it after them. -/
def turnOptions (turn : AppTurnRecorder) (action controlOutcome : Option String) (args : FinalizeArgs) :
    List (String × Option FieldValue) :=
  [("control_action", action.map .text), ("control_outcome", controlOutcome.map .text), ("routing_ms", turn.routingMs),
    ("commit_ms", turn.commitMs), ("scenario", args.scenario), ("acknowledgement", args.acknowledgement.map .bool)]

/-- The record of a turn. -/
def turnFields (turn : AppTurnRecorder) (args : FinalizeArgs) (totalMs : PyFloat) : Fields :=
  let (outcome, action, controlOutcome) := recordedOutcome turn.counters args
  putAll ((putAll ∅ (turnEntries turn outcome totalMs)).update (turn.counters.mapValues fun n : ℕ => .int n))
    (turnOptions turn action controlOutcome args)

/-- What the sweep records for a work item that is still open. -/
def sweepOutcome (args : FinalizeArgs) : String :=
  if args.outcome = some (.ofString "cancelled") then "cancelled" else "failed"

/-- The sweep: `child.finalize(outcome=sweep_outcome)` for each of these. -/
def sweep (s : Recording) (args : FinalizeArgs) (unfinished : List ℕ) : Recording :=
  unfinished.foldl (fun s i => s.finalizeChild elapsedMs i (.ofString (sweepOutcome args)) {}) s

/-- `AppTurnRecorder.finalize`. -/
def finalize (s : Recording) (args : FinalizeArgs) : Recording :=
  if s.turn.finalized then s
  else
    let s := { s with turn := { s.turn with finalized := true } }
    let s := s.sweep elapsedMs args s.turn.openChildren.values
    let totalMs := elapsedMs s.turn.start s.readings
    let s := { s with readings := s.readings + 1 }
    s.emit "app_turn_foreground" (turnFields s.turn args totalMs)

/-! ## Calls -/

/-- A call of a recorder. -/
inductive Call
  | newChild (workItemId : PyStr)
  | finalizeChild (i : ℕ) (outcome : PyStr) (details : ChildDetails)
  | recordRouting (ms : FieldValue)
  | recordCommit (ms : FieldValue)
  | finalize (args : FinalizeArgs)

/-- One call. -/
def call (s : Recording) : Call → Recording
  | .newChild workItemId => s.newChild workItemId
  | .finalizeChild i outcome details => s.finalizeChild elapsedMs i outcome details
  | .recordRouting ms => { s with turn := { s.turn with routingMs := some ms } }
  | .recordCommit ms => { s with turn := { s.turn with commitMs := some ms } }
  | .finalize args => s.finalize elapsedMs args

/-- One call after another. -/
def run (s : Recording) (calls : List Call) : Recording := calls.foldl (call elapsedMs) s

end Recording

end PerfMetric

end SubagentsLab

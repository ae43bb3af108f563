import SubagentsLab.Machinery.Dict
import SubagentsLab.Machinery.CodePoints
import SubagentsLab.Machinery.Numerals

/-!
# Telemetry/Registry — the events of the metric contract

The closed registry of `perf_metrics.py`: which events there are, which fields each of them requires and
allows, of what kind each field is, and the two checks that look at several fields of a record at once.
-/

namespace SubagentsLab

open Machinery

namespace PerfMetric

/-- A value of a record, as a caller hands it in. -/
inductive FieldValue
  | str (s : PyStr)
  | int (n : ℤ)
  | float (x : PyFloat)
  | bool (b : Bool)
  | other
  deriving DecidableEq

/-- A text as a value. -/
def FieldValue.text (s : String) : FieldValue := .str (.ofString s)

/-- The fields of a record. -/
abbrev Fields := Dict String FieldValue

/-- The kind of a field: how long an identifier may be, how small a number, which values an enumeration has. -/
inductive FieldKind
  | id (maxlen : ℕ)
  | int (minimum : ℕ)
  | ms
  | bool
  | enum (values : List String)
  deriving DecidableEq

/-- `FieldSpec`. -/
structure FieldSpec where
  name : String
  kind : FieldKind
  deriving DecidableEq

namespace FieldSpec

/-- `_id`. -/
def id (name : String) (maxlen : ℕ := 128) : FieldSpec := ⟨name, .id maxlen⟩

/-- `_int`. -/
def int (name : String) (minimum : ℕ := 0) : FieldSpec := ⟨name, .int minimum⟩

/-- `_ms`. -/
def ms (name : String) : FieldSpec := ⟨name, .ms⟩

/-- `_bool`. -/
def bool (name : String) : FieldSpec := ⟨name, .bool⟩

/-- `_enum`. -/
def enum (name : String) (values : List String) : FieldSpec := ⟨name, .enum values⟩

end FieldSpec

/-! ## Vocabularies -/

/-- `METRIC_KINDS`. -/
def metricKinds : List String := ["ttfb", "text_aggregation", "function_calls", "user_turn_secs"]

/-- `APP_TURN_OUTCOMES`. -/
def appTurnOutcomes : List String :=
  ["direct", "unsupported", "control", "clarify", "completed", "mixed", "retained", "declined", "failed", "cancelled"]

/-- `CONTROL_ACTIONS`. -/
def controlActions : List String := ["pause", "resume", "cancel", "stop", "consent"]

/-- `CONTROL_OUTCOMES`. -/
def controlOutcomes : List String := ["applied", "unknown_target", "no_active", "no_pending"]

/-- `WORK_ITEM_OUTCOMES`. -/
def workItemOutcomes : List String :=
  ["direct", "unsupported", "completed", "retained", "clarify", "declined", "failed", "cancelled", "missing_worker",
    "missing_search", "capacity_rejected", "retention_rejected"]

/-- `WORK_OUTCOMES`. -/
def workOutcomes : List String := ["completed", "failed", "cancelled", "invalid_result"]

/-- `COMMIT_OUTCOMES`. -/
def commitOutcomes : List String :=
  ["committed", "not_applicable", "suppressed_cancelled", "suppressed_stale", "suppressed_duplicate",
    "suppressed_shutdown", "failed"]

/-- `SPEECH_OUTCOMES`. -/
def speechOutcomes : List String :=
  ["queued", "no_tts", "disconnected", "stale_connection", "cancelled", "not_applicable", "enqueue_failed",
    "start_failed"]

/-- `LATE_DELIVERY_DISPOSITIONS`. -/
def lateDeliveryDispositions : List String := ["autoplay", "display_only", "suppressed", "not_applicable"]

/-- `_APP_TURN_COUNTER_FIELDS`. -/
def appTurnCounterFields : List String :=
  ["direct_count", "unsupported_count", "completed_count", "retained_count", "clarification_count", "declined_count",
    "failed_count", "cancelled_count"]

/-! ## What is refused -/

/-- What a value of a field is told it should have been. -/
inductive Expected
  | nonEmptyString
  | noControlCharacters
  | atMost (maxlen : ℕ)
  | int
  | atLeast (minimum : ℕ)
  | duration
  | finiteNonNegative
  | bool
  | oneOf (values : List String)
  deriving DecidableEq

/-- Why a record is refused, by the check that refuses it. -/
inductive Refusal
  | unknownEvent (event : String)
  | unknownFields (event : String) (names : List String)
  | missingFields (event : String) (names : List String)
  | kindRequires (kind name : String)
  | kindForbids (kind : String) (names : List String)
  | countMismatch (counted : ℤ)
  | controlRequired
  | controlForbidden
  | value (name : String) (expected : Expected)
  deriving DecidableEq

/-- How `format_record` ends without a line: with a `PerfMetricError`, or with an error of a built-in.  A
float among the counters is refused by one check or by another, whatever it adds up to. -/
inductive FormatFailure
  | perfMetric (why : Refusal)
  | floatCounter
  | typeError
  | valueError
  | overflowError
  deriving DecidableEq

/-! ## Checks of several fields -/

/-- `_validate_service_latency`. -/
def validateServiceLatency (fields : Fields) : Except FormatFailure Unit :=
  let kind := fields.get? "metric_kind"
  let hasProcessor := (fields.get? "processor").isSome
  let hasFunctionName := (fields.get? "function_name").isSome
  if kind = some (.text "ttfb") ∨ kind = some (.text "text_aggregation") then
    let kind := if kind = some (.text "ttfb") then "ttfb" else "text_aggregation"
    if !hasProcessor then .error (.perfMetric (.kindRequires kind "processor"))
    else if hasFunctionName then .error (.perfMetric (.kindForbids kind ["function_name"]))
    else .ok ()
  else if kind = some (.text "function_calls") then
    if !hasFunctionName then .error (.perfMetric (.kindRequires "function_calls" "function_name"))
    else if hasProcessor then .error (.perfMetric (.kindForbids "function_calls" ["processor"]))
    else .ok ()
  else if kind = some (.text "user_turn_secs") then
    if hasProcessor || hasFunctionName then
      .error (.perfMetric (.kindForbids "user_turn_secs" ["processor", "function_name"]))
    else .ok ()
  else .ok ()

/-- One summand more of a sum that may have left the whole numbers. -/
def addCounter (sum : Option ℤ) : FieldValue → Except FormatFailure (Option ℤ)
  | .int n => .ok (sum.map (· + n))
  | .bool b => .ok (sum.map (· + b.toInt))
  | .float _ => .ok none
  | .str _ | .other => .error .typeError

/-- `sum(fields.get(name, 0) for name in _APP_TURN_COUNTER_FIELDS)`, where it is a whole number. -/
def counterSum (fields : Fields) : Except FormatFailure (Option ℤ) :=
  appTurnCounterFields.foldlM (fun sum name => addCounter sum ((fields.get? name).getD (.int 0))) (some 0)

/-- `counted == child_count`. -/
def equalsCount (counted : ℤ) : Option FieldValue → Bool
  | some (.int n) => counted = n
  | some (.bool b) => counted = b.toInt
  | some (.float (.finite x)) => (counted : ℚ) = x
  | some (.float .negZero) => counted = 0
  | _ => false

/-- `_validate_app_turn_foreground`. -/
def validateAppTurnForeground (fields : Fields) : Except FormatFailure Unit := do
  let some counted ← counterSum fields | .error .floatCounter
  if !equalsCount counted (fields.get? "child_count") then .error (.perfMetric (.countMismatch counted))
  let hasAction := (fields.get? "control_action").isSome
  let hasOutcome := (fields.get? "control_outcome").isSome
  if fields.get? "outcome" = some (.text "control") then
    if !hasAction || !hasOutcome then .error (.perfMetric .controlRequired)
  else if hasAction || hasOutcome then .error (.perfMetric .controlForbidden)

/-! ## The registry -/

/-- `EventSpec`. -/
structure EventSpec where
  required : List FieldSpec
  optional : List FieldSpec := []
  validate : Fields → Except FormatFailure Unit := fun _ => .ok ()

namespace EventSpec

/-- The fields of an event, in the order they are written in. -/
def specs (spec : EventSpec) : List FieldSpec := spec.required ++ spec.optional

/-- `by_name`. -/
def byName (spec : EventSpec) (name : String) : Option FieldSpec := spec.specs.find? (·.name = name)

end EventSpec

/-- What every event of a connection carries. -/
def connectionFields : List FieldSpec := [.id "session_id", .int "origin_epoch", .id "connection_worker"]

/-- The record of a turn. -/
def appTurnForeground : EventSpec where
  required :=
    [.id "session_id", .int "origin_epoch", .id "turn_id", .enum "outcome" appTurnOutcomes, .ms "total_ms",
      .int "child_count", .int "direct_count", .int "unsupported_count", .int "completed_count", .int "retained_count",
      .int "clarification_count", .int "declined_count", .int "failed_count", .int "cancelled_count"]
  optional :=
    [.enum "control_action" controlActions, .enum "control_outcome" controlOutcomes, .ms "routing_ms", .ms "commit_ms",
      .id "scenario" 64, .bool "acknowledgement"]
  validate := validateAppTurnForeground

/-- The record of a work item of a turn. -/
def workItemForeground : EventSpec where
  required :=
    [.id "session_id", .int "origin_epoch", .id "turn_id", .id "work_item_id", .enum "outcome" workItemOutcomes,
      .ms "total_ms"]
  optional :=
    [.id "app_worker_id", .id "result_id", .ms "search_ms", .ms "commit_ms", .int "query_chars", .int "context_chars",
      .id "provider" 64, .id "model" 64]

/-- `EVENT_REGISTRY`. -/
def eventRegistry : List (String × EventSpec) :=
  [("pipeline_startup",
      { required := connectionFields ++ [.ms "total_ms"]
        optional := [.int "processor_count"] }),
    ("transport_ready",
      { required := connectionFields ++ [.ms "client_connected_ms"]
        optional := [.ms "bot_connected_ms"] }),
    ("pipecat_turn_start", { required := connectionFields ++ [.int "pipecat_turn" 1] }),
    ("pipecat_turn_end",
      { required := connectionFields ++ [.int "pipecat_turn" 1, .ms "duration_ms", .bool "interrupted"] }),
    ("first_bot_speech_latency", { required := connectionFields ++ [.ms "latency_ms"] }),
    ("user_bot_latency", { required := connectionFields ++ [.ms "latency_ms"] }),
    ("service_latency",
      { required := connectionFields ++ [.enum "metric_kind" metricKinds, .ms "value_ms"]
        optional := [.id "processor", .id "function_name", .int "pipecat_turn" 1]
        validate := validateServiceLatency }),
    ("app_turn_foreground", appTurnForeground),
    ("work_item_foreground", workItemForeground),
    ("work_item_background",
      { required :=
          [.id "session_id", .int "origin_epoch", .id "turn_id", .id "work_item_id", .id "app_worker_id",
            .ms "background_ms", .enum "work_outcome" workOutcomes, .enum "commit_outcome" commitOutcomes,
            .enum "speech_outcome" speechOutcomes]
        optional :=
          [.id "result_id", .id "provider" 64, .id "model" 64,
            .enum "delivery_disposition" lateDeliveryDispositions] })]

/-- `EVENT_REGISTRY.get(event)`. -/
def eventSpec (event : String) : Option EventSpec := Dict.find event eventRegistry

/-! ## The names of the registry -/

/-- A name that stands between a space and an equals sign as it is. -/
def plainName (name : String) : Bool := name.toList.all fun c => 0x21 ≤ c.toNat ∧ c.toNat ≤ 0x7E ∧ c ≠ '"' ∧ c ≠ '='

/-- A kind whose values can be told apart as they are written. -/
def FieldKind.plain : FieldKind → Bool
  | enum values => values.all plainName
  | id _ | int _ | ms | bool => true

/-- **The registry is well formed**: no field of an event is declared twice, and every name is written as it
is. -/
theorem eventRegistry_wellFormed : ∀ entry ∈ eventRegistry,
    plainName entry.1 = true ∧ (entry.2.specs.map FieldSpec.name).Nodup ∧
      ∀ spec ∈ entry.2.specs, plainName spec.name = true ∧ spec.kind.plain = true := by
  decide +kernel

theorem mem_eventRegistry {event : String} {spec : EventSpec} (h : eventSpec event = some spec) :
    (event, spec) ∈ eventRegistry := by
  rw [eventSpec] at h
  exact (Dict.find_eq_some_iff (by decide)).mp h

theorem byName_eq_some_iff {event : String} {spec : EventSpec} (h : eventSpec event = some spec) {name : String}
    {field : FieldSpec} : spec.byName name = some field ↔ field ∈ spec.specs ∧ field.name = name := by
  have hnodup := (eventRegistry_wellFormed _ (mem_eventRegistry h)).2.1
  rw [EventSpec.byName, List.find?_eq_some_iff_append]
  constructor
  · rintro ⟨hname, before, after, hspecs, -⟩
    exact ⟨hspecs ▸ List.mem_append_right _ List.mem_cons_self, of_decide_eq_true hname⟩
  · rintro ⟨hmem, rfl⟩
    obtain ⟨before, after, hspecs⟩ := List.append_of_mem hmem
    refine ⟨decide_eq_true rfl, before, after, hspecs, fun other hother => ?_⟩
    rw [hspecs, List.map_append, List.nodup_append] at hnodup
    have hne := hnodup.2.2 other.name (List.mem_map_of_mem hother) field.name List.mem_cons_self
    rwa [Bool.not_eq_true', decide_eq_false_iff_not]

end PerfMetric

end SubagentsLab

import SubagentsLab.Machinery.Script
import SubagentsLab.Routing.Router
import SubagentsLab.Session.State

/-!
# Session/Wire — the envelopes the server sends

`RTVIMessage` as `server/rtvi_messages.py` accepts it, and `wire_payload`, the frame it goes out as.  The
kind of an envelope follows from what it carries; a snapshot leaves `work_status` out for a client that
cannot read it.  A frame is written here as the browser decodes it: a whole number beyond 2⁵³ is rounded on
the way (`arrives`).
-/

namespace SubagentsLab

open Machinery

namespace Session

/-! ## Names -/

/-- `TranscriptEntry.role`, on the wire. -/
def TranscriptRole.name : TranscriptRole → String
  | user => "user"
  | assistant => "assistant"

end Session

/-- `DeliveryState.value`. -/
def DeliveryState.name : DeliveryState → String
  | displayed => "displayed"
  | queued => "queued"
  | started => "started"
  | synthesisEnded => "synthesis_ended"
  | deliveryCompleted => "delivery_completed"
  | deliveryUnknown => "delivery_unknown"
  | interrupted => "interrupted"
  | interruptedByReconnect => "interrupted_by_reconnect"
  | paused => "paused"
  | resumed => "resumed"

/-- `WorkStatusState`, on the wire. -/
def WorkStatusState.name : WorkStatusState → String
  | routing => "routing"
  | searching => "searching"
  | background => "background"
  | resultReady => "result_ready"
  | failed => "failed"
  | cancelled => "cancelled"

/-- `TerminalReason`, on the wire. -/
def TerminalReason.name : TerminalReason → String
  | missingWorker => "missing_worker"
  | retentionRejected => "retention_rejected"

namespace Session

/-! ## Timestamps -/

/-- Days in a month of the Gregorian calendar. -/
def daysInMonth (year month : ℕ) : ℕ :=
  if month = 2 then if year % 4 = 0 ∧ (year % 100 ≠ 0 ∨ year % 400 = 0) then 29 else 28
  else if month ∈ [4, 6, 9, 11] then 30
  else 31

/-- A `datetime` in UTC. -/
structure UtcTime where
  year : ℕ
  month : ℕ
  day : ℕ
  hour : ℕ
  minute : ℕ
  second : ℕ
  microsecond : ℕ
  year_mem : 1 ≤ year ∧ year ≤ 9999
  month_mem : 1 ≤ month ∧ month ≤ 12
  day_mem : 1 ≤ day ∧ day ≤ daysInMonth year month
  clock : hour ≤ 23 ∧ minute ≤ 59 ∧ second ≤ 59 ∧ microsecond ≤ 999999

/-- `isoformat`, before its offset: the fraction is there unless it is zero. -/
def UtcTime.chars (t : UtcTime) : List Char :=
  Text.pad 4 t.year ++ '-' :: (Text.pad 2 t.month ++ '-' :: (Text.pad 2 t.day ++ 'T' :: (Text.pad 2 t.hour ++
    ':' :: (Text.pad 2 t.minute ++ ':' :: (Text.pad 2 t.second ++
      ((if t.microsecond = 0 then [] else '.' :: Text.pad 6 t.microsecond) ++ '+' :: (Text.pad 2 0 ++ ':' :: Text.pad 2 0)))))))

/-- `utc_timestamp`, at a time. -/
def UtcTime.utcTimestamp (t : UtcTime) : String := .ofList t.chars

/-! ## Envelopes -/

/-- The white space `\s` stands for in a pattern. -/
def isPatternSpace (c : Char) : Bool := Text.isSpace c && !(c.toNat ∈ [0x1C, 0x1D, 0x1E, 0x1F])

/-- `^https?://[^\s]+$`. -/
def Citation.matches (c : Citation) : Bool :=
  ["http://", "https://"].any fun scheme =>
    scheme.toList.isPrefixOf c.url.toList && (c.url.toList.drop scheme.length).length ≠ 0 &&
      (c.url.toList.drop scheme.length).all fun char => !isPatternSpace char

/-- What an envelope carries. -/
inductive Body
  | snapshot (s : RuntimeSnapshot)
  | event (p : Payload)
  deriving DecidableEq

namespace Body

/-- `payload.origin_epoch`. -/
def originEpoch : Body → Option ℤ
  | snapshot s => s.originEpoch.map Nat.cast
  | event p => p.originEpoch

/-- The results it carries. -/
def results : Body → List GroundedResult
  | snapshot s => s.results
  | event (.result r) => [r]
  | event _ => []

/-- The transcript it carries. -/
def transcript : Body → List TranscriptEntry
  | snapshot s => s.transcript
  | event (.transcript t) => [t]
  | event _ => []

/-- `RTVIMessageKind`: a transcript is its speaker's. -/
def kind : Body → String
  | snapshot _ => "runtime_snapshot"
  | event (.worker _) => "worker"
  | event (.routing _) => "routing"
  | event (.transcript t) => if t.role = .user then "user_transcript" else "bot_transcript"
  | event (.result _) => "result"
  | event (.speechProgress _) => "speech_progress"
  | event (.workStatus _) => "work_status"

/-- The whole numbers it carries. -/
def integers : Body → List ℤ
  | snapshot s =>
    s.workers.flatMap (fun w => (w.originEpoch.map Nat.cast).toList) ++
      s.results.flatMap (fun r => (r.originEpoch.map Nat.cast).toList) ++
      s.speechProgress.flatMap (fun p => (p.originEpoch.map Nat.cast).toList) ++
      s.routing.toList.flatMap (fun r => (r.originEpoch.map Nat.cast).toList) ++
      s.transcript.flatMap (fun t => (t.originEpoch.map Nat.cast).toList) ++
      s.workStatus.flatMap (fun w => (w.eventSequence : ℤ) :: w.originEpoch.toList)
  | event (.workStatus w) => (w.eventSequence : ℤ) :: w.originEpoch.toList
  | event p => p.originEpoch.toList

end Body

/-- `RTVIMessage`: its payload is of its epoch, and a snapshot of its session and sequence. -/
structure RTVIMessage where
  sessionId : String
  sequence : ℕ
  originEpoch : ℕ
  body : Body
  sessionId_ne : sessionId ≠ ""
  epoch_eq : body.originEpoch = some (originEpoch : ℤ)
  snapshot_eq : ∀ s, body = .snapshot s → s.sessionId = sessionId ∧ s.snapshotSequence = sequence
  citations_match : ∀ r ∈ body.results, ∀ c ∈ r.citations, c.matches = true

/-- The whole numbers of an envelope. -/
def RTVIMessage.integers (m : RTVIMessage) : List ℤ := (m.sequence : ℤ) :: (m.originEpoch : ℤ) :: m.body.integers

/-- `CONTRACT_VERSION`. -/
def contractVersion : String := "v1.0"

/-! ## Frames -/

/-- `Number.MAX_SAFE_INTEGER`. -/
def maxSafeInteger : ℤ := 2 ^ 53 - 1

/-- A whole number as the browser decodes it; what becomes of one that is not safe is the decoder's. -/
def arrives (beyond : ℤ → Json) (n : ℤ) : Json := if |n| ≤ maxSafeInteger then .int n else beyond n

section

variable (beyond : ℤ → Json)

/-- A text that may be missing. -/
def dumpText (o : Option String) : Json := o.elim .null .str

/-- An epoch that may be missing. -/
def dumpEpoch (o : Option ℤ) : Json := o.elim .null (arrives beyond)

/-- `WorkerState.model_dump`. -/
def WorkerState.modelDump (w : WorkerState) : Json :=
  .obj
    [("worker_id", .str w.workerId), ("topic", .str w.topic), ("model_policy", .str w.modelPolicy),
      ("status", .str w.status), ("latest_result_id", dumpText w.latestResultId),
      ("origin_epoch", dumpEpoch beyond (w.originEpoch.map Nat.cast))]

/-- `RoutingState.model_dump`. -/
def RoutingState.modelDump (r : RoutingState) : Json :=
  .obj
    [("turn_id", .str r.turnId), ("action", .str r.action.name), ("worker_id", dumpText r.workerId),
      ("worker_type", dumpText r.workerType), ("topic", dumpText r.topic), ("model_policy", dumpText r.modelPolicy),
      ("origin_epoch", dumpEpoch beyond (r.originEpoch.map Nat.cast))]

/-- `TranscriptEntry.model_dump`. -/
def TranscriptEntry.modelDump (t : TranscriptEntry) : Json :=
  .obj
    [("role", .str t.role.name), ("text", .str t.text), ("turn_id", .str t.turnId), ("timestamp", .str t.timestamp),
      ("origin_epoch", dumpEpoch beyond (t.originEpoch.map Nat.cast))]

/-- `Citation.model_dump`. -/
def Citation.modelDump (c : Citation) : Json := .obj [("title", .str c.title), ("url", .str c.url)]

/-- `GroundedResult.model_dump`. -/
def GroundedResult.modelDump (r : GroundedResult) : Json :=
  .obj
    [("result_id", .str r.resultId), ("worker_id", .str r.workerId), ("turn_id", .str r.turnId),
      ("timestamp", .str r.timestamp), ("text", .str r.text), ("citations", .arr (r.citations.map Citation.modelDump)),
      ("spoken_text", .str r.spokenText), ("origin_epoch", dumpEpoch beyond (r.originEpoch.map Nat.cast))]

/-- `SpeechProgress.model_dump`. -/
def SpeechProgress.modelDump (p : SpeechProgress) : Json :=
  .obj
    [("result_id", .str p.resultId), ("work_item_id", .str p.workItemId), ("run_id", .str p.runId),
      ("utterance_id", .str p.utteranceId), ("state", .str p.state.name),
      ("origin_epoch", dumpEpoch beyond (p.originEpoch.map Nat.cast))]

/-- `WorkStatus.model_dump`. -/
def dumpWorkStatus (w : WorkStatus) : Json :=
  .obj
    [("turn_id", .str w.turnId), ("work_item_id", dumpText w.workItemId), ("worker_id", dumpText w.workerId),
      ("state", .str w.state.name), ("event_sequence", arrives beyond w.eventSequence),
      ("terminal_reason", dumpText (w.terminalReason.map TerminalReason.name)),
      ("origin_epoch", dumpEpoch beyond w.originEpoch)]

/-- `RuntimeSnapshot.wire_payload`. -/
def RuntimeSnapshot.wirePayload (includeWorkStatus : Bool) (s : RuntimeSnapshot) : Json :=
  .obj <|
    [("contract_version", .str contractVersion), ("session_id", .str s.sessionId),
      ("snapshot_sequence", arrives beyond s.snapshotSequence),
      ("workers", .arr (s.workers.map (WorkerState.modelDump beyond))),
      ("results", .arr (s.results.map (GroundedResult.modelDump beyond))),
      ("speech_progress", .arr (s.speechProgress.map (SpeechProgress.modelDump beyond))),
      ("routing", s.routing.elim .null (RoutingState.modelDump beyond)),
      ("transcript", .arr (s.transcript.map (TranscriptEntry.modelDump beyond))),
      ("origin_epoch", dumpEpoch beyond (s.originEpoch.map Nat.cast))] ++
    if includeWorkStatus then [("work_status", .arr (s.workStatus.map (dumpWorkStatus beyond)))] else []

/-- `data`, on the wire. -/
def Body.wirePayload (includeWorkStatus : Bool) : Body → Json
  | .snapshot s => s.wirePayload beyond includeWorkStatus
  | .event (.worker w) => w.modelDump beyond
  | .event (.routing r) => r.modelDump beyond
  | .event (.transcript t) => t.modelDump beyond
  | .event (.result r) => r.modelDump beyond
  | .event (.speechProgress p) => p.modelDump beyond
  | .event (.workStatus w) => dumpWorkStatus beyond w

/-- `RTVIMessage.wire_payload`. -/
def RTVIMessage.wirePayload (m : RTVIMessage) (includeWorkStatus : Bool) : Json :=
  .obj
    [("contract_version", .str contractVersion), ("session_id", .str m.sessionId),
      ("sequence", arrives beyond m.sequence), ("kind", .str m.body.kind),
      ("data", m.body.wirePayload beyond includeWorkStatus), ("origin_epoch", arrives beyond m.originEpoch)]

end

end Session

end SubagentsLab

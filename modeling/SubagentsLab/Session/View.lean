import SubagentsLab.Session.State

/-!
# Session/View — what the browser shows

The reducer of `web/src/state.js`, less the sequence numbers: a snapshot replaces the view, an increment
changes one part of it.  Work-status records carry stamps of the browser's own clock, by which they are
retained; what is dropped leaves the number of its last event behind, as a tombstone.
-/

namespace SubagentsLab

open Machinery

namespace Session

/-! ## Projections -/

/-- `normalizedResult`. -/
structure NormalizedResult where
  resultId : String
  workerId : String
  turnId : String
  timestamp : String
  text : String
  spokenText : String
  uiText : String
  originEpoch : Option ℕ
  citations : List Citation
  deriving DecidableEq, Repr

/-- The citations whose URL can be normalised, the first of each URL. -/
def normalizedCitations (normalizeUrl : String → Option String) : List String → List Citation → List Citation
  | _, [] => []
  | seen, citation :: rest =>
    match normalizeUrl citation.url with
    | none => normalizedCitations normalizeUrl seen rest
    | some url =>
      if url ∈ seen then normalizedCitations normalizeUrl seen rest
      else { citation with url } :: normalizedCitations normalizeUrl (url :: seen) rest

/-- `normalizedResult`, of a result the server sent. -/
def normalizedResult (normalizeUrl : String → Option String) (r : GroundedResult) : NormalizedResult where
  resultId := r.resultId
  workerId := r.workerId
  turnId := r.turnId
  timestamp := r.timestamp
  text := r.text
  spokenText := r.spokenText
  uiText := r.text
  originEpoch := r.originEpoch
  citations := normalizedCitations normalizeUrl [] r.citations

/-- `projectedWorker`: a worker without an id is none. -/
def projectedWorker (w : WorkerState) : Option WorkerState := if w.workerId = "" then none else some w

/-- `projectedSpeech`. -/
def projectedSpeech (p : SpeechProgress) : Option SpeechProgress := if p.utteranceId = "" then none else some p

/-- `projectedWorkStatus`. -/
def projectedWorkStatus (s : WorkStatus) : Option WorkStatus := if s.turnId = "" then none else some s

/-- The browser's name for a key of the ledger. -/
def browserKey (k : WorkStatusKey) : String :=
  k.originEpoch.elim "" toString ++ "::" ++ k.turnId ++ "::" ++ k.parentKey

/-- `workStatusKey`. -/
def workStatusKey (s : WorkStatus) : String := browserKey (WorkStatusLedger.restoredKey s)

/-! ## Retention -/

/-- A work-status record, with the stamps of the browser's clock. -/
structure StampedStatus where
  status : WorkStatus
  terminalSince : Option ℚ := none
  restoredAt : Option ℚ := none
  deriving DecidableEq

/-- `expiryStamp`. -/
def StampedStatus.expiryStamp (r : StampedStatus) : Option ℚ := r.terminalSince.or r.restoredAt

/-- The work-status records of a view, and its tombstones. -/
structure StatusBoard where
  workStatus : Dict String StampedStatus := ∅
  tombstones : Dict String ℕ := ∅
  deriving DecidableEq

namespace StatusBoard

/-- `WORK_STATUS_TERMINAL_TTL_MS`. -/
def ttlMs (cfg : RetentionConfig) : ℚ := cfg.ttlSeconds * 1000

/-- The keys `pruneExpiredWorkStatus` drops. -/
def expired (cfg : RetentionConfig) (workStatus : Dict String StampedStatus) (now : ℚ) : List String :=
  workStatus.keys.filter fun key =>
    ((workStatus.get? key).bind StampedStatus.expiryStamp).any fun stamp => ttlMs cfg ≤ now - stamp

/-- The record `evictOldestWorkStatus` drops next. -/
def oldest (workStatus : Dict String StampedStatus) (protectKey : String) : Option String :=
  let stampOf (key : String) : Option ℚ := (workStatus.get? key).bind StampedStatus.expiryStamp
  (workStatus.keys.filter fun key => key ≠ protectKey ∧ (stampOf key).isSome).argmin fun key =>
    (stampOf key).getD 0

/-- `evictOldestWorkStatus`: the keys it drops, in order, in at most so many rounds. -/
def evicted (cfg : RetentionConfig) (protectKey : String) : ℕ → Dict String StampedStatus → List String
  | 0, _ => []
  | rounds + 1, workStatus =>
    if cfg.maxKeys < workStatus.keys.length then
      match oldest workStatus protectKey with
      | none => []
      | some key => key :: evicted cfg protectKey rounds (workStatus.pop key)
    else []

/-- `rememberDroppedWorkStatus`: tombstones for what is dropped, the oldest of them trimmed. -/
def remember (cfg : RetentionConfig) (tombstones : Dict String ℕ) (dropped : List (String × StampedStatus)) :
    Dict String ℕ :=
  if dropped = [] then tombstones
  else
    let next := dropped.foldl (fun t entry =>
      t.set entry.1 (max ((t.get? entry.1).getD 0) entry.2.status.eventSequence)) tombstones
    (next.keys.take (next.keys.length - cfg.maxKeys)).foldl Dict.pop next

/-- The stamps a record gets. -/
def stamp (status : WorkStatus) (now : ℚ) (previous : Option StampedStatus) (isRestore : Bool) : StampedStatus :=
  if status.state.terminal then
    { status, terminalSince := some ((previous.bind (·.terminalSince)).getD now) }
  else if isRestore then { status, restoredAt := some ((previous.bind (·.restoredAt)).getD now) }
  else { status, restoredAt := previous.bind (·.restoredAt) }

/-- `upsertWorkStatus`. -/
def upsert (cfg : RetentionConfig) (b : StatusBoard) (key : String) (status : WorkStatus) (now : ℚ)
    (previous : Option StampedStatus) (isRestore : Bool) : StatusBoard :=
  let written := b.workStatus.set key (stamp status now previous isRestore)
  let expired := expired cfg written now
  let pruned := expired.foldl Dict.pop written
  let evicted := evicted cfg key pruned.keys.length pruned
  let retained := evicted.foldl Dict.pop pruned
  let dropped := (expired ++ evicted).filterMap fun k =>
    if k ≠ key ∨ (retained.get? key).isNone then (written.get? k).map (k, ·) else none
  ⟨retained, remember cfg b.tombstones dropped⟩

/-- A `work_status` increment. -/
def increment (cfg : RetentionConfig) (b : StatusBoard) (s : WorkStatus) (now : ℚ) : StatusBoard :=
  match projectedWorkStatus s with
  | none => b
  | some status =>
    let key := workStatusKey status
    let previous := b.workStatus.get? key
    let last := (previous.map (·.status.eventSequence)).or
      (if previous.isSome then none else b.tombstones.get? key)
    if last.any (status.eventSequence ≤ ·) then b else b.upsert cfg key status now previous false

/-- One record of `snapshotState`; what the snapshot carries supersedes its tombstone. -/
def restoreOne (cfg : RetentionConfig) (before : Dict String StampedStatus) (now : ℚ) (b : StatusBoard)
    (status : WorkStatus) : StatusBoard :=
  let key := workStatusKey status
  let next := b.upsert cfg key status now ((before.get? key).or (b.workStatus.get? key)) true
  { next with tombstones := next.tombstones.pop key }

/-- The work-status part of `snapshotState`. -/
def restore (cfg : RetentionConfig) (b : StatusBoard) (statuses : List WorkStatus) (now : ℚ) : StatusBoard :=
  let restored := (statuses.filterMap projectedWorkStatus).foldl (restoreOne cfg b.workStatus now) ⟨∅, b.tombstones⟩
  { restored with
    tombstones := remember cfg restored.tombstones
      (b.workStatus.entries.filter fun entry => (restored.workStatus.get? entry.1).isNone) }

end StatusBoard

/-! ## The view -/

/-- The server-derived part of the browser's state. -/
structure View where
  workers : List WorkerState := []
  results : List NormalizedResult := []
  speech : Dict String SpeechProgress := ∅
  routing : Option RoutingState := none
  transcript : List TranscriptEntry := []
  board : StatusBoard := {}

namespace View

variable (cfg : RetentionConfig) (normalizeUrl : String → Option String)

/-- `snapshotState`. -/
def install (v : View) (snapshot : RuntimeSnapshot) (now : ℚ) : View where
  workers := snapshot.workers.filterMap projectedWorker
  results := snapshot.results.map (normalizedResult normalizeUrl)
  speech := (snapshot.speechProgress.filterMap projectedSpeech).foldl (fun d p => d.set p.utteranceId p) ∅
  routing := snapshot.routing
  transcript := snapshot.transcript
  board := v.board.restore cfg snapshot.workStatus now

/-- `addResult`. -/
def addResult (v : View) (r : GroundedResult) : View :=
  if r.resultId = "" ∨ v.results.any fun item => item.resultId = r.resultId then v
  else { v with results := v.results ++ [normalizedResult normalizeUrl r] }

/-- `applyIncrement`, with the reading of the clock it makes. -/
def applyIncrement (v : View) (payload : Payload) (now : ℚ) : View :=
  match payload with
  | .result r => v.addResult normalizeUrl r
  | .speechProgress p =>
    match projectedSpeech p with
    | none => v
    | some p => { v with speech := v.speech.set p.utteranceId p }
  | .worker w =>
    match projectedWorker w with
    | none => v
    | some w => { v with workers := v.workers.filter (·.workerId ≠ w.workerId) ++ [w] }
  | .routing r => { v with routing := some r }
  | .workStatus s => { v with board := v.board.increment cfg s now }
  | .transcript t => { v with transcript := v.transcript ++ [t] }

/-- The view after a run of events; `clock` is what the browser reads when it applies an event. -/
def follow (clock : ℕ → ℚ) (v : View) (es : List StateEvent) : View :=
  es.foldl (fun v e => v.applyIncrement cfg normalizeUrl e.payload (clock e.sequence)) v

/-- The worker of an id. -/
def worker (v : View) (workerId : String) : Option WorkerState := v.workers.find? (·.workerId = workerId)

/-- The work-status record of a key, without its stamps. -/
def workStatus (v : View) (key : String) : Option WorkStatus := (v.board.workStatus.get? key).map (·.status)

end View

end Session

end SubagentsLab

import SubagentsLab.Machinery.Text
import SubagentsLab.Speech.Delivery
import SubagentsLab.Status.Ledger
import SubagentsLab.Routing.Catalogue

/-!
# Session/State — the single source of truth

`SessionState` as its writers see it: six mutators, each behind the epoch fence and each emitting one
event when it writes, and the snapshot that says it all at once.  A mutator returns the state it leaves
and the events it emitted.
-/

namespace SubagentsLab

open Machinery

namespace Session

/-! ## Records -/

/-- `WorkerState`. -/
structure WorkerState where
  workerId : String
  topic : String
  modelPolicy : String
  status : String
  latestResultId : Option String := none
  originEpoch : Option ℕ := none
  deriving DecidableEq, Repr

/-- `RoutingState`. -/
structure RoutingState where
  turnId : String
  action : RouteAction
  workerId : Option String := none
  workerType : Option String := none
  topic : Option String := none
  modelPolicy : Option String := none
  originEpoch : Option ℕ := none
  deriving DecidableEq, Repr

/-- `TranscriptEntry.role`. -/
inductive TranscriptRole
  | user
  | assistant
  deriving DecidableEq, Repr

/-- `TranscriptEntry`. -/
structure TranscriptEntry where
  role : TranscriptRole
  text : String
  turnId : String
  timestamp : String
  originEpoch : Option ℕ := none
  deriving DecidableEq, Repr

/-- `Citation`. -/
structure Citation where
  title : String := ""
  url : String
  deriving DecidableEq, Repr

/-- `GroundedResult`: the ids are there, and neither projection is blank. -/
structure GroundedResult where
  resultId : String
  workerId : String
  turnId : String
  timestamp : String
  text : String
  citations : List Citation := []
  spokenText : String
  originEpoch : Option ℕ := none
  identified : resultId ≠ "" ∧ workerId ≠ "" ∧ turnId ≠ "" ∧ timestamp ≠ ""
  projected : Text.strip text ≠ "" ∧ Text.strip spokenText ≠ ""
  deriving DecidableEq

/-- `SpeechProgress`. -/
structure SpeechProgress where
  resultId : String
  workItemId : String
  runId : String
  utteranceId : String
  state : DeliveryState
  originEpoch : Option ℕ := none
  deriving DecidableEq, Repr

/-- What an event carries. -/
inductive Payload
  | worker (w : WorkerState)
  | routing (r : RoutingState)
  | transcript (t : TranscriptEntry)
  | result (r : GroundedResult)
  | speechProgress (p : SpeechProgress)
  | workStatus (s : WorkStatus)
  deriving DecidableEq

/-- The epoch of what an event carries. -/
def Payload.originEpoch : Payload → Option ℤ
  | worker w => w.originEpoch.map Nat.cast
  | routing r => r.originEpoch.map Nat.cast
  | transcript t => t.originEpoch.map Nat.cast
  | result r => r.originEpoch.map Nat.cast
  | speechProgress p => p.originEpoch.map Nat.cast
  | workStatus s => s.originEpoch

/-- `StateEvent`. -/
structure StateEvent where
  sequence : ℕ
  payload : Payload
  deriving DecidableEq

/-- `RuntimeSnapshot`. -/
structure RuntimeSnapshot where
  sessionId : String
  snapshotSequence : ℕ
  workers : List WorkerState
  results : List GroundedResult
  speechProgress : List SpeechProgress
  routing : Option RoutingState
  transcript : List TranscriptEntry
  originEpoch : Option ℕ
  workStatus : List WorkStatus
  deriving DecidableEq

/-! ## The state -/

/-- `SessionState`. -/
structure SessionState where
  sessionId : String
  sequence : ℕ := 0
  workers : Dict String WorkerState := ∅
  results : List GroundedResult := []
  speech : Dict String SpeechProgress := ∅
  routing : Option RoutingState := none
  transcript : List TranscriptEntry := []
  activeEpoch : Option ℕ := none
  ledger : WorkStatusLedger := .empty

namespace SessionState

variable (s : SessionState)

/-- `_emit`. -/
def emit (payload : Payload) : SessionState × List StateEvent :=
  ({ s with sequence := s.sequence + 1 }, [⟨s.sequence + 1, payload⟩])

/-- Whether the fence refuses an epoch. -/
def fenced (originEpoch : Option ℕ) : Bool := s.activeEpoch.isSome && originEpoch ≠ s.activeEpoch

/-- `set_worker`. -/
def setWorker (w : WorkerState) : SessionState × List StateEvent :=
  if s.fenced w.originEpoch then (s, [])
  else emit { s with workers := s.workers.set w.workerId w } (.worker w)

/-- `set_routing`. -/
def setRouting (r : RoutingState) : SessionState × List StateEvent :=
  if s.fenced r.originEpoch then (s, []) else emit { s with routing := some r } (.routing r)

/-- `append_transcript`. -/
def appendTranscript (t : TranscriptEntry) : SessionState × List StateEvent :=
  if s.fenced t.originEpoch then (s, [])
  else if s.transcript.any fun item => item.role = t.role ∧ item.turnId = t.turnId ∧ item.text = t.text then
    (s, [])
  else emit { s with transcript := s.transcript ++ [t] } (.transcript t)

/-- `append_result`. -/
def appendResult (r : GroundedResult) (sequence originEpoch : Option ℕ) : SessionState × List StateEvent :=
  if s.activeEpoch.isSome ∧ originEpoch = none then (s, [])
  else if originEpoch.isSome ∧ r.originEpoch.isSome ∧ originEpoch ≠ r.originEpoch then (s, [])
  else
    let r := { r with originEpoch := r.originEpoch.or originEpoch }
    if s.results.any fun item => item.resultId = r.resultId then (s, [])
    else if s.activeEpoch.isSome ∧ originEpoch.or r.originEpoch ≠ s.activeEpoch then
      emit { s with results := s.results ++ [r] } (.result r)
    else
      let workers :=
        match s.workers.get? r.workerId with
        | none => s.workers
        | some worker => s.workers.set r.workerId { worker with latestResultId := some r.resultId }
      let sequence := if sequence.any (s.sequence < ·) then sequence.getD 0 - 1 else s.sequence
      emit { s with sequence, results := s.results ++ [r], workers } (.result r)

/-- The epoch a result is filed under. -/
def filedResult (r : GroundedResult) (originEpoch : Option ℕ) : GroundedResult :=
  { r with originEpoch := r.originEpoch.or originEpoch }

/-- **What `append_result` can do**: nothing, or file a new result, and move the pointer of its worker when
the fence is open to it. -/
theorem appendResult_cases (r : GroundedResult) (sequence originEpoch : Option ℕ) :
    s.appendResult r sequence originEpoch = (s, []) ∨
      ∃ n workers, s.sequence < n ∧ (s.results.any fun item => item.resultId = r.resultId) = false ∧
        ¬(originEpoch.isSome ∧ r.originEpoch.isSome ∧ originEpoch ≠ r.originEpoch) ∧
        s.appendResult r sequence originEpoch
          = ({ s with sequence := n, results := s.results ++ [filedResult r originEpoch], workers },
              [⟨n, .result (filedResult r originEpoch)⟩]) ∧
        (workers = s.workers ∨ s.fenced originEpoch = false ∧ ∃ worker, s.workers.get? r.workerId = some worker ∧
          workers = s.workers.set r.workerId { worker with latestResultId := some r.resultId }) := by
  rw [appendResult]
  by_cases hunbound : s.activeEpoch.isSome ∧ originEpoch = none
  · exact Or.inl (if_pos hunbound)
  rw [if_neg hunbound]
  by_cases hforeign : originEpoch.isSome ∧ r.originEpoch.isSome ∧ originEpoch ≠ r.originEpoch
  · exact Or.inl (if_pos hforeign)
  rw [if_neg hforeign]
  dsimp only
  by_cases hdup : (s.results.any fun item => item.resultId = r.resultId) = true
  · exact Or.inl (if_pos hdup)
  rw [if_neg hdup]
  have hnew : (s.results.any fun item => item.resultId = r.resultId) = false := by simpa using hdup
  by_cases hlate : s.activeEpoch.isSome ∧ originEpoch.or (r.originEpoch.or originEpoch) ≠ s.activeEpoch
  · rw [if_pos hlate]
    exact Or.inr ⟨_, _, Nat.lt_succ_self _, hnew, hforeign, rfl, Or.inl rfl⟩
  · rw [if_neg hlate]
    have hlater : s.sequence < (if sequence.any (s.sequence < ·) then sequence.getD 0 - 1 else s.sequence) + 1 := by
      split_ifs with hsequence
      · rcases sequence with _ | n
        · cases hsequence
        · rw [Option.any_some, decide_eq_true_eq] at hsequence
          rw [Option.getD_some]
          omega
      · exact Nat.lt_succ_self _
    refine Or.inr ⟨_, _, hlater, hnew, hforeign, rfl, ?_⟩
    have hopen : s.fenced originEpoch = false := by
      rcases hactive : s.activeEpoch with _ | active
      · simp [fenced, hactive]
      · rcases originEpoch with _ | o
        · simp [hactive] at hunbound
        · simpa [fenced, hactive] using hlate
    rcases hget : s.workers.get? r.workerId with _ | worker
    · exact Or.inl rfl
    · exact Or.inr ⟨hopen, worker, rfl, rfl⟩

/-- `speech_progress`. -/
def speechProgress (p : SpeechProgress) (allowStaleReconnect : Bool) : SessionState × List StateEvent :=
  if s.fenced p.originEpoch && !allowStaleReconnect then (s, [])
  else if (s.speech.get? p.utteranceId).any fun previous =>
      previous.state.terminal || p.state.rank < previous.state.rank then
    (s, [])
  else emit { s with speech := s.speech.set p.utteranceId p } (.speechProgress p)

/-- **What `speech_progress` can do**: nothing, or write the record of its utterance. -/
theorem speechProgress_cases (p : SpeechProgress) (allowStaleReconnect : Bool) :
    s.speechProgress p allowStaleReconnect = (s, []) ∨
      (s.fenced p.originEpoch = true → allowStaleReconnect = true) ∧
        s.speechProgress p allowStaleReconnect = emit { s with speech := s.speech.set p.utteranceId p } (.speechProgress p) := by
  rw [speechProgress]
  split_ifs with hfenced
  · exact Or.inl rfl
  · exact Or.inl rfl
  · exact Or.inr ⟨fun h => by simpa [h] using hfenced, rfl⟩

/-- `set_child_work_status`, with the reading of the clock it makes. -/
def setChildWorkStatus (cfg : RetentionConfig) (r : WorkStatusLedger.ChildReport) (now : ℚ) :
    SessionState × List StateEvent :=
  match s.ledger.setChildWorkStatus cfg r now with
  | (ledger, .ok (some status)) => emit { s with ledger } (.workStatus status)
  | (ledger, _) => ({ s with ledger }, [])

/-- `snapshot`, with the reading of the clock it makes; expired records are forgotten on the way. -/
def snapshot (cfg : RetentionConfig) (originEpoch : Option ℕ) (includeWorkStatus : Bool) (now : ℚ) :
    SessionState × RuntimeSnapshot :=
  let r := if includeWorkStatus then s.ledger.workStatusSnapshot cfg now else (s.ledger, [])
  ({ s with ledger := r.1 },
    { sessionId := s.sessionId
      snapshotSequence := s.sequence
      workers := s.workers.values
      results := s.results
      speechProgress := s.speech.values
      routing := s.routing
      transcript := s.transcript
      originEpoch
      workStatus := r.2 })

/-! ## Runs -/

/-- A call of a mutator. -/
inductive Call
  | setWorker (w : WorkerState)
  | setRouting (r : RoutingState)
  | appendTranscript (t : TranscriptEntry)
  | appendResult (r : GroundedResult) (sequence originEpoch : Option ℕ)
  | speechProgress (p : SpeechProgress) (allowStaleReconnect : Bool)
  | setChildWorkStatus (r : WorkStatusLedger.ChildReport) (now : ℚ)
  deriving DecidableEq

/-- One call. -/
def step (cfg : RetentionConfig) (s : SessionState) : Call → SessionState × List StateEvent
  | .setWorker w => s.setWorker w
  | .setRouting r => s.setRouting r
  | .appendTranscript t => s.appendTranscript t
  | .appendResult r sequence originEpoch => s.appendResult r sequence originEpoch
  | .speechProgress p allowStaleReconnect => s.speechProgress p allowStaleReconnect
  | .setChildWorkStatus r now => s.setChildWorkStatus cfg r now

/-- No mutator moves the fence. -/
@[simp] theorem activeEpoch_step (cfg : RetentionConfig) (s : SessionState) (c : Call) :
    (s.step cfg c).1.activeEpoch = s.activeEpoch := by
  cases c with
  | setWorker w =>
    rw [step, setWorker]
    split_ifs <;> rfl
  | setRouting r =>
    rw [step, setRouting]
    split_ifs <;> rfl
  | appendTranscript t =>
    rw [step, appendTranscript]
    split_ifs <;> rfl
  | appendResult r sequence originEpoch =>
    rw [step]
    rcases s.appendResult_cases r sequence originEpoch with hout | ⟨n, workers, -, -, -, hout, -⟩ <;> rw [hout]
  | speechProgress p allowStaleReconnect =>
    rw [step]
    rcases s.speechProgress_cases p allowStaleReconnect with hout | ⟨-, hout⟩ <;> rw [hout]
    rfl
  | setChildWorkStatus r now =>
    rw [step, setChildWorkStatus]
    split <;> rfl

@[simp] theorem sessionId_step (cfg : RetentionConfig) (s : SessionState) (c : Call) :
    (s.step cfg c).1.sessionId = s.sessionId := by
  cases c with
  | setWorker w =>
    rw [step, setWorker]
    split_ifs <;> rfl
  | setRouting r =>
    rw [step, setRouting]
    split_ifs <;> rfl
  | appendTranscript t =>
    rw [step, appendTranscript]
    split_ifs <;> rfl
  | appendResult r sequence originEpoch =>
    rw [step]
    rcases s.appendResult_cases r sequence originEpoch with hout | ⟨n, workers, -, -, -, hout, -⟩ <;> rw [hout]
  | speechProgress p allowStaleReconnect =>
    rw [step]
    rcases s.speechProgress_cases p allowStaleReconnect with hout | ⟨-, hout⟩ <;> rw [hout]
    rfl
  | setChildWorkStatus r now =>
    rw [step, setChildWorkStatus]
    split <;> rfl

/-- **Speech records are written by `speech_progress` only**, each by reports of its own utterance. -/
theorem speech_step (cfg : RetentionConfig) (s : SessionState) (c : Call) (utteranceId : String) :
    (s.step cfg c).1.speech.get? utteranceId = s.speech.get? utteranceId ∨
      ∃ p allowStaleReconnect, c = .speechProgress p allowStaleReconnect ∧ p.utteranceId = utteranceId ∧
        (s.fenced p.originEpoch = true → allowStaleReconnect = true) ∧
        (s.step cfg c).1.speech.get? utteranceId = some p := by
  cases c with
  | setWorker w =>
    rw [step, setWorker]
    split_ifs <;> exact Or.inl rfl
  | setRouting r =>
    rw [step, setRouting]
    split_ifs <;> exact Or.inl rfl
  | appendTranscript t =>
    rw [step, appendTranscript]
    split_ifs <;> exact Or.inl rfl
  | appendResult r sequence originEpoch =>
    rw [step]
    rcases s.appendResult_cases r sequence originEpoch with hout | ⟨n, workers, -, -, -, hout, -⟩ <;> rw [hout] <;>
      exact Or.inl rfl
  | speechProgress p allowStaleReconnect =>
    rw [step]
    rcases s.speechProgress_cases p allowStaleReconnect with hout | ⟨hopen, hout⟩
    · rw [hout]
      exact Or.inl rfl
    · rw [hout]
      by_cases hself : utteranceId = p.utteranceId
      · refine Or.inr ⟨p, _, rfl, hself.symm, hopen, ?_⟩
        exact (Dict.get?_set _ _ _ _).trans (if_pos hself)
      · exact Or.inl ((Dict.get?_set _ _ _ _).trans (if_neg hself))
  | setChildWorkStatus r now =>
    rw [step, setChildWorkStatus]
    split <;> exact Or.inl rfl

/-- **A call raises at most one event**, and numbers it past everything before. -/
theorem step_events (cfg : RetentionConfig) (s : SessionState) (c : Call) :
    (s.step cfg c).2 = [] ∧ (s.step cfg c).1.sequence = s.sequence ∨
      ∃ event, (s.step cfg c).2 = [event] ∧ event.sequence = (s.step cfg c).1.sequence ∧
        s.sequence < (s.step cfg c).1.sequence := by
  have hemit : ∀ (s' : SessionState) (payload : Payload), s.sequence ≤ s'.sequence →
      ∃ event, (s'.emit payload).2 = [event] ∧ event.sequence = (s'.emit payload).1.sequence ∧
        s.sequence < (s'.emit payload).1.sequence :=
    fun s' payload hle => ⟨_, rfl, rfl, Nat.lt_succ_of_le hle⟩
  cases c with
  | setWorker w =>
    rw [step, setWorker]
    split_ifs
    · exact Or.inl ⟨rfl, rfl⟩
    · exact Or.inr (hemit _ _ le_rfl)
  | setRouting r =>
    rw [step, setRouting]
    split_ifs
    · exact Or.inl ⟨rfl, rfl⟩
    · exact Or.inr (hemit _ _ le_rfl)
  | appendTranscript t =>
    rw [step, appendTranscript]
    split_ifs
    · exact Or.inl ⟨rfl, rfl⟩
    · exact Or.inl ⟨rfl, rfl⟩
    · exact Or.inr (hemit _ _ le_rfl)
  | appendResult r sequence originEpoch =>
    rw [step]
    rcases s.appendResult_cases r sequence originEpoch with hout | ⟨n, workers, hn, -, -, hout, -⟩
    · rw [hout]
      exact Or.inl ⟨rfl, rfl⟩
    · rw [hout]
      exact Or.inr ⟨_, rfl, rfl, hn⟩
  | speechProgress p allowStaleReconnect =>
    rw [step]
    rcases s.speechProgress_cases p allowStaleReconnect with hout | ⟨-, hout⟩
    · rw [hout]
      exact Or.inl ⟨rfl, rfl⟩
    · rw [hout]
      exact Or.inr (hemit _ _ le_rfl)
  | setChildWorkStatus r now =>
    rw [step, setChildWorkStatus]
    split
    · exact Or.inr (hemit _ _ le_rfl)
    · exact Or.inl ⟨rfl, rfl⟩

end SessionState

/-- A move of the session: a call of a mutator, or the host putting another epoch in charge. -/
inductive Move
  | call (c : SessionState.Call)
  | activate (originEpoch : Option ℕ)
  deriving DecidableEq

/-- What a move makes of the state, and the events it raises. -/
def Move.apply (cfg : RetentionConfig) (s : SessionState) : Move → SessionState × List StateEvent
  | call c => s.step cfg c
  | activate originEpoch => ({ s with activeEpoch := originEpoch }, [])

theorem Move.apply_events (cfg : RetentionConfig) (s : SessionState) (m : Move) :
    (m.apply cfg s).2 = [] ∧ (m.apply cfg s).1.sequence = s.sequence ∨
      ∃ event, (m.apply cfg s).2 = [event] ∧ event.sequence = (m.apply cfg s).1.sequence ∧
        s.sequence < (m.apply cfg s).1.sequence := by
  cases m with
  | call c => exact s.step_events cfg c
  | activate originEpoch => exact Or.inl ⟨rfl, rfl⟩

theorem Move.sessionId_apply (cfg : RetentionConfig) (s : SessionState) (m : Move) :
    (m.apply cfg s).1.sessionId = s.sessionId := by
  cases m with
  | call c => exact s.sessionId_step cfg c
  | activate originEpoch => rfl

end Session

end SubagentsLab

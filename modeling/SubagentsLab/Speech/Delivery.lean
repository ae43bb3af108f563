import SubagentsLab.Speech.Generation

/-!
# Speech/Delivery — the delivery record of an utterance

`SessionState` keeps one record per utterance id.  A record only ever moves up the ranks, and a
**terminal** one is final: whatever is reported later, it stays (`speechProgress_of_terminal`).
Reports from another epoch are ignored, unless they come with a reconnect.
-/

namespace SubagentsLab

/-- `DeliveryState`. -/
inductive DeliveryState
  | displayed
  | queued
  | started
  | synthesisEnded
  | deliveryCompleted
  | deliveryUnknown
  | interrupted
  | interruptedByReconnect
  | paused
  | resumed
  deriving DecidableEq, Repr

namespace DeliveryState

/-- `_TERMINAL`. -/
def terminal : DeliveryState → Bool
  | deliveryCompleted | deliveryUnknown | interrupted | interruptedByReconnect => true
  | _ => false

/-- `_RANK`. -/
def rank : DeliveryState → ℕ
  | displayed => 0
  | queued => 1
  | started | resumed => 2
  | synthesisEnded | paused => 3
  | deliveryUnknown => 5
  | deliveryCompleted => 6
  | interrupted => 7
  | interruptedByReconnect => 8

/-- Every terminal state outranks every other. -/
theorem rank_lt {a b : DeliveryState} (ha : a.terminal = false) (hb : b.terminal = true) :
    a.rank < b.rank := by
  revert ha hb
  cases a <;> cases b <;> decide

end DeliveryState

/-- `SpeechProgress`. -/
structure SpeechProgress where
  resultId : Option String
  workItemId : String
  runId : String
  utteranceId : UtteranceId
  state : DeliveryState
  originEpoch : Option ℤ
  deriving DecidableEq, Repr

/-- What `SessionState` keeps of speech. -/
structure SessionState where
  activeEpoch : Option ℤ := none
  speech : UtteranceId → Option SpeechProgress := fun _ => none

namespace SessionState

variable (s : SessionState)

/-- `speech_progress`. -/
def speechProgress (p : SpeechProgress) (allowStaleReconnect : Bool) : SessionState :=
  if s.activeEpoch.isSome && !allowStaleReconnect && p.originEpoch ≠ s.activeEpoch then s
  else
    match s.speech p.utteranceId with
    | none => { s with speech := Function.update s.speech p.utteranceId (some p) }
    | some previous =>
      if previous.state.terminal || p.state.rank < previous.state.rank then s
      else { s with speech := Function.update s.speech p.utteranceId (some p) }

/-- Whether the record of an utterance is terminal, if it has one. -/
def standing (u : UtteranceId) : Option Bool := (s.speech u).map (·.state.terminal)

/-- The epoch fence lets the report through. -/
def Admits (p : SpeechProgress) (stale : Bool) : Prop :=
  stale = true ∨ p.originEpoch = s.activeEpoch

variable {s} {p : SpeechProgress} {stale : Bool} {u : UtteranceId}

@[simp] theorem speechProgress_activeEpoch :
    (s.speechProgress p stale).activeEpoch = s.activeEpoch := by
  rw [speechProgress]
  split_ifs
  · rfl
  · split
    · rfl
    · split_ifs <;> rfl

/-- A report touches the record of its own utterance only. -/
theorem speechProgress_of_ne (h : u ≠ p.utteranceId) :
    (s.speechProgress p stale).speech u = s.speech u := by
  rw [speechProgress]
  split_ifs
  · rfl
  · split
    · simp [h]
    · split_ifs <;> simp [h]

/-- **A terminal record is final.** -/
theorem speechProgress_of_terminal {q : SpeechProgress} (hq : s.speech u = some q)
    (hterm : q.state.terminal = true) : (s.speechProgress p stale).speech u = some q := by
  rcases eq_or_ne u p.utteranceId with rfl | hne
  · rw [speechProgress]
    split_ifs
    · exact hq
    · simp [hq, hterm]
  · rw [speechProgress_of_ne hne, hq]

theorem standing_of_ne (h : u ≠ p.utteranceId) :
    (s.speechProgress p stale).standing u = s.standing u := by
  rw [standing, speechProgress_of_ne h, standing]

theorem speechProgress_of_admits (h : s.Admits p stale) :
    s.speechProgress p stale =
      match s.speech p.utteranceId with
      | none => { s with speech := Function.update s.speech p.utteranceId (some p) }
      | some previous =>
        if previous.state.terminal || p.state.rank < previous.state.rank then s
        else { s with speech := Function.update s.speech p.utteranceId (some p) } := by
  rw [speechProgress, if_neg]
  rcases h with rfl | h <;> simp_all

/-- A terminal report closes the record. -/
theorem standing_of_terminal (h : s.Admits p stale) (hterm : p.state.terminal = true) :
    (s.speechProgress p stale).standing p.utteranceId = some true := by
  rw [speechProgress_of_admits h]
  rcases hq : s.speech p.utteranceId with _ | q
  · simp [standing, hterm]
  · rcases hqt : q.state.terminal with _ | _
    · have hrank := DeliveryState.rank_lt hqt hterm
      simp [standing, hqt, hterm, Nat.not_lt.mpr hrank.le]
    · simp [standing, hq, hqt]

/-- A report that is not terminal leaves the standing of a record as it is. -/
theorem standing_of_progress (hterm : p.state.terminal = false) (hsome : s.standing u ≠ none) :
    (s.speechProgress p stale).standing u = s.standing u := by
  rcases eq_or_ne u p.utteranceId with rfl | hne
  · rcases hq : s.speech p.utteranceId with _ | q
    · simp [standing, hq] at hsome
    · rw [speechProgress]
      split_ifs
      · rfl
      · rcases hqt : q.state.terminal with _ | _
        · simp only [hq, hqt, Bool.false_or, decide_eq_true_eq]
          split_ifs
          · rfl
          · simp [standing, hq, hqt, hterm]
        · simp [hq, hqt]
  · exact standing_of_ne hne

/-- No report removes a record. -/
theorem standing_ne_none (hsome : s.standing u ≠ none) :
    (s.speechProgress p stale).standing u ≠ none := by
  rcases eq_or_ne u p.utteranceId with rfl | hne
  · rw [speechProgress]
    split_ifs
    · exact hsome
    · split
      · simp [standing]
      · split_ifs
        · exact hsome
        · simp [standing]
  · rwa [standing_of_ne hne]

/-- The first report of an utterance opens its record. -/
theorem standing_of_first (h : s.Admits p stale) (hterm : p.state.terminal = false)
    (hnone : s.standing p.utteranceId = none) :
    (s.speechProgress p stale).standing p.utteranceId = some false := by
  have hq : s.speech p.utteranceId = none := by simpa [standing] using hnone
  rw [speechProgress_of_admits h, hq]
  simp [standing, hterm]

end SessionState

end SubagentsLab

import Mathlib.Data.Finset.Insert

/-!
# Status/Vocabulary — the coarse work-status contract

The wire vocabulary of `server/contracts.py`: the six coarse states, the transition table of one
delegated child, and `WorkStatus` itself, whose validators are fields of the structure — a status
with a reason on a state other than `failed` cannot be built.  `WorkStatus.validate` is the
constructor call that can raise.
-/

namespace SubagentsLab

/-- `WorkStatusState`. -/
inductive WorkStatusState
  | routing | searching | background | resultReady | failed | cancelled
deriving DecidableEq, Repr

/-- `TerminalReason`. -/
inductive TerminalReason
  | missingWorker | retentionRejected
deriving DecidableEq, Repr

namespace WorkStatusState

/-- `_WORK_STATUS_TRANSITIONS`: the states that may follow. -/
def transitions : WorkStatusState → List WorkStatusState
  | routing => [searching, failed, cancelled]
  | searching => [background, resultReady, failed, cancelled]
  | background => [resultReady, failed, cancelled]
  | resultReady => []
  | failed => []
  | cancelled => []

/-- `WORK_STATUS_TERMINAL`: the states nothing follows. -/
def terminal (s : WorkStatusState) : Bool := s.transitions.isEmpty

/-- `WORK_STATUS_COLD_START`: the states a work item may be recorded at with no status before. -/
def coldStart : List WorkStatusState := [routing, searching, background, resultReady, failed]

end WorkStatusState

open WorkStatusState

/-- `legal_work_status_transition`. -/
def legalWorkStatusTransition : Option WorkStatusState → WorkStatusState → Bool
  | none, state => state ∈ coldStart
  | some previous, state => previous ≠ state && state ∈ previous.transitions

/-- **A terminal child is settled**: no state may follow it. -/
theorem legalWorkStatusTransition_terminal {previous state : WorkStatusState}
    (h : legalWorkStatusTransition (some previous) state = true) : previous.terminal = false := by
  cases previous <;> cases state <;> first | rfl | simp [legalWorkStatusTransition, transitions] at h

/-! ## The record -/

/-- What `WorkStatus` refuses: a `turn_id` shorter than one character, a negative `origin_epoch`, and
a reason on a state other than `failed`. -/
inductive WorkStatusError
  | turnIdTooShort | originEpochNegative | terminalReasonWithoutFailed
deriving DecidableEq, Repr

/-- The message of the model validator; the two field checks are the validation library's own. -/
def WorkStatusError.message : WorkStatusError → Option String
  | terminalReasonWithoutFailed => some "terminal_reason may only be set for the failed state"
  | turnIdTooShort => none
  | originEpochNegative => none

/-- `WorkStatus`, with its validators as fields. -/
@[ext]
structure WorkStatus where
  turnId : String
  workItemId : Option String
  workerId : Option String
  state : WorkStatusState
  eventSequence : ℕ
  terminalReason : Option TerminalReason
  originEpoch : Option ℤ
  turnId_ne : turnId ≠ ""
  originEpoch_nonneg : ∀ e ∈ originEpoch, 0 ≤ e
  failed_of_reason : terminalReason.isSome → state = .failed

instance : DecidableEq WorkStatus := fun a b =>
  decidable_of_iff (a.turnId = b.turnId ∧ a.workItemId = b.workItemId ∧ a.workerId = b.workerId ∧
    a.state = b.state ∧ a.eventSequence = b.eventSequence ∧ a.terminalReason = b.terminalReason ∧
    a.originEpoch = b.originEpoch) WorkStatus.ext_iff.symm

/-- `WorkStatus(...)`: the field checks, then the model validator. -/
def WorkStatus.validate (turnId : String) (workItemId workerId : Option String)
    (state : WorkStatusState) (eventSequence : ℕ) (terminalReason : Option TerminalReason)
    (originEpoch : Option ℤ) : Except WorkStatusError WorkStatus :=
  if ht : turnId = "" then .error .turnIdTooShort
  else if he : ∀ e ∈ originEpoch, 0 ≤ e then
    if hr : terminalReason.isSome → state = .failed then
      .ok ⟨turnId, workItemId, workerId, state, eventSequence, terminalReason, originEpoch, ht, he, hr⟩
    else .error .terminalReasonWithoutFailed
  else .error .originEpochNegative

/-- A status that passes carries the fields it was built from. -/
theorem WorkStatus.eq_of_validate {turnId : String} {workItemId workerId : Option String}
    {state : WorkStatusState} {eventSequence : ℕ} {terminalReason : Option TerminalReason}
    {originEpoch : Option ℤ} {status : WorkStatus}
    (h : validate turnId workItemId workerId state eventSequence terminalReason originEpoch
      = .ok status) :
    status.turnId = turnId ∧ status.workItemId = workItemId ∧ status.state = state ∧
      status.eventSequence = eventSequence ∧ status.terminalReason = terminalReason ∧
      status.originEpoch = originEpoch := by
  unfold validate at h
  split at h
  · cases h
  split at h
  · split at h
    · cases h
      exact ⟨rfl, rfl, rfl, rfl, rfl, rfl⟩
    · cases h
  · cases h

/-! ## The join of the children -/

/-- `SessionState._aggregate`: the coarse state of a parent whose children are the given ones, in the
order they were first reported, with the first reason a failed child names. -/
def aggregate (children : List WorkStatus) : WorkStatusState × Option TerminalReason :=
  if children.any (·.state = .routing) then (.routing, none)
  else if children.any (·.state = .searching) then (.searching, none)
  else if children.any (!·.state.terminal) then (.background, none)
  else
    let failed := children.filter (·.state = .failed)
    if !failed.isEmpty then (.failed, failed.findSome? (·.terminalReason))
    else if children.all (·.state = .cancelled) then (.cancelled, none)
    else (.resultReady, none)

/-- **A terminal join has only terminal children.** -/
theorem terminal_of_aggregate {children : List WorkStatus}
    (h : (aggregate children).1.terminal = true) : ∀ c ∈ children, c.state.terminal = true := by
  unfold aggregate at h
  split at h
  · cases h
  split at h
  · cases h
  split at h
  · cases h
  · rename_i hnone
    simpa using hnone

/-- …and a join over a live child is live. -/
theorem aggregate_terminal_iff (children : List WorkStatus) :
    (aggregate children).1.terminal = true ↔ ∀ c ∈ children, c.state.terminal = true := by
  refine ⟨terminal_of_aggregate, fun h => ?_⟩
  have hr : children.any (·.state = .routing) = false := by
    rw [List.any_eq_false]
    intro c hc hroute
    have := h c hc
    rw [of_decide_eq_true hroute] at this
    cases this
  have hs : children.any (·.state = .searching) = false := by
    rw [List.any_eq_false]
    intro c hc hsearch
    have := h c hc
    rw [of_decide_eq_true hsearch] at this
    cases this
  have hb : children.any (!·.state.terminal) = false := by
    rw [List.any_eq_false]
    intro c hc
    simp [h c hc]
  unfold aggregate
  rw [if_neg (by simp [hr]), if_neg (by simp [hs]), if_neg (by simp [hb])]
  dsimp only
  split
  · rfl
  split <;> rfl

/-- Only a failed join names a reason. -/
theorem failed_of_aggregate_reason (children : List WorkStatus)
    (h : (aggregate children).2.isSome) : (aggregate children).1 = .failed := by
  unfold aggregate at h ⊢
  dsimp only at h ⊢
  split_ifs at h ⊢ <;> first | rfl | cases h

end SubagentsLab

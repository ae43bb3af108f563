import SubagentsLab.Session.View

/-!
# Session/Browser — which messages the browser takes

`applyServerMessage` of `web/src/state.js`, with the numbers it keeps: a snapshot is installed unless it is
stale or of an older epoch, an increment is applied only when it is the very next one.  The branch a message
takes is its `Reception`.
-/

namespace SubagentsLab

open Machinery

namespace Session

/-- The server-derived part of the browser's state, and what it knows of the server. -/
structure Browser where
  view : View := {}
  sessionId : Option String := none
  connectionEpoch : Option ℕ := none
  serverState : Bool := false
  lastAppliedSequence : ℕ := 0
  lastSnapshotSequence : ℕ := 0
  gaps : ℕ := 0
  snapshotRequestPending : Bool := false
  snapshotRequestCount : ℕ := 0

/-- A state message on the wire. -/
inductive Message
  | snapshot (s : RuntimeSnapshot)
  | increment (sessionId : String) (sequence : ℕ) (originEpoch : ℕ) (payload : Payload)
  deriving DecidableEq

/-- What becomes of a message. -/
inductive Reception
  | foreignSession
  | foreignEpoch
  | staleSnapshot
  | olderEpoch
  | installed
  | beforeSnapshot
  | old
  | awaitingSnapshot
  | belowSnapshot
  | gap
  | applied
  deriving DecidableEq, Repr

namespace Browser

variable (cfg : RetentionConfig) (normalizeUrl : String → Option String)

/-- A session id JavaScript takes for true. -/
def known (sessionId : Option String) : Bool := sessionId.any (· ≠ "")

/-- A snapshot of another session starts the browser over; its tally of gaps is its own. -/
def forSession (b : Browser) (s : RuntimeSnapshot) : Browser :=
  if known b.sessionId ∧ s.sessionId ≠ "" ∧ b.sessionId ≠ some s.sessionId then { gaps := b.gaps } else b

/-- The branch `applyServerMessage` takes. -/
def reception (b : Browser) : Message → Reception
  | .snapshot s =>
    let b := b.forSession s
    if s.snapshotSequence < max b.lastAppliedSequence b.lastSnapshotSequence then .staleSnapshot
    else if b.connectionEpoch.any fun epoch => s.originEpoch.any (· < epoch) then .olderEpoch
    else .installed
  | .increment sessionId sequence originEpoch _ =>
    if known b.sessionId ∧ b.sessionId ≠ some sessionId then .foreignSession
    else if b.connectionEpoch.isSome ∧ b.connectionEpoch ≠ some originEpoch then .foreignEpoch
    else if b.serverState = false then .beforeSnapshot
    else if sequence = 0 ∨ sequence ≤ b.lastAppliedSequence then .old
    else if b.snapshotRequestPending then .awaitingSnapshot
    else if sequence < b.lastSnapshotSequence then .belowSnapshot
    else if sequence ≠ b.lastAppliedSequence + 1 then .gap
    else .applied

/-- `snapshotState`. -/
def snapshotState (b : Browser) (s : RuntimeSnapshot) (now : ℚ) : Browser :=
  { b with
    view := b.view.install cfg normalizeUrl s now
    sessionId := some s.sessionId
    connectionEpoch := s.originEpoch.or b.connectionEpoch
    serverState := true
    lastAppliedSequence := s.snapshotSequence
    lastSnapshotSequence := max b.lastSnapshotSequence s.snapshotSequence
    snapshotRequestPending := false }

/-- `applyServerMessage`, with the reading of the clock it makes. -/
def applyServerMessage (b : Browser) (m : Message) (now : ℚ) : Browser :=
  match m with
  | .snapshot s =>
    if b.reception m = .installed then (b.forSession s).snapshotState cfg normalizeUrl s now else b.forSession s
  | .increment _ sequence _ payload =>
    match b.reception m with
    | .gap =>
      { b with
        gaps := b.gaps + 1
        snapshotRequestPending := true
        snapshotRequestCount := b.snapshotRequestCount + 1 }
    | .applied =>
      { b with
        view := b.view.applyIncrement cfg normalizeUrl payload now
        lastAppliedSequence := sequence
        snapshotRequestPending := false }
    | _ => b

variable {cfg normalizeUrl} {b : Browser}

theorem known_some {sessionId : String} : known (some sessionId) = true ↔ sessionId ≠ "" := by
  rw [known, Option.any_some, decide_eq_true_eq]

/-- A snapshot of the session the browser is in, or of its first, does not start it over. -/
theorem forSession_eq {s : RuntimeSnapshot} (h : ∀ sessionId, b.sessionId = some sessionId → sessionId = s.sessionId) :
    b.forSession s = b := by
  rw [forSession, if_neg]
  rintro ⟨hknown, -, hne⟩
  rcases hsession : b.sessionId with _ | sessionId
  · rw [hsession] at hknown
    exact Bool.false_ne_true hknown
  · exact hne (by rw [hsession, h sessionId hsession])

/-- An increment that is neither applied nor a gap changes nothing. -/
theorem applyServerMessage_ignored {sessionId : String} {sequence originEpoch : ℕ} {payload : Payload}
    (hgap : b.reception (.increment sessionId sequence originEpoch payload) ≠ .gap)
    (happlied : b.reception (.increment sessionId sequence originEpoch payload) ≠ .applied) (now : ℚ) :
    b.applyServerMessage cfg normalizeUrl (.increment sessionId sequence originEpoch payload) now = b := by
  rw [applyServerMessage]
  split
  · exact absurd ‹_› hgap
  · exact absurd ‹_› happlied
  · rfl

/-- A snapshot of the browser's session that is not installed changes nothing. -/
theorem applyServerMessage_refused {s : RuntimeSnapshot} (hsame : b.forSession s = b)
    (hinstalled : b.reception (.snapshot s) ≠ .installed) (now : ℚ) :
    b.applyServerMessage cfg normalizeUrl (.snapshot s) now = b := by
  rw [applyServerMessage, if_neg hinstalled, hsame]

/-- **What is applied is the very next increment**, of the browser's session and epoch. -/
theorem reception_applied {sessionId : String} {sequence originEpoch : ℕ} {payload : Payload}
    (h : b.reception (.increment sessionId sequence originEpoch payload) = .applied) :
    b.serverState = true ∧ sequence = b.lastAppliedSequence + 1 ∧ b.snapshotRequestPending = false ∧
      (known b.sessionId → b.sessionId = some sessionId) ∧
      (b.connectionEpoch.isSome → b.connectionEpoch = some originEpoch) := by
  rw [reception] at h
  split_ifs at h with hsession hepoch hstate hold hpending hbelow hgap
  refine ⟨by simpa using hstate, by simpa using hgap, by simpa using hpending, fun hknown => ?_, fun hsome => ?_⟩
  · by_contra hne
    exact hsession ⟨hknown, hne⟩
  · by_contra hne
    exact hepoch ⟨hsome, hne⟩

/-- **What is installed is no older than what was applied**, nor of an older epoch. -/
theorem reception_installed {s : RuntimeSnapshot} (h : b.reception (.snapshot s) = .installed) :
    max (b.forSession s).lastAppliedSequence (b.forSession s).lastSnapshotSequence ≤ s.snapshotSequence ∧
      ∀ epoch originEpoch, (b.forSession s).connectionEpoch = some epoch → s.originEpoch = some originEpoch →
        epoch ≤ originEpoch := by
  rw [reception] at h
  split_ifs at h with hstale hepoch
  refine ⟨Nat.not_lt.mp hstale, fun epoch originEpoch hb hs => ?_⟩
  by_contra hlt
  exact hepoch (by simpa [hb, hs] using hlt)

end Browser

end Session

end SubagentsLab

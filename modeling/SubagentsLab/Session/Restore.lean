import SubagentsLab.Session.Projection
import SubagentsLab.Status.Lockstep

/-!
# Session/Restore — a state rebuilt from its snapshot, and every call after that

`from_snapshot` rebuilds a `SessionState` from what was on the wire.  From there, or from a fresh state, the
public calls run in any order.  The containers of the ledger stay in lockstep, and a report that raises or is
refused leaves the whole state alone, exactly when every report of the run is proper.
-/

namespace SubagentsLab

open Machinery

namespace Session

variable {cfg : RetentionConfig}

/-! ## Restoring -/

/-- The results of a snapshot, appended one by one to a fresh `ResultLog`; an id that is there already raises. -/
def logResults (results : List GroundedResult) : Option (List GroundedResult) :=
  results.foldlM (fun log r => if log.any fun item => item.resultId = r.resultId then none else some (log ++ [r])) []

/-- `from_snapshot`, with the reading of the clock it makes; `generated` is the session id `__init__` makes up
when the snapshot names none. -/
def SessionState.fromSnapshot (generated : String) (snapshot : RuntimeSnapshot) (restoredAt : ℚ) :
    Option SessionState :=
  (logResults snapshot.results).map fun results =>
    { sessionId := if snapshot.sessionId = "" then generated else snapshot.sessionId
      sequence := snapshot.snapshotSequence
      workers := snapshot.workers.foldl (fun d w => d.set w.workerId w) ∅
      results
      speech := snapshot.speechProgress.foldl (fun d p => d.set p.utteranceId p) ∅
      routing := snapshot.routing
      transcript := snapshot.transcript
      ledger := .fromSnapshot snapshot.workStatus restoredAt }

/-- A state as a process comes by it: fresh under an id, or restored. -/
inductive Opened : SessionState → Prop
  | fresh (sessionId : String) (hid : sessionId ≠ "") : Opened { sessionId }
  | restored {generated : String} {snapshot : RuntimeSnapshot} {restoredAt : ℚ} {s : SessionState}
      (hgenerated : generated ≠ "") (h : SessionState.fromSnapshot generated snapshot restoredAt = some s) : Opened s

/-! ## Every call -/

/-- A call on a state: a mutator, a new epoch for the fence, or the prune that `prune_expired_work_status` is
and that every snapshot with work status makes. -/
inductive Act
  | move (m : Move)
  | prune (now : ℚ)
  deriving DecidableEq

/-- What a call makes of the state, and the events it raises. -/
def Act.apply (cfg : RetentionConfig) (s : SessionState) : Act → SessionState × List StateEvent
  | move m => m.apply cfg s
  | prune now => ({ s with ledger := s.ledger.pruneExpiredWorkStatus cfg now }, [])

/-- A report of a child's work status. -/
abbrev Act.report (r : WorkStatusLedger.ChildReport) (now : ℚ) : Act := .move (.call (.setChildWorkStatus r now))

/-- The state after a run of calls. -/
def acted (cfg : RetentionConfig) (s : SessionState) (as : List Act) : SessionState :=
  run (fun s a => (Act.apply cfg s a).1) s as

/-- **What a call can do to the ledger**: file a report, prune, or nothing. -/
theorem ledger_apply (cfg : RetentionConfig) (s : SessionState) (a : Act) :
    (∃ r now, a = .report r now ∧ (a.apply cfg s).1.ledger = (s.ledger.setChildWorkStatus cfg r now).1) ∨
      (∃ now, a = .prune now ∧ (a.apply cfg s).1.ledger = s.ledger.pruneExpiredWorkStatus cfg now) ∨
      (∀ r now, a ≠ .report r now) ∧ (a.apply cfg s).1.ledger = s.ledger := by
  cases a with
  | prune now => exact Or.inr (Or.inl ⟨now, rfl, rfl⟩)
  | move m =>
    cases m with
    | activate originEpoch => exact Or.inr (Or.inr ⟨fun _ _ => nofun, rfl⟩)
    | call c =>
      by_cases hreport : c.isReport = true
      · cases c with
        | setChildWorkStatus r now =>
          refine Or.inl ⟨r, now, rfl, ?_⟩
          rw [Act.apply, Move.apply, SessionState.step, SessionState.setChildWorkStatus]
          split <;> rename_i heq <;> rw [heq]
          rfl
        | _ => cases hreport
      · refine Or.inr (Or.inr ⟨?_, (s.step_of_not_report cfg (by simpa using hreport)).1⟩)
        rintro r now ⟨⟩
        exact hreport rfl

/-! ## Lockstep over runs -/

/-- **The call is proper**: a report validates, or its move is illegal, or its key has a children map. -/
def Act.Proper (s : SessionState) (a : Act) : Prop := ∀ r now, a = .report r now → r.Proper s.ledger

/-- The call leaves the ledger in lockstep, and the state alone when it is a report that raises or is refused. -/
def Act.Atomic (cfg : RetentionConfig) (s : SessionState) (a : Act) : Prop :=
  (a.apply cfg s).1.ledger.Lockstep ∧
    ∀ r now, a = .report r now → r.Fails cfg s.ledger now → (a.apply cfg s).1 = s

theorem lockstep_opened {s : SessionState} (h : Opened s) : s.ledger.Lockstep := by
  cases h with
  | fresh sessionId => exact WorkStatusLedger.lockstep_empty
  | restored hgenerated h =>
    rw [SessionState.fromSnapshot, Option.map_eq_some_iff] at h
    obtain ⟨results, -, rfl⟩ := h
    exact WorkStatusLedger.lockstep_fromSnapshot _ _

/-- A report that raises or is refused emits nothing: the state is the old one up to its ledger. -/
theorem apply_of_fails {s : SessionState} {r : WorkStatusLedger.ChildReport} {now : ℚ}
    (hfails : r.Fails cfg s.ledger now) :
    ((Act.report r now).apply cfg s).1 = { s with ledger := (s.ledger.setChildWorkStatus cfg r now).1 } := by
  rw [Act.apply, Move.apply, SessionState.step, SessionState.setChildWorkStatus]
  have hstep := WorkStatusLedger.setChildWorkStatus_step cfg s.ledger r now
  rw [WorkStatusLedger.ChildReport.Fails] at hfails
  generalize s.ledger.setChildWorkStatus cfg r now = out at hstep hfails
  obtain ⟨l', res⟩ := out
  cases hstep with
  | written children status hlegal =>
    rcases hfails with ⟨e, he⟩ | hillegal
    · cases he
    · exact absurd hlegal hillegal
  | _ => rfl

/-- **One call is atomic exactly when it is proper.** -/
theorem atomic_iff {s : SessionState} (h : s.ledger.Lockstep) (a : Act) : a.Atomic cfg s ↔ a.Proper s := by
  rcases ledger_apply cfg s a with ⟨r, now, rfl, hledger⟩ | ⟨now, rfl, hledger⟩ | ⟨hother, hledger⟩
  · rw [Act.Atomic, hledger]
    have hiff := WorkStatusLedger.lockstep_report_iff h cfg r now
    constructor
    · rintro ⟨hlock, hkept⟩ r' now' heq
      cases heq
      refine hiff.mp ⟨hlock, fun hfails => ?_⟩
      rw [← hledger, hkept r now rfl hfails]
    · intro hproper
      obtain ⟨hlock, hkept⟩ := hiff.mpr (hproper r now rfl)
      refine ⟨hlock, fun r' now' heq hfails => ?_⟩
      cases heq
      rw [apply_of_fails hfails, hkept hfails]
  · refine ⟨fun _ _ _ => nofun, fun _ => ⟨?_, fun _ _ => nofun⟩⟩
    rw [hledger]
    exact h.forgetAll _
  · refine ⟨fun _ r now hc => absurd hc (hother r now), fun _ => ⟨?_, fun r now hc => absurd hc (hother r now)⟩⟩
    rw [hledger]
    exact h

/-- **The ledger is in lockstep and every failed report is atomic, exactly when every report is proper.**
Over every run of public calls from a fresh or a restored state: the state it starts from is in lockstep, and
every call of the run is atomic if and only if every report among them is proper. -/
theorem lockstep_run_iff (cfg : RetentionConfig) {s : SessionState} (h : Opened s) (as : List Act) :
    s.ledger.Lockstep ∧
      (Guarded (fun s a => (Act.apply cfg s a).1) (fun s a => a.Atomic cfg s) s as ↔
        Guarded (fun s a => (Act.apply cfg s a).1) (fun s a => a.Proper s) s as) := by
  have hlock := lockstep_opened h
  refine ⟨hlock, ?_⟩
  clear h
  induction as generalizing s with
  | nil => exact Iff.rfl
  | cons a as ih =>
    rw [Guarded, Guarded]
    constructor
    · rintro ⟨hatomic, hrest⟩
      exact ⟨(atomic_iff hlock a).mp hatomic, (ih hatomic.1).mp hrest⟩
    · rintro ⟨hproper, hrest⟩
      have hatomic : a.Atomic cfg s := (atomic_iff hlock a).mpr hproper
      exact ⟨hatomic, (ih hatomic.1).mpr hrest⟩

/-- A reason on a report that is not a failure does not validate. -/
def reasonedReport : WorkStatusLedger.ChildReport where
  turnId := "turn-1"
  workItemId := "work-1"
  parentWorkItemId := none
  workerId := none
  state := .searching
  originEpoch := some 1
  terminalReason := some .missingWorker

/-- **A report that raises leaves an empty children map behind.**  On a fresh state, the first report of a key
carries a reason without being a failure: it raises, and its key has children but no record. -/
theorem raised_report_leaves_children :
    Opened { sessionId := "session-1" } ∧
      reasonedReport.Fails retentionConfig (SessionState.ledger { sessionId := "session-1" }) 0 ∧
      ¬(Act.report reasonedReport 0).Atomic retentionConfig { sessionId := "session-1" } := by
  have hraises : reasonedReport.Fails retentionConfig WorkStatusLedger.empty 0 := Or.inl ⟨_, rfl⟩
  refine ⟨.fresh "session-1" (by decide), hraises, fun hatomic => ?_⟩
  have hkeyed := hatomic.1.keyed reasonedReport.key
  revert hkeyed
  decide

/-- A turn of a fresh session: the report of a new child, one that does not validate under the same key, and
a prune. -/
theorem lockstep_run_fresh :
    Opened { sessionId := "session-1" } ∧
      Guarded (fun s a => (Act.apply retentionConfig s a).1) (fun s a => a.Atomic retentionConfig s)
        { sessionId := "session-1" }
        [.report { reasonedReport with terminalReason := none } 0, .report reasonedReport 1, .prune 2] := by
  have hopened : Opened { sessionId := "session-1" } := .fresh "session-1" (by decide)
  refine ⟨hopened, (lockstep_run_iff retentionConfig hopened _).2.mpr ⟨?_, ?_, fun _ _ => nofun, trivial⟩⟩
  · rintro r now ⟨⟩
    decide
  · rintro r now ⟨⟩
    decide

end Session

end SubagentsLab

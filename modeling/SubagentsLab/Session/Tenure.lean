import SubagentsLab.Session.Restore
import SubagentsLab.Status.Restored

/-!
# Session/Tenure — how long a record is kept

A run of calls on a `SessionState` drives its ledger by the reports and prunes among them (`ledger_acted`), and
the `work_status` events it raises are the ledger's.  So what holds of every run of the ledger holds of every run
of the state: live work is never dropped, and a restored key never completes and never outlives its clock.
-/

namespace SubagentsLab

open Machinery

namespace Session

variable {cfg : RetentionConfig}

/-! ## The ledger of a run -/

/-- What a call on the state asks of the ledger. -/
def Act.event? : Act → Option WorkStatusLedger.Event
  | .move (.call (.setChildWorkStatus r now)) => some (.report r now)
  | .prune now => some (.prune now)
  | _ => none

/-- The statuses of the `work_status` events. -/
def workStatuses (events : List StateEvent) : List WorkStatus :=
  events.filterMap fun event =>
    match event.payload with
    | .workStatus status => some status
    | _ => none

theorem workStatuses_eq_nil {events : List StateEvent} (h : ∀ event ∈ events, ∀ status, event.payload ≠ .workStatus status) :
    workStatuses events = [] := by
  rw [workStatuses, List.filterMap_eq_nil_iff]
  intro event hmem
  have hnot := h event hmem
  split
  · rename_i status hpayload
    exact absurd hpayload (hnot status)
  · rfl

/-- **A call does to the ledger what it asks of it**, and raises the ledger's events. -/
theorem apply_event (cfg : RetentionConfig) (s : SessionState) (a : Act) :
    (a.apply cfg s).1.ledger = run (fun l e => (WorkStatusLedger.step cfg l e).1) s.ledger a.event?.toList ∧
      workStatuses (a.apply cfg s).2 = outputs (WorkStatusLedger.step cfg) s.ledger a.event?.toList := by
  cases a with
  | prune now => exact ⟨rfl, rfl⟩
  | move m =>
    cases m with
    | activate originEpoch => exact ⟨rfl, rfl⟩
    | call c =>
      by_cases hreport : c.isReport = true
      · cases c with
        | setChildWorkStatus r now =>
          rw [Act.apply, Move.apply, SessionState.step, SessionState.setChildWorkStatus]
          simp only [Act.event?, Option.toList_some, run_cons, run_nil, outputs, List.append_nil, WorkStatusLedger.step]
          generalize s.ledger.setChildWorkStatus cfg r now = out
          obtain ⟨ledger, e | _ | status⟩ := out
          · exact ⟨rfl, rfl⟩
          · exact ⟨rfl, rfl⟩
          · exact ⟨rfl, rfl⟩
        | _ => cases hreport
      · obtain ⟨hledger, hevents⟩ := s.step_of_not_report cfg (by simpa using hreport)
        have hnone : (Act.move (.call c)).event? = none := by
          cases c with
          | setChildWorkStatus r now => exact absurd rfl hreport
          | _ => rfl
        rw [hnone]
        exact ⟨hledger, workStatuses_eq_nil hevents⟩

theorem workStatuses_append (es fs : List StateEvent) : workStatuses (es ++ fs) = workStatuses es ++ workStatuses fs :=
  List.filterMap_append

/-- **The ledger of a run is the ledger's own run**, and so are its events. -/
theorem ledger_acted (cfg : RetentionConfig) (s : SessionState) (as : List Act) :
    (acted cfg s as).ledger = WorkStatusLedger.after cfg s.ledger (as.filterMap Act.event?) ∧
      workStatuses (outputs (Act.apply cfg) s as)
        = outputs (WorkStatusLedger.step cfg) s.ledger (as.filterMap Act.event?) := by
  induction as generalizing s with
  | nil => exact ⟨rfl, rfl⟩
  | cons a as ih =>
    obtain ⟨hledger, hevents⟩ := apply_event cfg s a
    obtain ⟨hrest, hrestEvents⟩ := ih (a.apply cfg s).1
    have hsplit : (a :: as).filterMap Act.event? = a.event?.toList ++ as.filterMap Act.event? := by
      rw [List.filterMap_cons]
      rcases a.event? with _ | e
      · rfl
      · rfl
    rw [hsplit, WorkStatusLedger.after, run_append, outputs_append, ← hledger, ← hevents, ← hrestEvents,
      ← workStatuses_append]
    exact ⟨hrest, rfl⟩

/-- A state starts on a restored ledger; a fresh one on that of an empty snapshot. -/
theorem ledger_opened {s : SessionState} (h : Opened s) :
    ∃ statuses restoredAt, s.ledger = WorkStatusLedger.fromSnapshot statuses restoredAt := by
  cases h with
  | fresh sessionId => exact ⟨[], 0, rfl⟩
  | restored hgenerated h =>
    rw [SessionState.fromSnapshot, Option.map_eq_some_iff] at h
    obtain ⟨results, -, rfl⟩ := h
    exact ⟨_, _, rfl⟩

/-! ## Live work is never dropped -/

/-- **Bounded retention never drops live work.**  In every state a run of calls reaches, at any readings of the
clock: no call removes a live record, only a report of its own key rewrites it; a report that writes keeps its
own record, drops the oldest of the others first and only those on the clock, and ends within the cap or with
nothing but live records beside its own; and a snapshot carries exactly the records whose time is not up. -/
theorem retention_keeps_live_work (cfg : RetentionConfig) {s : SessionState} (h : Opened s) (as : List Act) :
    (∀ (a : Act) k record, (acted cfg s as).ledger.Live k record →
      ∃ record', (a.apply cfg (acted cfg s as)).1.ledger.parents.get? k = some record' ∧
        (record' = record ∨ (∃ r now, a = .report r now ∧ r.key = k) ∧
          workStatuses (a.apply cfg (acted cfg s as)).2 = [record'.status])) ∧
    (∀ r now status, workStatuses ((Act.report r now).apply cfg (acted cfg s as)).2 = [status] →
      WorkStatusLedger.Wrote cfg (acted cfg s as).ledger ((Act.report r now).apply cfg (acted cfg s as)).1.ledger
        r.key status) ∧
    ∀ originEpoch now, ((acted cfg s as).snapshot cfg originEpoch true now).2.workStatus
      = ((acted cfg s as).ledger.parents.entries.filter fun e =>
          !WorkStatusLedger.expired cfg (acted cfg s as).ledger now e.1).map fun e => e.2.status := by
  obtain ⟨statuses, restoredAt, hopened⟩ := ledger_opened h
  have hclocked : (acted cfg s as).ledger.Clocked := by
    rw [(ledger_acted cfg s as).1, hopened]
    exact WorkStatusLedger.clocked_after cfg statuses restoredAt _
  refine ⟨fun a k record hlive => ?_, fun r now status hwrites => ?_, fun originEpoch now => ?_⟩
  · obtain ⟨hledger, hevents⟩ := apply_event cfg (acted cfg s as) a
    rw [hledger, hevents]
    rcases hevent : a.event? with _ | e
    · exact ⟨record, hlive.1, Or.inl rfl⟩
    · obtain ⟨record', hrecord', hwhy⟩ := WorkStatusLedger.live_step hclocked hlive cfg e
      refine ⟨record', hrecord', hwhy.imp_right ?_⟩
      rintro ⟨r, now, rfl, hkey, hout⟩
      refine ⟨⟨r, now, ?_, hkey⟩, by rw [Option.toList_some, outputs, outputs, List.append_nil, hout]⟩
      cases a with
      | prune now => cases hevent
      | move m =>
        cases m with
        | activate originEpoch => cases hevent
        | call c =>
          cases c with
          | setChildWorkStatus r' now' =>
            cases hevent
            rfl
          | _ => cases hevent
  · obtain ⟨hledger, hevents⟩ := apply_event cfg (acted cfg s as) (.report r now)
    rw [hevents, Act.event?, Option.toList_some, outputs, outputs, List.append_nil, WorkStatusLedger.step] at hwrites
    rw [hledger, Act.event?, Option.toList_some, run_cons, run_nil, WorkStatusLedger.step_report_ledger]
    rcases (hclocked.report cfg r now).2 with ⟨hquiet, -⟩ | ⟨status', hout, -, hwrote⟩
    · generalize (acted cfg s as).ledger.setChildWorkStatus cfg r now = out at hwrites hquiet
      obtain ⟨l', res⟩ := out
      rcases res with e | _ | status'
      · cases hwrites
      · cases hwrites
      · exact absurd rfl (hquiet status')
    · generalize (acted cfg s as).ledger.setChildWorkStatus cfg r now = out at hwrites hout hwrote ⊢
      obtain ⟨l', res⟩ := out
      dsimp only at hout
      subst hout
      cases hwrites
      exact hwrote
  · rw [SessionState.snapshot]
    dsimp only
    rw [if_pos rfl]
    exact WorkStatusLedger.workStatusSnapshot_eq cfg _ now

/-- A child that searches. -/
def searchingReport : WorkStatusLedger.ChildReport := { reasonedReport with terminalReason := none }

/-- A search that goes on for a thousand seconds is still on record after a prune. -/
theorem retention_keeps_search :
    Opened { sessionId := "session-1" } ∧
      ∃ record, ((Act.prune 1000).apply retentionConfig
        (acted retentionConfig { sessionId := "session-1" } [.report searchingReport 0])).1.ledger.parents.get?
          searchingReport.key = some record := by
  have hopened : Opened { sessionId := "session-1" } := .fresh "session-1" (by decide)
  have hstate : ((acted retentionConfig { sessionId := "session-1" } [.report searchingReport 0]).ledger.parents.get?
      searchingReport.key).map (·.status.state.terminal) = some false := by decide
  obtain ⟨record, hrecord, hlive⟩ := Option.map_eq_some_iff.mp hstate
  obtain ⟨record', hrecord', -⟩ := (retention_keeps_live_work retentionConfig hopened [.report searchingReport 0]).1
    (.prune 1000) searchingReport.key record ⟨hrecord, hlive, by decide⟩
  exact ⟨hopened, record', hrecord'⟩

/-! ## Restored keys never complete -/

/-- The tenure of a key that a snapshot carries, after a run of calls on the state restored from it. -/
def restoredTenureAfter (cfg : RetentionConfig) (snapshot : RuntimeSnapshot) (restoredAt : ℚ) (k : WorkStatusKey)
    (as : List Act) : WorkStatusLedger.Tenure :=
  (WorkStatusLedger.restoredTenure snapshot.workStatus restoredAt).after cfg k (as.filterMap Act.event?)

theorem ledger_of_fromSnapshot {generated : String} {snapshot : RuntimeSnapshot} {restoredAt : ℚ} {s : SessionState}
    (h : SessionState.fromSnapshot generated snapshot restoredAt = some s) :
    s.ledger = WorkStatusLedger.fromSnapshot snapshot.workStatus restoredAt := by
  rw [SessionState.fromSnapshot, Option.map_eq_some_iff] at h
  obtain ⟨results, -, rfl⟩ := h
  rfl

/-- **Restored keys never invent a completion.**  For every snapshot, every key it carries and every run of calls
on the state restored from it, at any readings of the clock: no event for the key is terminal; a report that is
legal, validates and is not terminal leaves the key with the join of the children reported since its record was
made, unless the snapshot carries the key as terminal, and then it emits nothing at all; and the key is in a
snapshot exactly until the TTL has passed since the clock of its record started. -/
theorem restored_keys_never_complete (cfg : RetentionConfig) {generated : String} {snapshot : RuntimeSnapshot}
    {restoredAt : ℚ} {s : SessionState} (h : SessionState.fromSnapshot generated snapshot restoredAt = some s)
    {k : WorkStatusKey} {status : WorkStatus} (hk : WorkStatusLedger.carried snapshot.workStatus k = some status)
    (as : List Act) :
    (∀ status' ∈ workStatuses (outputs (Act.apply cfg) s as), WorkStatusLedger.restoredKey status' = k →
      status'.state.terminal = false) ∧
    (status.state.terminal = false → ∀ (r : WorkStatusLedger.ChildReport) now, r.key = k → r.Valid →
      r.state.terminal = false →
      legalWorkStatusTransition (((restoredTenureAfter cfg snapshot restoredAt k as).children.get? r.workItemId).map
        (·.state)) r.state = true →
      ∃ record, (acted cfg s (as ++ [.report r now])).ledger.parents.get? k = some record ∧
        ((restoredTenureAfter cfg snapshot restoredAt k (as ++ [.report r now])).children.get? r.workItemId).map
          (·.state) = some r.state ∧
        record.status.state
          = (aggregate (restoredTenureAfter cfg snapshot restoredAt k (as ++ [.report r now])).children.values).1) ∧
    (status.state.terminal = true → ∀ status' ∈ workStatuses (outputs (Act.apply cfg) s as),
      WorkStatusLedger.restoredKey status' ≠ k) ∧
    ∀ originEpoch now,
      (∃ status' ∈ ((acted cfg s as).snapshot cfg originEpoch true now).2.workStatus,
        WorkStatusLedger.restoredKey status' = k) ↔
      ∃ since, (restoredTenureAfter cfg snapshot restoredAt k as).since = some since ∧ now - since < cfg.ttlSeconds := by
  have hledger := ledger_of_fromSnapshot h
  obtain ⟨hacted, hevents⟩ := ledger_acted cfg s as
  have htenured := WorkStatusLedger.tenured_run cfg restoredAt hk (as.filterMap Act.event?)
  have hsame := WorkStatusLedger.Tenure.ledger_after cfg k (WorkStatusLedger.restoredTenure snapshot.workStatus restoredAt)
    (as.filterMap Act.event?)
  rw [← restoredTenureAfter] at htenured hsame
  rw [hledger] at hacted hevents
  refine ⟨fun status' hmem hkey => ?_, fun hlive r now hkey hvalid hstate hlegal => ?_, fun hterminal status' hmem hkey => ?_,
    fun originEpoch now => ?_⟩
  · rw [hevents] at hmem
    exact WorkStatusLedger.outputs_not_terminal cfg (WorkStatusLedger.restored_fromSnapshot restoredAt hk).1 _ status' hmem hkey
  · have hopen := WorkStatusLedger.unfinished_after cfg restoredAt hk hlive (as.filterMap Act.event?)
    have hledger' : (restoredTenureAfter cfg snapshot restoredAt k as).ledger
        = WorkStatusLedger.after cfg (WorkStatusLedger.fromSnapshot snapshot.workStatus restoredAt)
            (as.filterMap Act.event?) := hsame
    rw [← hledger'] at hopen
    obtain ⟨record, hrecord, hheard, hjoin⟩ := htenured.refined hopen cfg hkey hvalid hlegal hstate now
    have hstep : restoredTenureAfter cfg snapshot restoredAt k (as ++ [.report r now])
        = (restoredTenureAfter cfg snapshot restoredAt k as).step cfg k (.report r now) := by
      rw [restoredTenureAfter, restoredTenureAfter, List.filterMap_append, WorkStatusLedger.Tenure.after, run_append]
      rfl
    have hlast : (acted cfg s (as ++ [.report r now])).ledger
        = (restoredTenureAfter cfg snapshot restoredAt k (as ++ [.report r now])).ledger := by
      rw [(ledger_acted cfg s _).1, hledger]
      exact (WorkStatusLedger.Tenure.ledger_after cfg k (WorkStatusLedger.restoredTenure snapshot.workStatus restoredAt) _).symm
    rw [hlast, hstep]
    exact ⟨record, hrecord, hheard, hjoin⟩
  · have hnil := (WorkStatusLedger.workStatus_stream_monotone cfg snapshot.workStatus restoredAt (as.filterMap Act.event?) k).2.2.2
      status hk hterminal
    rw [WorkStatusLedger.emitted, ← hevents, List.filter_eq_nil_iff] at hnil
    exact hnil status' hmem (by simpa using hkey)
  · have hnamed : (acted cfg s as).ledger.Named := by
      rw [hacted]
      exact WorkStatusLedger.named_after cfg snapshot.workStatus restoredAt _
    have hsnapshot : ((acted cfg s as).snapshot cfg originEpoch true now).2.workStatus
        = ((acted cfg s as).ledger.workStatusSnapshot cfg now).2 := rfl
    have hheld : (acted cfg s as).ledger = (restoredTenureAfter cfg snapshot restoredAt k as).ledger := hacted.trans hsame.symm
    rw [hsnapshot, hheld]
    exact htenured.mem_workStatusSnapshot (hheld ▸ hnamed) cfg now

/-- A snapshot that carries one status. -/
def snapshotOf (status : WorkStatus) : RuntimeSnapshot where
  sessionId := "session-1"
  snapshotSequence := 3
  workers := []
  results := []
  speechProgress := []
  routing := none
  transcript := []
  originEpoch := none
  workStatus := [status]

theorem turnOne_ne : "turn-1" ≠ "" := by decide

theorem epochOne_nonneg : ∀ epoch ∈ some (1 : ℤ), 0 ≤ epoch := by decide

/-- The status of the turn of `reasonedReport`. -/
def turnStatus (state : WorkStatusState) : WorkStatus :=
  ⟨"turn-1", some "work-1", none, state, 2, none, some 1, turnOne_ne, epochOne_nonneg, nofun⟩

/-- **A key that is restored as terminal is not refined.**  The snapshot carries it as `result_ready`; a child that
searches is reported, and the record keeps its state. -/
theorem settled_key_not_refined :
    ∃ s, SessionState.fromSnapshot "session-2" (snapshotOf (turnStatus .resultReady)) 0 = some s ∧
      WorkStatusLedger.carried (snapshotOf (turnStatus .resultReady)).workStatus searchingReport.key
        = some (turnStatus .resultReady) ∧
      searchingReport.Valid ∧ searchingReport.state.terminal = false ∧
      ((acted retentionConfig s [.report searchingReport 1]).ledger.parents.get? searchingReport.key).map
        (·.status.state) = some .resultReady ∧
      (aggregate (restoredTenureAfter retentionConfig (snapshotOf (turnStatus .resultReady)) 0 searchingReport.key
        [.report searchingReport 1]).children.values).1 = .searching :=
  ⟨_, rfl, by decide, by decide, by decide, by decide, by decide⟩

/-- A restored search is refined by a child that routes, and is gone 300 seconds after the restore. -/
theorem restored_search_refined :
    ∃ s, SessionState.fromSnapshot "session-2" (snapshotOf (turnStatus .searching)) 0 = some s ∧
      (∃ record, (acted retentionConfig s [.report { searchingReport with state := .routing } 1]).ledger.parents.get?
        searchingReport.key = some record ∧ record.status.state = .routing) ∧
      ¬∃ status ∈ ((acted retentionConfig s []).snapshot retentionConfig none true 300).2.workStatus,
        WorkStatusLedger.restoredKey status = searchingReport.key := by
  have hcarried : WorkStatusLedger.carried (snapshotOf (turnStatus .searching)).workStatus searchingReport.key
      = some (turnStatus .searching) := by decide
  obtain ⟨s, hs⟩ : ∃ s, SessionState.fromSnapshot "session-2" (snapshotOf (turnStatus .searching)) 0 = some s := ⟨_, rfl⟩
  obtain ⟨-, hrefined, -, hgone⟩ := restored_keys_never_complete retentionConfig hs hcarried []
  refine ⟨s, hs, ?_, ?_⟩
  · obtain ⟨record, hrecord, -, hjoin⟩ := hrefined rfl { searchingReport with state := .routing } 1 rfl (by decide) rfl
      (by decide)
    exact ⟨record, hrecord, hjoin.trans (by decide)⟩
  · rw [hgone none 300]
    rintro ⟨since, hsince, hlt⟩
    cases hsince
    norm_num [retentionConfig] at hlt

end Session

end SubagentsLab

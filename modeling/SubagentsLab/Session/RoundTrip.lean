import SubagentsLab.Session.Tenure

/-!
# Session/RoundTrip — a snapshot of a restored state is the snapshot it was restored from

A snapshot is a lossy projection: children, clocks and the fence stay behind.  What it does carry comes back as
it was, in the same order, and everything the restored state emits later is numbered past it.  Every snapshot
passes the process-wide watermark of its session on the way, which the constructor of the restored state resets.
-/

namespace SubagentsLab

open Machinery

namespace Session

variable {cfg : RetentionConfig}

/-! ## The watermark -/

/-- `RuntimeSnapshot._highest_by_session`: the sessions in the order they were last watermarked. -/
abbrev Watermarks := Dict String ℕ

/-- `_MAX_WATERMARK_SESSIONS`. -/
def maxWatermarkSessions : ℕ := 256

/-- `popitem(last=False)` while there are too many. -/
def Watermarks.trim (w : Watermarks) : Watermarks where
  entries := w.entries.drop (w.entries.length - maxWatermarkSessions)
  nodup_keys := w.nodup_keys.sublist ((List.drop_sublist _ _).map _)

/-- The monotonicity half of `validate_version_and_monotonicity`; `none` when it raises. -/
def Watermarks.validateMonotonicity (w : Watermarks) (sessionId : String) (snapshotSequence : ℕ) : Option Watermarks :=
  if (w.get? sessionId).any (snapshotSequence < ·) then none
  else some (trim ((w.pop sessionId).set sessionId (max ((w.get? sessionId).getD 0) snapshotSequence)))

/-- `snapshot`, with the watermarks its validation reads and writes. -/
def SessionState.takeSnapshot (cfg : RetentionConfig) (w : Watermarks) (s : SessionState) (originEpoch : Option ℕ)
    (includeWorkStatus : Bool) (now : ℚ) : Option (Watermarks × SessionState × RuntimeSnapshot) :=
  let taken := s.snapshot cfg originEpoch includeWorkStatus now
  (w.validateMonotonicity taken.2.sessionId taken.2.snapshotSequence).map fun w' => (w', taken)

/-- `from_snapshot`, with the watermark its constructor resets. -/
def SessionState.restore (w : Watermarks) (generated : String) (snapshot : RuntimeSnapshot) (restoredAt : ℚ) :
    Option (Watermarks × SessionState) :=
  (fromSnapshot generated snapshot restoredAt).map fun s => (w.pop s.sessionId, s)

/-- A session without a watermark is admitted at any sequence. -/
theorem Watermarks.admit_of_none {w : Watermarks} {sessionId : String} (h : w.get? sessionId = none)
    (snapshotSequence : ℕ) : ∃ w', w.validateMonotonicity sessionId snapshotSequence = some w' := by
  rw [validateMonotonicity, h]
  exact ⟨_, if_neg (by simp)⟩

/-! ## What every state keeps -/

theorem logResults_concat (results : List GroundedResult) (r : GroundedResult) :
    logResults (results ++ [r])
      = (logResults results).bind fun log =>
          if log.any fun item => item.resultId = r.resultId then none else some (log ++ [r]) := by
  rw [logResults, List.foldlM_append, ← logResults]
  rcases logResults results with _ | log
  · rfl
  · simp

/-- A log that does not raise is the list it was made of. -/
theorem eq_of_logResults {results log : List GroundedResult} (h : logResults results = some log) : log = results := by
  induction results using List.reverseRecOn generalizing log with
  | nil =>
    cases h
    rfl
  | append_singleton results r ih =>
    rw [logResults_concat, Option.bind_eq_some_iff] at h
    obtain ⟨log', hlog', hnew⟩ := h
    split_ifs at hnew
    cases hnew
    rw [ih hlog']

/-- **What a snapshot relies on**: the session is named, records are filed under their own ids, and no result id
occurs twice. -/
structure Sound (s : SessionState) : Prop where
  named : s.sessionId ≠ ""
  keyed : s.Keyed
  logged : logResults s.results = some s.results

/-- Values filed under the keys they tell. -/
theorem get?_foldl_tells {α : Type} (f : α → String) (as : List α) (k : String) (a : α)
    (h : (as.foldl (fun (d : Dict String α) a => d.set (f a) a) ∅).get? k = some a) : f a = k := by
  rw [Dict.get?_foldl_set, Dict.get?_empty, Option.or_none] at h
  simpa using List.find?_some h

theorem sound_opened {s : SessionState} (h : Opened s) : Sound s := by
  cases h with
  | fresh sessionId hid =>
    exact ⟨hid, ⟨fun _ _ hc => (Option.some_ne_none _ hc.symm).elim, fun _ _ hc => (Option.some_ne_none _ hc.symm).elim⟩, rfl⟩
  | restored hgenerated h =>
    rw [SessionState.fromSnapshot, Option.map_eq_some_iff] at h
    obtain ⟨results, hresults, rfl⟩ := h
    refine ⟨?_, ⟨get?_foldl_tells _ _, get?_foldl_tells _ _⟩, ?_⟩
    · dsimp only
      split_ifs with hid
      · exact hgenerated
      · exact hid
    · dsimp only
      rw [← eq_of_logResults hresults] at hresults
      exact hresults

/-- **Results are only ever added, one new id at a time.** -/
theorem logged_step (cfg : RetentionConfig) {s : SessionState} (h : logResults s.results = some s.results)
    (c : SessionState.Call) : logResults (s.step cfg c).1.results = some (s.step cfg c).1.results := by
  cases c with
  | setWorker w =>
    rw [SessionState.step, SessionState.setWorker]
    split_ifs <;> exact h
  | setRouting r =>
    rw [SessionState.step, SessionState.setRouting]
    split_ifs <;> exact h
  | appendTranscript t =>
    rw [SessionState.step, SessionState.appendTranscript]
    split_ifs <;> exact h
  | appendResult r sequence originEpoch =>
    rw [SessionState.step]
    rcases s.appendResult_cases r sequence originEpoch with hout | ⟨n, workers, -, hnew, -, hout, -⟩
    · rw [hout]
      exact h
    · rw [hout]
      dsimp only
      have hid : (SessionState.filedResult r originEpoch).resultId = r.resultId := rfl
      rw [logResults_concat, h, Option.bind_some, hid, hnew]
      rfl
  | speechProgress p allowStaleReconnect =>
    rw [SessionState.step]
    rcases s.speechProgress_cases p allowStaleReconnect with hout | ⟨-, hout⟩ <;> rw [hout] <;> exact h
  | setChildWorkStatus r now =>
    rw [SessionState.step, SessionState.setChildWorkStatus]
    split <;> exact h

theorem Sound.apply {s : SessionState} (h : Sound s) (cfg : RetentionConfig) (a : Act) : Sound (a.apply cfg s).1 := by
  cases a with
  | prune now => exact ⟨h.named, ⟨h.keyed.workers, h.keyed.speech⟩, h.logged⟩
  | move m =>
    cases m with
    | activate originEpoch => exact ⟨h.named, ⟨h.keyed.workers, h.keyed.speech⟩, h.logged⟩
    | call c =>
      refine ⟨?_, h.keyed.step c, logged_step cfg h.logged c⟩
      rw [Act.apply, Move.apply, SessionState.sessionId_step]
      exact h.named

theorem sound_acted (cfg : RetentionConfig) {s : SessionState} (h : Opened s) (as : List Act) : Sound (acted cfg s as) :=
  run_invariant_of_step (I := Sound) (fun _ a hs => hs.apply cfg a) (sound_opened h) as

/-! ## Numbering -/

/-- **Everything a run emits is numbered past where it started.** -/
theorem sequence_outputs (cfg : RetentionConfig) (s : SessionState) (as : List Act) :
    ∀ event ∈ outputs (Act.apply cfg) s as, s.sequence < event.sequence := by
  have happly : ∀ (s : SessionState) (a : Act), s.sequence ≤ (a.apply cfg s).1.sequence ∧
      ∀ event ∈ (a.apply cfg s).2, s.sequence < event.sequence := by
    intro s a
    cases a with
    | prune now => exact ⟨le_rfl, fun _ hmem => absurd hmem List.not_mem_nil⟩
    | move m =>
      rw [Act.apply]
      rcases m.apply_events cfg s with ⟨hnone, hsame⟩ | ⟨event, hone, hnumber, hlater⟩
      · rw [hnone, hsame]
        exact ⟨le_rfl, fun _ hmem => absurd hmem List.not_mem_nil⟩
      · rw [hone]
        refine ⟨hlater.le, fun event' hmem => ?_⟩
        rw [List.mem_singleton.mp hmem, hnumber]
        exact hlater
  induction as generalizing s with
  | nil => exact fun _ hmem => absurd hmem List.not_mem_nil
  | cons a as ih =>
    intro event hmem
    rw [outputs, List.mem_append] at hmem
    rcases hmem with hnow | hlater
    · exact (happly s a).2 event hnow
    · exact (happly s a).1.trans_lt (ih _ event hlater)

/-- The statuses a restored ledger emits are numbered past the one it was restored with. -/
theorem eventSequence_outputs (cfg : RetentionConfig) {statuses : List WorkStatus}
    (hnodup : (statuses.map WorkStatusLedger.restoredKey).Nodup) (restoredAt : ℚ) (es : List WorkStatusLedger.Event)
    {status status' : WorkStatus}
    (hmem : status ∈ outputs (WorkStatusLedger.step cfg) (WorkStatusLedger.fromSnapshot statuses restoredAt) es)
    (hcarried : status' ∈ statuses) (hkey : WorkStatusLedger.restoredKey status' = WorkStatusLedger.restoredKey status) :
    status'.eventSequence < status.eventSequence := by
  set k := WorkStatusLedger.restoredKey status with hk
  have hfound : WorkStatusLedger.carried statuses k = some status' := by
    rw [WorkStatusLedger.carried, List.find?_eq_some_iff_append]
    refine ⟨by simpa using hkey, ?_⟩
    obtain ⟨before, after, hsplit⟩ := List.append_of_mem (List.mem_reverse.mpr hcarried)
    refine ⟨before, after, hsplit, fun other hother => ?_⟩
    have hnodup' : (statuses.reverse.map WorkStatusLedger.restoredKey).Nodup := by
      rw [List.map_reverse]
      exact List.nodup_reverse.mpr hnodup
    rw [hsplit, List.map_append, List.map_cons, List.nodup_append] at hnodup'
    have hne := hnodup'.2.2 _ (List.mem_map_of_mem hother) _ List.mem_cons_self
    rw [hkey] at hne
    simpa using hne
  have hnumbers : (WorkStatusLedger.emitted cfg (WorkStatusLedger.fromSnapshot statuses restoredAt) es k).map
      (·.eventSequence) = _ := WorkStatusLedger.eventSequence_emitted _ es k
  rw [(WorkStatusLedger.fromSnapshot_get statuses restoredAt k).2, hfound, Option.map_some, Option.getD_some] at hnumbers
  have hemitted : status ∈ WorkStatusLedger.emitted cfg (WorkStatusLedger.fromSnapshot statuses restoredAt) es k := by
    rw [WorkStatusLedger.emitted, List.mem_filter]
    exact ⟨hmem, by simp [hk]⟩
  have hnumber := List.mem_map_of_mem (f := (·.eventSequence)) hemitted
  rw [hnumbers, List.mem_range'_1] at hnumber
  exact hnumber.1

/-! ## The ledger comes back -/

/-- **A restored ledger shows the statuses it was restored from**, in order, as long as none of them expires at once. -/
theorem workStatusSnapshot_fromSnapshot (cfg : RetentionConfig) (httl : 0 < cfg.ttlSeconds) {statuses : List WorkStatus}
    (hnodup : (statuses.map WorkStatusLedger.restoredKey).Nodup) (now : ℚ) :
    ((WorkStatusLedger.fromSnapshot statuses now).workStatusSnapshot cfg now).2 = statuses := by
  have hentries : (WorkStatusLedger.fromSnapshot statuses now).parents.entries
      = statuses.map fun status => (WorkStatusLedger.restoredKey status,
          ⟨status, if status.state.terminal then some now else none⟩) := by
    rw [← Dict.entries_foldl_set WorkStatusLedger.restoredKey _ statuses hnodup]
    congr 1
    clear hnodup
    induction statuses using List.reverseRecOn with
    | nil => rfl
    | append_singleton statuses status ih =>
      rw [WorkStatusLedger.fromSnapshot_concat, List.foldl_append, List.foldl_cons, List.foldl_nil, ← ih]
      rfl
  have hkept : ∀ e ∈ (WorkStatusLedger.fromSnapshot statuses now).parents.entries,
      (!WorkStatusLedger.expired cfg (WorkStatusLedger.fromSnapshot statuses now) now e.1) = true := by
    intro e he
    have hget := Dict.get?_eq_some_iff.mpr he
    have hcarried := (WorkStatusLedger.fromSnapshot_get statuses now e.1).1
    rw [hget, Option.map_some] at hcarried
    rw [WorkStatusLedger.expired, (WorkStatusLedger.restored_fromSnapshot now hcarried.symm).2]
    simpa using httl
  rw [WorkStatusLedger.workStatusSnapshot_eq, List.filter_eq_self.mpr hkept, hentries, List.map_map]
  exact List.map_id _

/-- The statuses of a snapshot have distinct keys. -/
theorem nodup_workStatusSnapshot {l : WorkStatusLedger} (h : l.Named) (cfg : RetentionConfig) (now : ℚ) :
    ((l.workStatusSnapshot cfg now).2.map WorkStatusLedger.restoredKey).Nodup := by
  rw [WorkStatusLedger.workStatusSnapshot_eq, List.map_map]
  have hkeys : (l.parents.entries.filter fun e => !WorkStatusLedger.expired cfg l now e.1).map
      (WorkStatusLedger.restoredKey ∘ fun e => e.2.status)
        = (l.parents.entries.filter fun e => !WorkStatusLedger.expired cfg l now e.1).map Prod.fst := by
    refine List.map_congr_left fun e he => ?_
    exact h e.1 e.2 (Dict.get?_eq_some_iff.mpr (List.mem_filter.mp he).1)
  rw [hkeys]
  exact l.parents.nodup_keys.sublist (List.filter_sublist.map _)

/-! ## The round trip -/

/-- **A snapshot comes back.**  Every state that public calls reach, at one reading of the clock and whatever
watermarks the process holds: if it gives a snapshot, a state is restored from it, whose snapshot is the same
one; and every event of every later run of the restored state is numbered past it, a `work_status` event also
past what the snapshot carries for its key. -/
theorem snapshot_round_trip {s₀ : SessionState} (h : Opened s₀) (as : List Act) {w w₁ : Watermarks}
    {originEpoch : Option ℕ} {now : ℚ} {s₁ : SessionState} {snapshot : RuntimeSnapshot} (generated : String)
    (htaken : (acted retentionConfig s₀ as).takeSnapshot retentionConfig w originEpoch true now
      = some (w₁, s₁, snapshot)) :
    ∃ w₂ r, SessionState.restore w₁ generated snapshot now = some (w₂, r) ∧
      (∃ w₃ r₁, r.takeSnapshot retentionConfig w₂ originEpoch true now = some (w₃, r₁, snapshot)) ∧
      ∀ as', ∀ event ∈ outputs (Act.apply retentionConfig) r as', snapshot.snapshotSequence < event.sequence ∧
        ∀ status, event.payload = .workStatus status → ∀ status' ∈ snapshot.workStatus,
          WorkStatusLedger.restoredKey status' = WorkStatusLedger.restoredKey status →
            status'.eventSequence < status.eventSequence := by
  have hsound := sound_acted retentionConfig h as
  have hnamed : (acted retentionConfig s₀ as).ledger.Named := by
    obtain ⟨statuses, restoredAt, hopened⟩ := ledger_opened h
    rw [(ledger_acted retentionConfig s₀ as).1, hopened]
    exact WorkStatusLedger.named_after retentionConfig statuses restoredAt _
  generalize acted retentionConfig s₀ as = s at htaken hsound hnamed
  rw [SessionState.takeSnapshot, Option.map_eq_some_iff] at htaken
  obtain ⟨w', -, htaken⟩ := htaken
  have hsnapshot : (s.snapshot retentionConfig originEpoch true now).2 = snapshot := congrArg (fun taken => taken.2.2) htaken
  subst hsnapshot
  have hnodup := nodup_workStatusSnapshot hnamed retentionConfig now
  -- The restored state holds what the snapshot carries, and no watermark stands against it.
  obtain ⟨r, hr, hrestored⟩ : ∃ r, SessionState.fromSnapshot generated (s.snapshot retentionConfig originEpoch true now).2 now
      = some r ∧ r = { s with
        activeEpoch := none
        ledger := .fromSnapshot (s.ledger.workStatusSnapshot retentionConfig now).2 now } := by
    refine ⟨_, ?_, rfl⟩
    rw [SessionState.fromSnapshot, SessionState.snapshot]
    dsimp only
    rw [hsound.logged, Option.map_some, if_neg hsound.named, Dict.foldl_set_values hsound.keyed.workers,
      Dict.foldl_set_values hsound.keyed.speech]
    rfl
  obtain ⟨w₃, hw₃⟩ : ∃ w₃, Watermarks.validateMonotonicity (w₁.pop r.sessionId) r.sessionId r.sequence = some w₃ :=
    Watermarks.admit_of_none (by rw [Dict.get?_pop, if_pos rfl]) r.sequence
  refine ⟨w₁.pop r.sessionId, r, ?_, ⟨w₃, (r.snapshot retentionConfig originEpoch true now).1, ?_⟩, ?_⟩
  · rw [SessionState.restore, hr, Option.map_some]
  · have hback := workStatusSnapshot_fromSnapshot retentionConfig (by norm_num [retentionConfig]) hnodup now
    have hsame : (r.snapshot retentionConfig originEpoch true now).2 = (s.snapshot retentionConfig originEpoch true now).2 := by
      rw [hrestored, SessionState.snapshot, SessionState.snapshot]
      dsimp only
      rw [if_pos rfl, if_pos rfl, hback]
    rw [SessionState.takeSnapshot, ← hsame]
    have hadmitted : Watermarks.validateMonotonicity (w₁.pop r.sessionId) (r.snapshot retentionConfig originEpoch true now).2.sessionId
        (r.snapshot retentionConfig originEpoch true now).2.snapshotSequence = some w₃ := hw₃
    rw [hadmitted]
    rfl
  · intro as' event hevent
    constructor
    · have hlater := sequence_outputs retentionConfig r as' event hevent
      rw [hrestored] at hlater
      exact hlater
    · intro status hpayload status' hmem hkey
      have hstatus : status ∈ workStatuses (outputs (Act.apply retentionConfig) r as') := by
        rw [workStatuses, List.mem_filterMap]
        exact ⟨event, hevent, by rw [hpayload]⟩
      rw [(ledger_acted retentionConfig r as').2, hrestored] at hstatus
      exact eventSequence_outputs retentionConfig hnodup now _ hstatus hmem hkey

/-- The result of one search, with the state of its worker and its route, what was said of it and how far it was
spoken, and a child that still searches. -/
def answeredSearch : List Act :=
  [.move (.call (.setWorker ⟨"w", "trains", "small", "running", none, some 1⟩)),
    .move (.call (.setRouting { turnId := "t", action := .existingWorker, workerId := some "w" })),
    .move (.call (.appendTranscript ⟨.user, "Trains?", "t", "2026-01-01T00:00:00Z", some 1⟩)),
    .report searchingReport 0,
    .move (.call (.appendResult
      { resultId := "r", workerId := "w", turnId := "t", timestamp := "2026-01-01T00:00:01Z", text := "Two trains."
        spokenText := "Two trains.", originEpoch := some 1, identified := by decide, projected := by decide } none (some 1))),
    .move (.call (.speechProgress ⟨"r", "work-t", "run-t", "u", .started, some 1⟩ false))]

/-- A state in which every part of the snapshot is there gives one, and comes back from it. -/
theorem snapshot_round_trip_search :
    ∃ w₁ s₁ snapshot, (acted retentionConfig { sessionId := "session-1" } answeredSearch).takeSnapshot
        retentionConfig ∅ none true 1 = some (w₁, s₁, snapshot) ∧
      (snapshot.workers ≠ [] ∧ snapshot.results ≠ [] ∧ snapshot.speechProgress ≠ [] ∧ snapshot.routing ≠ none ∧
        snapshot.transcript ≠ [] ∧ snapshot.workStatus ≠ []) ∧
      ∃ w₂ r, SessionState.restore w₁ "session-2" snapshot 1 = some (w₂, r) ∧
        (∃ w₃ r₁, r.takeSnapshot retentionConfig w₂ none true 1 = some (w₃, r₁, snapshot)) ∧
        ∀ event ∈ outputs (Act.apply retentionConfig) r answeredSearch, snapshot.snapshotSequence < event.sequence ∧
          ∀ status, event.payload = .workStatus status → ∀ status' ∈ snapshot.workStatus,
            WorkStatusLedger.restoredKey status' = WorkStatusLedger.restoredKey status →
              status'.eventSequence < status.eventSequence := by
  have hopened : Opened { sessionId := "session-1" } := .fresh "session-1" (by decide)
  obtain ⟨w₁, s₁, snapshot, htaken, hparts⟩ : ∃ w₁ s₁ snapshot,
      (acted retentionConfig { sessionId := "session-1" } answeredSearch).takeSnapshot
        retentionConfig ∅ none true 1 = some (w₁, s₁, snapshot) ∧
      (snapshot.workers ≠ [] ∧ snapshot.results ≠ [] ∧ snapshot.speechProgress ≠ [] ∧ snapshot.routing ≠ none ∧
        snapshot.transcript ≠ [] ∧ snapshot.workStatus ≠ []) := ⟨_, _, _, rfl, by decide +kernel⟩
  obtain ⟨w₂, r, hrestored, hback, hlater⟩ := snapshot_round_trip hopened _ "session-2" htaken
  exact ⟨w₁, s₁, snapshot, htaken, hparts, w₂, r, hrestored, hback, hlater _⟩

end Session

end SubagentsLab

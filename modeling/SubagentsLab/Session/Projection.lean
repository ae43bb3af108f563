import SubagentsLab.Session.Retention

/-!
# Session/Projection — a followed view and a fresh one

A browser installs a snapshot and follows the events; another installs a snapshot taken at the end.  Every
mutator emits what it writes, except that `append_result` also moves its worker's `latest_result_id`, which
no event carries: the two views agree on everything as long as a later worker event makes up for it
(`follow_agrees_fresh`).
-/

namespace SubagentsLab

open Machinery

namespace Session

/-! ## Followed views -/

/-- Two views show the same: workers by id, work status by key and without stamps. -/
structure View.Agree (v v' : View) : Prop where
  workers : ∀ workerId, v.worker workerId = v'.worker workerId
  routing : v.routing = v'.routing
  transcript : v.transcript = v'.transcript
  results : v.results = v'.results
  speech : ∀ utteranceId, v.speech.get? utteranceId = v'.speech.get? utteranceId
  workStatus : ∀ key, v.workStatus key = v'.workStatus key

/-- Records are filed under their own ids. -/
structure SessionState.Keyed (s : SessionState) : Prop where
  workers : ∀ workerId w, s.workers.get? workerId = some w → w.workerId = workerId
  speech : ∀ utteranceId p, s.speech.get? utteranceId = some p → p.utteranceId = utteranceId

/-- **A view shows a state**, the `stale` workers apart. -/
structure Shows (normalizeUrl : String → Option String) (K : Finset WorkStatusKey) (stale : Finset String)
    (s : SessionState) (v : View) : Prop where
  routing : v.routing = s.routing
  transcript : v.transcript = s.transcript
  results : v.results = s.results.map (normalizedResult normalizeUrl)
  speech : ∀ utteranceId, utteranceId ≠ "" → v.speech.get? utteranceId = s.speech.get? utteranceId
  noSpeech : v.speech.get? "" = none
  worker : ∀ workerId, workerId ≠ "" → workerId ∉ stale → v.worker workerId = s.workers.get? workerId
  noWorker : v.worker "" = none
  status : ∀ k ∈ K, v.workStatus (browserKey k) = (s.ledger.parents.get? k).map (·.status)
  noStatus : ∀ key, key ∉ K.image browserKey → v.workStatus key = none

variable {cfg : RetentionConfig} {normalizeUrl : String → Option String} {K : Finset WorkStatusKey}
  {stale : Finset String} {s : SessionState} {v v' : View}

/-- **Views of one state agree.** -/
theorem Shows.agree (h : Shows normalizeUrl K ∅ s v) (h' : Shows normalizeUrl K ∅ s v') : v.Agree v' where
  workers workerId := by
    by_cases hid : workerId = ""
    · rw [hid, h.noWorker, h'.noWorker]
    · rw [h.worker workerId hid (Finset.notMem_empty _), h'.worker workerId hid (Finset.notMem_empty _)]
  routing := h.routing.trans h'.routing.symm
  transcript := h.transcript.trans h'.transcript.symm
  results := h.results.trans h'.results.symm
  speech utteranceId := by
    by_cases hid : utteranceId = ""
    · rw [hid, h.noSpeech, h'.noSpeech]
    · rw [h.speech utteranceId hid, h'.speech utteranceId hid]
  workStatus key := by
    by_cases hkey : key ∈ K.image browserKey
    · obtain ⟨k, hk, rfl⟩ := Finset.mem_image.mp hkey
      rw [h.status k hk, h'.status k hk]
    · rw [h.noStatus key hkey, h'.noStatus key hkey]

theorem find?_filter_ne (ws : List WorkerState) (removed workerId : String) :
    (ws.filter (·.workerId ≠ removed)).find? (·.workerId = workerId)
      = if workerId = removed then none else ws.find? (·.workerId = workerId) := by
  induction ws with
  | nil => simp
  | cons w ws ih =>
    by_cases hw : w.workerId = removed
    · rw [List.filter_cons_of_neg (by simpa using hw), ih]
      split_ifs with hid
      · rfl
      · rw [List.find?_cons_of_neg (by simpa [hw] using fun hc => hid hc.symm)]
    · rw [List.filter_cons_of_pos (by simpa using hw)]
      by_cases hid : w.workerId = workerId
      · rw [List.find?_cons_of_pos (by simpa using hid), List.find?_cons_of_pos (by simpa using hid),
          if_neg (hid ▸ hw)]
      · rw [List.find?_cons_of_neg (by simpa using hid), List.find?_cons_of_neg (by simpa using hid), ih]

/-- A worker event replaces the worker of its id. -/
theorem View.worker_applyIncrement (cfg : RetentionConfig) (normalizeUrl : String → Option String) (v : View)
    (w : WorkerState) (now : ℚ) (workerId : String) :
    (v.applyIncrement cfg normalizeUrl (.worker w) now).worker workerId
      = if w.workerId ≠ "" ∧ workerId = w.workerId then some w else v.worker workerId := by
  rw [View.applyIncrement, projectedWorker]
  split_ifs with hblank hid hid
  · exact absurd hblank hid.1
  · rfl
  · rw [View.worker]
    dsimp only
    rw [List.find?_append, find?_filter_ne, if_pos hid.2, Option.none_or]
    simp [hid.2]
  · have hne : workerId ≠ w.workerId := fun hc => hid ⟨hblank, hc⟩
    rw [View.worker]
    dsimp only
    rw [List.find?_append, find?_filter_ne, if_neg hne, List.find?_cons_of_neg (by simpa using hne.symm),
      List.find?_nil, Option.or_none, View.worker]

/-! ## A fresh view -/

variable {B T : ℚ}

/-- **What a snapshot leaves on a board that was empty**: the last record of each key. -/
theorem restored_board (hcap : K.card ≤ cfg.maxKeys) {now : ℚ} (hstart : B ≤ now)
    (hend : now < B + StatusBoard.ttlMs cfg) (statuses : List WorkStatus)
    (hkeys : ∀ status ∈ statuses, WorkStatusLedger.restoredKey status ∈ K) :
    StatusBoard.Windowed B (K.image browserKey) (StatusBoard.restore cfg {} statuses now) ∧
      ∀ key, ((StatusBoard.restore cfg {} statuses now).workStatus.get? key).map (·.status)
        = statuses.reverse.find? fun status => workStatusKey status = key := by
  have hcap' : (K.image browserKey).card ≤ cfg.maxKeys := Finset.card_image_le.trans hcap
  have hprojected : statuses.filterMap projectedWorkStatus = statuses := by
    refine (List.filterMap_congr fun status _ => ?_).trans List.filterMap_some
    rw [projectedWorkStatus, if_neg status.turnId_ne]
  have hfold : ∀ l : List WorkStatus, (∀ status ∈ l, WorkStatusLedger.restoredKey status ∈ K) →
      StatusBoard.Windowed B (K.image browserKey) (l.foldl (StatusBoard.restoreOne cfg ∅ now) {}) ∧
        ∀ key, ((l.foldl (StatusBoard.restoreOne cfg ∅ now) {}).workStatus.get? key).map (·.status)
          = l.reverse.find? fun status => workStatusKey status = key := by
    intro l
    induction l using List.reverseRecOn with
    | nil => exact fun _ => ⟨StatusBoard.windowed_empty, fun _ => rfl⟩
    | append_singleton l status ih =>
      intro hl
      obtain ⟨hwindow, hlookup⟩ := ih fun x hx => hl x (List.mem_append_left _ hx)
      rw [List.foldl_append, List.foldl_cons, List.foldl_nil]
      set b := l.foldl (StatusBoard.restoreOne cfg ∅ now) {} with hb
      have hkey : workStatusKey status ∈ K.image browserKey :=
        Finset.mem_image_of_mem _ (hl status (List.mem_append_right _ (List.mem_singleton_self _)))
      have hprevious : ∀ record ∈ ((∅ : Dict String StampedStatus).get? (workStatusKey status)).or
          (b.workStatus.get? (workStatusKey status)),
          (∀ t ∈ record.terminalSince, B ≤ t) ∧ ∀ t ∈ record.restoredAt, B ≤ t :=
        fun record hrecord => (hwindow.filed _ record hrecord).2
      obtain ⟨hupsert, hafter⟩ := hwindow.upsert hcap' hkey status hstart hend hprevious true
      rw [StatusBoard.restoreOne]
      dsimp only
      rw [hupsert]
      dsimp only
      rw [hwindow.tombstones]
      refine ⟨⟨hafter.filed, rfl⟩, fun key => ?_⟩
      rw [Dict.get?_set, List.reverse_append, List.reverse_singleton, List.singleton_append, List.find?_cons]
      by_cases hk : key = workStatusKey status
      · simp [hk, StatusBoard.stamp_status]
      · have hk' : workStatusKey status ≠ key := fun hc => hk hc.symm
        rw [if_neg hk, hlookup]
        simp [hk']
  obtain ⟨hwindow, hlookup⟩ := hfold statuses hkeys
  have hrestore : StatusBoard.restore cfg {} statuses now = statuses.foldl (StatusBoard.restoreOne cfg ∅ now) {} := by
    rw [StatusBoard.restore, hprojected]
    rfl
  rw [hrestore]
  exact ⟨hwindow, hlookup⟩

/-- Looking up by id in what is projected of a dictionary: nothing is filed without an id. -/
theorem find?_projected {α : Type*} {d : Dict String α} {id : α → String} {projected : α → Option α}
    (hprojected : ∀ a, projected a = if id a = "" then none else some a)
    (hkeyed : ∀ k a, d.get? k = some a → id a = k) {as : List α} (has : ∀ a, a ∈ as ↔ a ∈ d.values) (k : String) :
    (as.filterMap projected).find? (fun a => id a = k) = if k = "" then none else d.get? k := by
  split_ifs with hk
  · rw [List.find?_eq_none]
    intro a ha
    obtain ⟨b, -, hb⟩ := List.mem_filterMap.mp ha
    rw [hprojected] at hb
    split_ifs at hb with hid
    cases hb
    simpa [hk] using hid
  · rw [← Dict.find?_values hkeyed has k]
    clear has
    induction as with
    | nil => rfl
    | cons a as ih =>
      rw [List.filterMap_cons, hprojected]
      by_cases hid : id a = ""
      · rw [if_pos hid, List.find?_cons_of_neg (by simpa [hid] using fun hc => hk hc)]
        exact ih
      · rw [if_neg hid, List.find?_cons, List.find?_cons, ih]

variable (normalizeUrl) (B) in
/-- **A fresh view shows the state its snapshot was taken of.** -/
theorem shows_install (hs : s.Keyed) (hl : WorkStatusLedger.Windowed T K s.ledger)
    (hinj : Set.InjOn browserKey K) (hcap : K.card ≤ cfg.maxKeys) {now : ℚ} (hnow : now < T + cfg.ttlSeconds)
    {shown : ℚ} (hstart : B ≤ shown) (hend : shown < B + StatusBoard.ttlMs cfg) (originEpoch : Option ℕ) :
    Shows normalizeUrl K ∅ s
        (View.install cfg normalizeUrl {} (s.snapshot cfg originEpoch true now).2 shown) ∧
      StatusBoard.Windowed B (K.image browserKey)
        (View.install cfg normalizeUrl {} (s.snapshot cfg originEpoch true now).2 shown).board := by
  have hstatuses : (s.snapshot cfg originEpoch true now).2.workStatus = s.ledger.parents.values.map (·.status) := by
    rw [SessionState.snapshot, if_pos rfl, hl.workStatusSnapshot hnow]
  have hkeys : ∀ status ∈ s.ledger.parents.values.map (·.status), WorkStatusLedger.restoredKey status ∈ K := by
    intro status hmem
    obtain ⟨record, hrecord, rfl⟩ := List.mem_map.mp hmem
    obtain ⟨k, hget⟩ := Dict.mem_values.mp hrecord
    obtain ⟨hk, hrestored, -⟩ := hl.filed k record hget
    exact hrestored ▸ hk
  obtain ⟨hwindow, hlookup⟩ := restored_board (B := B) hcap hstart hend _ hkeys
  have hboard : (View.install cfg normalizeUrl {} (s.snapshot cfg originEpoch true now).2 shown).board
      = StatusBoard.restore cfg {} (s.ledger.parents.values.map (·.status)) shown := by
    rw [View.install, hstatuses]
  rw [hboard]
  have hspeech : ∀ utteranceId, (View.install cfg normalizeUrl {} (s.snapshot cfg originEpoch true now).2 shown).speech.get?
      utteranceId = if utteranceId = "" then none else s.speech.get? utteranceId := by
    intro utteranceId
    rw [View.install]
    dsimp only
    rw [Dict.get?_foldl_set, Dict.get?_empty, Option.or_none, ← List.filterMap_reverse]
    exact find?_projected (fun _ => rfl) hs.speech (fun _ => List.mem_reverse) utteranceId
  have hworker : ∀ workerId, (View.install cfg normalizeUrl {} (s.snapshot cfg originEpoch true now).2 shown).worker
      workerId = if workerId = "" then none else s.workers.get? workerId :=
    find?_projected (fun _ => rfl) hs.workers (fun _ => Iff.rfl)
  refine ⟨⟨rfl, rfl, rfl, fun utteranceId hid => by rw [hspeech, if_neg hid], by rw [hspeech, if_pos rfl],
    fun workerId hid _ => by rw [hworker, if_neg hid], by rw [hworker, if_pos rfl], fun k hk => ?_,
    fun key hkey => ?_⟩, hwindow⟩
  · have hfind : s.ledger.parents.values.reverse.find? (fun record => workStatusKey record.status = browserKey k)
        = s.ledger.parents.values.reverse.find? fun record => WorkStatusLedger.restoredKey record.status = k := by
      rw [← List.head?_filter, ← List.head?_filter]
      refine congrArg List.head? (List.filter_congr fun record hrecord => ?_)
      have hmem := hkeys _ (List.mem_map_of_mem (List.mem_reverse.mp hrecord))
      exact decide_eq_decide.mpr (hinj.eq_iff hmem hk)
    rw [View.workStatus, hboard, hlookup, ← List.map_reverse, List.find?_map]
    refine congrArg _ (hfind.trans (Dict.find?_values (fun k' record hget => ?_) (fun _ => List.mem_reverse) k))
    exact (hl.filed k' record hget).2.1
  · rw [View.workStatus, hboard, hlookup, List.find?_eq_none]
    intro status hmem heq
    rw [decide_eq_true_eq] at heq
    exact hkey (heq ▸ Finset.mem_image_of_mem _ (hkeys status (List.mem_reverse.mp hmem)))

/-! ## One call -/

/-- `append_result` moves the pointer of a worker: the result is committed to the active epoch, is new, and
is not the one the worker points at. -/
def SessionState.movesPointer (s : SessionState) (r : GroundedResult) (originEpoch : Option ℕ) : Bool :=
  !s.fenced originEpoch && !(originEpoch.isSome && r.originEpoch.isSome && originEpoch ≠ r.originEpoch) &&
    !(s.results.any fun item => item.resultId = r.resultId) &&
    (s.workers.get? r.workerId).any (·.latestResultId ≠ some r.resultId)

/-- The workers no event has caught up with, after a call. -/
def SessionState.staleAfter (s : SessionState) (stale : Finset String) : SessionState.Call → Finset String
  | .setWorker w => if s.fenced w.originEpoch then stale else stale.erase w.workerId
  | .appendResult r _ originEpoch => if s.movesPointer r originEpoch then insert r.workerId stale else stale
  | _ => stale

/-- A work-status report is of a key in play, and read in the window. -/
def SessionState.Call.inPlay (T : ℚ) (K : Finset WorkStatusKey) : SessionState.Call → Prop
  | .setChildWorkStatus r now => r.key ∈ K ∧ T ≤ now
  | _ => True

theorem Shows.setWorker (h : Shows normalizeUrl K stale s v) (w : WorkerState) (clock : ℕ → ℚ) :
    Shows normalizeUrl K (s.staleAfter stale (.setWorker w)) (s.setWorker w).1
      (v.follow cfg normalizeUrl clock (s.setWorker w).2) := by
  rw [SessionState.setWorker, SessionState.staleAfter]
  split_ifs
  · exact h
  · have hworker := View.worker_applyIncrement cfg normalizeUrl v w (clock (s.sequence + 1))
    have hsame : ∀ v', v' = v.applyIncrement cfg normalizeUrl (.worker w) (clock (s.sequence + 1)) →
        v'.routing = v.routing ∧ v'.transcript = v.transcript ∧ v'.results = v.results ∧ v'.speech = v.speech ∧
          v'.board = v.board := by
      rintro v' rfl
      rw [View.applyIncrement, projectedWorker]
      split_ifs <;> exact ⟨rfl, rfl, rfl, rfl, rfl⟩
    obtain ⟨hrouting, htranscript, hresults, hspeech, hboard⟩ := hsame _ rfl
    refine ⟨hrouting.trans h.routing, htranscript.trans h.transcript, hresults.trans h.results, ?_, ?_,
      fun workerId hid hstale => ?_, ?_, fun k hk => ?_, fun key hkey => ?_⟩
    · exact fun utteranceId hid => (congrArg (·.get? utteranceId) hspeech).trans (h.speech utteranceId hid)
    · exact (congrArg (·.get? "") hspeech).trans h.noSpeech
    · refine (hworker workerId).trans ?_
      change _ = (s.workers.set w.workerId w).get? workerId
      rw [Dict.get?_set]
      by_cases hself : workerId = w.workerId
      · rw [if_pos ⟨hself ▸ hid, hself⟩, if_pos hself]
      · rw [if_neg fun hc => hself hc.2, if_neg hself]
        exact h.worker workerId hid fun hmem => hstale (Finset.mem_erase.mpr ⟨hself, hmem⟩)
    · refine (hworker "").trans ?_
      rw [if_neg fun hc => hc.1 hc.2.symm]
      exact h.noWorker
    · exact (congrArg (fun b => (b.workStatus.get? (browserKey k)).map (·.status)) hboard).trans (h.status k hk)
    · exact (congrArg (fun b => (b.workStatus.get? key).map (·.status)) hboard).trans (h.noStatus key hkey)

theorem Shows.mono (h : Shows normalizeUrl K stale s v) {stale' : Finset String} (hle : stale ⊆ stale') :
    Shows normalizeUrl K stale' s v :=
  ⟨h.routing, h.transcript, h.results, h.speech, h.noSpeech,
    fun workerId hid hstale => h.worker workerId hid fun hmem => hstale (hle hmem), h.noWorker, h.status, h.noStatus⟩

theorem subset_staleAfter_appendResult (s : SessionState) (stale : Finset String) (r : GroundedResult)
    (sequence originEpoch : Option ℕ) : stale ⊆ s.staleAfter stale (.appendResult r sequence originEpoch) := by
  rw [SessionState.staleAfter]
  split_ifs
  · exact Finset.subset_insert _ _
  · exact Finset.Subset.refl _

/-- A result that is new to the log is appended to the view too. -/
theorem Shows.addResult (h : Shows normalizeUrl K stale s v) {r : GroundedResult} (clock : ℕ → ℚ) (n : ℕ)
    (hnew : (s.results.any fun item => item.resultId = r.resultId) = false) :
    v.follow cfg normalizeUrl clock [⟨n, .result r⟩]
      = { v with results := (s.results ++ [r]).map (normalizedResult normalizeUrl) } := by
  have hfresh : ¬(r.resultId = "" ∨ v.results.any fun item => item.resultId = r.resultId) := by
    rintro (hblank | hmem)
    · exact r.identified.1 hblank
    · rw [h.results, List.any_map] at hmem
      exact Bool.false_ne_true (hnew.symm.trans hmem)
  rw [View.follow, List.foldl_cons, List.foldl_nil, View.applyIncrement, View.addResult, if_neg hfresh, h.results,
    List.map_append]
  rfl

theorem Shows.appendResult (h : Shows normalizeUrl K stale s v) (r : GroundedResult) (sequence originEpoch : Option ℕ)
    (clock : ℕ → ℚ) :
    Shows normalizeUrl K (s.staleAfter stale (.appendResult r sequence originEpoch))
      (s.appendResult r sequence originEpoch).1
      (v.follow cfg normalizeUrl clock (s.appendResult r sequence originEpoch).2) := by
  have hmono := h.mono (subset_staleAfter_appendResult s stale r sequence originEpoch)
  rcases s.appendResult_cases r sequence originEpoch with hout | ⟨n, workers, -, hnew, hown, hout, hworkers⟩
  · rw [hout]
    exact hmono
  · rw [hout, h.addResult (r := SessionState.filedResult r originEpoch) clock n hnew]
    refine ⟨h.routing, h.transcript, rfl, h.speech, h.noSpeech, fun workerId hid hstale => ?_, h.noWorker, h.status,
      h.noStatus⟩
    refine (hmono.worker workerId hid hstale).trans ?_
    rcases hworkers with rfl | ⟨hopen, worker, hget, rfl⟩
    · rfl
    · dsimp only
      rw [Dict.get?_set]
      split_ifs with heq
      · have hpointer : worker.latestResultId = some r.resultId := by
          by_contra hne
          have hmoves : s.movesPointer r originEpoch = true := by
            have hown' : (originEpoch.isSome && r.originEpoch.isSome && decide (originEpoch ≠ r.originEpoch)) = false := by
              simpa using hown
            rw [SessionState.movesPointer, hopen, hown', hnew, hget, Option.any_some, decide_eq_true hne]
            rfl
          rw [SessionState.staleAfter, if_pos hmoves, heq] at hstale
          exact hstale (Finset.mem_insert_self _ _)
        rw [heq, hget, ← hpointer]
      · rfl

theorem Shows.speechProgress (h : Shows normalizeUrl K stale s v) (p : SpeechProgress) (allowStaleReconnect : Bool)
    (clock : ℕ → ℚ) :
    Shows normalizeUrl K stale (s.speechProgress p allowStaleReconnect).1
      (v.follow cfg normalizeUrl clock (s.speechProgress p allowStaleReconnect).2) := by
  rw [SessionState.speechProgress]
  split_ifs
  · exact h
  · exact h
  · have hview : v.follow cfg normalizeUrl clock [⟨s.sequence + 1, .speechProgress p⟩]
        = if p.utteranceId = "" then v else { v with speech := v.speech.set p.utteranceId p } := by
      rw [View.follow, List.foldl_cons, List.foldl_nil, View.applyIncrement, projectedSpeech]
      split_ifs <;> rfl
    rw [SessionState.emit, hview]
    split_ifs with hblank
    · refine ⟨h.routing, h.transcript, h.results, fun utteranceId hid => ?_, h.noSpeech, h.worker, h.noWorker,
        h.status, h.noStatus⟩
      rw [h.speech utteranceId hid]
      exact ((s.speech.get?_set p.utteranceId utteranceId p).trans (if_neg fun hc => hid (hc.trans hblank))).symm
    · refine ⟨h.routing, h.transcript, h.results, fun utteranceId hid => ?_, ?_, h.worker, h.noWorker,
        h.status, h.noStatus⟩
      · rw [Dict.get?_set, Dict.get?_set, h.speech utteranceId hid]
      · rw [Dict.get?_set, if_neg fun hc => hblank hc.symm]
        exact h.noSpeech

theorem Shows.setRouting (h : Shows normalizeUrl K stale s v) (r : RoutingState) (clock : ℕ → ℚ) :
    Shows normalizeUrl K stale (s.setRouting r).1 (v.follow cfg normalizeUrl clock (s.setRouting r).2) := by
  rw [SessionState.setRouting]
  split_ifs
  · exact h
  · exact ⟨rfl, h.transcript, h.results, h.speech, h.noSpeech, h.worker, h.noWorker, h.status, h.noStatus⟩

theorem Shows.appendTranscript (h : Shows normalizeUrl K stale s v) (t : TranscriptEntry) (clock : ℕ → ℚ) :
    Shows normalizeUrl K stale (s.appendTranscript t).1
      (v.follow cfg normalizeUrl clock (s.appendTranscript t).2) := by
  rw [SessionState.appendTranscript]
  split_ifs
  · exact h
  · exact h
  · exact ⟨h.routing, congrArg (· ++ [t]) h.transcript, h.results, h.speech, h.noSpeech, h.worker, h.noWorker,
      h.status, h.noStatus⟩

/-- **A newer status is shown**: in the window the board takes it and drops nothing. -/
theorem StatusBoard.Windowed.increment {b : StatusBoard} (h : b.Windowed B (K.image browserKey))
    (hcap : K.card ≤ cfg.maxKeys) {status : WorkStatus} (hkey : WorkStatusLedger.restoredKey status ∈ K)
    (hnewer : ∀ record, b.workStatus.get? (workStatusKey status) = some record →
      record.status.eventSequence < status.eventSequence)
    {now : ℚ} (hstart : B ≤ now) (hend : now < B + StatusBoard.ttlMs cfg) :
    (b.increment cfg status now).Windowed B (K.image browserKey) ∧
      ∀ key, ((b.increment cfg status now).workStatus.get? key).map (·.status)
        = if key = workStatusKey status then some status else (b.workStatus.get? key).map (·.status) := by
  have hlast : ((((b.workStatus.get? (workStatusKey status)).map (·.status.eventSequence)).or
      (if (b.workStatus.get? (workStatusKey status)).isSome then none
        else b.tombstones.get? (workStatusKey status))).any (status.eventSequence ≤ ·)) = false := by
    rw [h.tombstones]
    rcases hget : b.workStatus.get? (workStatusKey status) with _ | record
    · rfl
    · simpa using hnewer record hget
  obtain ⟨hupsert, hwindow⟩ := h.upsert (Finset.card_image_le.trans hcap) (Finset.mem_image_of_mem _ hkey) status
    hstart hend (fun record hrecord => (h.filed _ record hrecord).2) false
  rw [StatusBoard.increment, projectedWorkStatus, if_neg status.turnId_ne]
  dsimp only
  rw [if_neg (by rw [hlast]; exact Bool.false_ne_true), workStatusKey, hupsert]
  refine ⟨hwindow, fun key => ?_⟩
  rw [Dict.get?_set, apply_ite (Option.map _)]
  rw [Option.map_some, StatusBoard.stamp_status]

theorem Shows.setChildWorkStatus (h : Shows normalizeUrl K stale s v) (hl : WorkStatusLedger.Windowed T K s.ledger)
    (hboard : StatusBoard.Windowed B (K.image browserKey) v.board) (hinj : Set.InjOn browserKey K)
    (hcap : K.card ≤ cfg.maxKeys) {r : WorkStatusLedger.ChildReport} (hkey : r.key ∈ K) {now : ℚ} (hnow : T ≤ now)
    {clock : ℕ → ℚ} (hclock : ∀ n, B ≤ clock n ∧ clock n < B + StatusBoard.ttlMs cfg) :
    Shows normalizeUrl K stale (s.setChildWorkStatus cfg r now).1
        (v.follow cfg normalizeUrl clock (s.setChildWorkStatus cfg r now).2) ∧
      WorkStatusLedger.Windowed T K (s.setChildWorkStatus cfg r now).1.ledger ∧
      StatusBoard.Windowed B (K.image browserKey)
        (v.follow cfg normalizeUrl clock (s.setChildWorkStatus cfg r now).2).board := by
  have hreport := hl.report hcap hkey hnow
  rw [SessionState.setChildWorkStatus]
  rcases hset : s.ledger.setChildWorkStatus cfg r now with ⟨ledger, out⟩
  rw [hset] at hreport
  obtain ⟨hwindow, ⟨hsilent, hsame⟩ | ⟨record, hout, hrestored, hnewer, hafter⟩⟩ := hreport
  · have hquiet : Shows normalizeUrl K stale { s with ledger } v := by
      refine ⟨h.routing, h.transcript, h.results, h.speech, h.noSpeech, h.worker, h.noWorker, fun k hk => ?_,
        h.noStatus⟩
      dsimp only at hsame ⊢
      rw [hsame]
      exact h.status k hk
    rcases out with e | _ | status
    · exact ⟨hquiet, hwindow, hboard⟩
    · exact ⟨hquiet, hwindow, hboard⟩
    · exact absurd rfl (hsilent status)
  · dsimp only at hout hafter
    subst hout
    have hmem : WorkStatusLedger.restoredKey record.status ∈ K := hrestored ▸ hkey
    have hold : ∀ shown, v.board.workStatus.get? (workStatusKey record.status) = some shown →
        shown.status.eventSequence < record.status.eventSequence := by
      intro shown hshown
      have hstatus := h.status r.key hkey
      rw [View.workStatus, ← hrestored] at hstatus
      rw [workStatusKey] at hshown
      rw [hshown, hrestored] at hstatus
      obtain ⟨old, hget, heq⟩ := Option.map_eq_some_iff.mp hstatus.symm
      dsimp only at heq
      rw [← heq]
      exact hnewer old hget
    obtain ⟨hwindow', hlookup⟩ := hboard.increment hcap hmem hold (hclock (s.sequence + 1)).1 (hclock _).2
    refine ⟨⟨h.routing, h.transcript, h.results, h.speech, h.noSpeech, h.worker, h.noWorker, fun k hk => ?_,
      fun key hkeys => ?_⟩, hwindow, hwindow'⟩
    · refine (hlookup (browserKey k)).trans ?_
      change _ = (ledger.parents.get? k).map _
      rw [hafter, workStatusKey, hrestored]
      by_cases heq : k = r.key
      · rw [if_pos (congrArg browserKey heq), if_pos heq, Option.map_some]
      · rw [if_neg fun hc => heq (hinj hk hkey hc), if_neg heq]
        exact h.status k hk
    · refine (hlookup key).trans ?_
      have hne : key ≠ workStatusKey record.status := by
        rintro rfl
        exact hkeys (Finset.mem_image_of_mem _ hmem)
      rw [if_neg hne]
      exact h.noStatus key hkeys

/-! ## Calls that are not work-status reports -/

/-- The call reports a child's work status. -/
def SessionState.Call.isReport : SessionState.Call → Bool
  | .setChildWorkStatus .. => true
  | _ => false

/-- **No other call touches the ledger**, and none of its events does. -/
theorem SessionState.step_of_not_report (cfg : RetentionConfig) (s : SessionState) {c : SessionState.Call}
    (hc : c.isReport = false) :
    (s.step cfg c).1.ledger = s.ledger ∧ ∀ event ∈ (s.step cfg c).2, ∀ status, event.payload ≠ .workStatus status := by
  cases c with
  | setWorker w =>
    rw [step, setWorker]
    split_ifs <;> simp [emit]
  | setRouting r =>
    rw [step, setRouting]
    split_ifs <;> simp [emit]
  | appendTranscript t =>
    rw [step, appendTranscript]
    split_ifs <;> simp [emit]
  | appendResult r sequence originEpoch =>
    rw [step]
    rcases s.appendResult_cases r sequence originEpoch with hout | ⟨n, workers, -, -, -, hout, -⟩ <;> simp [hout]
  | speechProgress p allowStaleReconnect =>
    rw [step, speechProgress]
    split_ifs <;> simp [emit]
  | setChildWorkStatus r now => cases hc

theorem View.board_applyIncrement (v : View) {payload : Payload} (h : ∀ status, payload ≠ .workStatus status)
    (now : ℚ) : (v.applyIncrement cfg normalizeUrl payload now).board = v.board := by
  cases payload with
  | worker w =>
    rw [applyIncrement, projectedWorker]
    split_ifs <;> rfl
  | routing r => rfl
  | transcript t => rfl
  | result r =>
    rw [applyIncrement, addResult]
    split_ifs <;> rfl
  | speechProgress p =>
    rw [applyIncrement, projectedSpeech]
    split_ifs <;> rfl
  | workStatus status => exact absurd rfl (h status)

theorem View.follow_board (clock : ℕ → ℚ) {es : List StateEvent}
    (hes : ∀ event ∈ es, ∀ status, event.payload ≠ .workStatus status) (v : View) :
    (v.follow cfg normalizeUrl clock es).board = v.board := by
  induction es generalizing v with
  | nil => rfl
  | cons event es ih =>
    exact (ih (fun x hx => hes x (List.mem_cons_of_mem _ hx)) _).trans
      (v.board_applyIncrement (hes event List.mem_cons_self) _)

/-- Records stay filed under their own ids. -/
theorem SessionState.Keyed.step (h : s.Keyed) (c : SessionState.Call) : (s.step cfg c).1.Keyed := by
  cases c with
  | setWorker w =>
    rw [SessionState.step, SessionState.setWorker]
    split_ifs
    · exact h
    · refine ⟨fun workerId worker hget => ?_, h.speech⟩
      rw [SessionState.emit, Dict.get?_set] at hget
      split_ifs at hget with heq
      · cases hget
        exact heq.symm
      · exact h.workers workerId worker hget
  | setRouting r =>
    rw [SessionState.step, SessionState.setRouting]
    split_ifs <;> exact ⟨h.workers, h.speech⟩
  | appendTranscript t =>
    rw [SessionState.step, SessionState.appendTranscript]
    split_ifs <;> exact ⟨h.workers, h.speech⟩
  | appendResult r sequence originEpoch =>
    rw [SessionState.step]
    rcases s.appendResult_cases r sequence originEpoch with hout | ⟨n, workers, -, -, -, hout, hworkers⟩
    · rw [hout]
      exact h
    · rw [hout]
      refine ⟨fun workerId worker hget => ?_, h.speech⟩
      rcases hworkers with rfl | ⟨-, old, hold, rfl⟩
      · exact h.workers workerId worker hget
      · dsimp only at hget
        rw [Dict.get?_set] at hget
        split_ifs at hget with heq
        · cases hget
          exact (h.workers r.workerId old hold).trans heq.symm
        · exact h.workers workerId worker hget
  | speechProgress p allowStaleReconnect =>
    rw [SessionState.step, SessionState.speechProgress]
    split_ifs
    · exact h
    · exact h
    · refine ⟨h.workers, fun utteranceId progress hget => ?_⟩
      rw [SessionState.emit, Dict.get?_set] at hget
      split_ifs at hget with heq
      · cases hget
        exact heq.symm
      · exact h.speech utteranceId progress hget
  | setChildWorkStatus r now =>
    rw [SessionState.step, SessionState.setChildWorkStatus]
    split <;> exact ⟨h.workers, h.speech⟩

/-! ## Runs -/

/-- Every report among the moves is of a key in play, and read in the window. -/
def Move.inPlay (T : ℚ) (K : Finset WorkStatusKey) : Move → Prop
  | call c => c.inPlay T K
  | activate _ => True

/-- The call carries the epoch of the connection. -/
def SessionState.Call.ofEpoch (epoch : ℕ) : SessionState.Call → Prop
  | .setWorker w => w.originEpoch = some epoch
  | .setRouting r => r.originEpoch = some epoch
  | .appendTranscript t => t.originEpoch = some epoch
  | .appendResult _ sequence originEpoch => sequence = none ∧ originEpoch = some epoch
  | .speechProgress p _ => p.originEpoch = some epoch
  | .setChildWorkStatus r _ => r.originEpoch = some (epoch : ℤ)

def Move.ofEpoch (epoch : ℕ) : Move → Prop
  | call c => c.ofEpoch epoch
  | activate _ => True

/-- `_visible`, on a connection all kinds are visible to. -/
def StateEvent.visible (epoch : ℕ) (event : StateEvent) : Bool := event.payload.originEpoch = some (epoch : ℤ)

/-- A session with one browser behind it, and the workers no event has caught up with. -/
structure Followed where
  state : SessionState
  view : View
  stale : Finset String := ∅

/-- One move, and the browser that applies what it sees of it. -/
def Followed.step (cfg : RetentionConfig) (normalizeUrl : String → Option String) (clock : ℕ → ℚ) (epoch : ℕ)
    (f : Followed) (m : Move) : Followed where
  state := (m.apply cfg f.state).1
  view := f.view.follow cfg normalizeUrl clock ((m.apply cfg f.state).2.filter (StateEvent.visible epoch))
  stale :=
    match m with
    | .call c => f.state.staleAfter f.stale c
    | .activate _ => f.stale

/-- The browser installs the snapshot the session hands it. -/
def Followed.start (cfg : RetentionConfig) (normalizeUrl : String → Option String) (epoch : ℕ) (now shown : ℚ)
    (s : SessionState) : Followed where
  state := (s.snapshot cfg (some epoch) true now).1
  view := View.install cfg normalizeUrl {} (s.snapshot cfg (some epoch) true now).2 shown

variable {epoch : ℕ}

/-- **Every event of the connection's own calls is visible to it.** -/
theorem visible_of_ofEpoch (hl : WorkStatusLedger.Windowed T K s.ledger) (hcap : K.card ≤ cfg.maxKeys)
    {c : SessionState.Call} (hplay : c.inPlay T K) (hc : c.ofEpoch epoch) :
    ∀ event ∈ (s.step cfg c).2, event.visible epoch = true := by
  cases c with
  | setWorker w =>
    rw [SessionState.Call.ofEpoch] at hc
    rw [SessionState.step, SessionState.setWorker]
    split_ifs <;> simp [SessionState.emit, StateEvent.visible, Payload.originEpoch, hc]
  | setRouting r =>
    rw [SessionState.Call.ofEpoch] at hc
    rw [SessionState.step, SessionState.setRouting]
    split_ifs <;> simp [SessionState.emit, StateEvent.visible, Payload.originEpoch, hc]
  | appendTranscript t =>
    rw [SessionState.Call.ofEpoch] at hc
    rw [SessionState.step, SessionState.appendTranscript]
    split_ifs <;> simp [SessionState.emit, StateEvent.visible, Payload.originEpoch, hc]
  | appendResult r sequence originEpoch =>
    obtain ⟨rfl, rfl⟩ := hc
    rw [SessionState.step]
    rcases s.appendResult_cases r none (some epoch) with hout | ⟨n, workers, -, -, hown, hout, -⟩
    · simp [hout]
    · have hfiled : (SessionState.filedResult r (some epoch)).originEpoch = some epoch := by
        change r.originEpoch.or (some epoch) = some epoch
        rcases horigin : r.originEpoch with _ | o
        · rfl
        · by_contra hne
          refine hown ⟨rfl, by rw [horigin]; rfl, fun heq => hne ?_⟩
          rw [Option.some_or, ← horigin, heq]
      simp [hout, StateEvent.visible, Payload.originEpoch, hfiled]
  | speechProgress p allowStaleReconnect =>
    rw [SessionState.Call.ofEpoch] at hc
    rw [SessionState.step, SessionState.speechProgress]
    split_ifs <;> simp [SessionState.emit, StateEvent.visible, Payload.originEpoch, hc]
  | setChildWorkStatus r now =>
    have hreport := (hl.report hcap hplay.1 hplay.2).2
    rw [SessionState.step, SessionState.setChildWorkStatus]
    rcases hset : s.ledger.setChildWorkStatus cfg r now with ⟨ledger, out⟩
    rw [hset] at hreport
    rcases out with e | _ | status
    · simp
    · simp
    · rcases hreport with ⟨hsilent, -⟩ | ⟨record, hout, hrestored, -⟩
      · exact absurd rfl (hsilent status)
      · cases hout
        have horigin : record.status.originEpoch = r.originEpoch := congrArg WorkStatusKey.originEpoch hrestored
        rw [SessionState.Call.ofEpoch] at hc
        simp [SessionState.emit, StateEvent.visible, Payload.originEpoch, horigin, hc]

/-- A followed session: the view shows the state, and both sides are inside their windows. -/
structure Followed.Sound (normalizeUrl : String → Option String) (T B : ℚ) (K : Finset WorkStatusKey)
    (f : Followed) : Prop where
  shows : Shows normalizeUrl K f.stale f.state f.view
  keyed : f.state.Keyed
  ledger : WorkStatusLedger.Windowed T K f.state.ledger
  board : StatusBoard.Windowed B (K.image browserKey) f.view.board

/-- **One move keeps a followed session sound.** -/
theorem Followed.Sound.step {f : Followed} (h : f.Sound normalizeUrl T B K) (hinj : Set.InjOn browserKey K)
    (hcap : K.card ≤ cfg.maxKeys) {clock : ℕ → ℚ} (hclock : ∀ n, B ≤ clock n ∧ clock n < B + StatusBoard.ttlMs cfg)
    {m : Move} (hplay : m.inPlay T K) (hm : m.ofEpoch epoch) :
    (f.step cfg normalizeUrl clock epoch m).Sound normalizeUrl T B K := by
  cases m with
  | activate originEpoch =>
    exact ⟨⟨h.shows.routing, h.shows.transcript, h.shows.results, h.shows.speech, h.shows.noSpeech, h.shows.worker,
      h.shows.noWorker, h.shows.status, h.shows.noStatus⟩, ⟨h.keyed.workers, h.keyed.speech⟩, h.ledger, h.board⟩
  | call c =>
    have hall := List.filter_eq_self.mpr (visible_of_ofEpoch h.ledger hcap hplay hm)
    have hview : (f.step cfg normalizeUrl clock epoch (.call c)).view
        = f.view.follow cfg normalizeUrl clock (f.state.step cfg c).2 :=
      congrArg (f.view.follow cfg normalizeUrl clock) hall
    by_cases hreport : c.isReport = true
    · cases c with
      | setChildWorkStatus r now =>
        obtain ⟨hshows, hledger, hboard⟩ := h.shows.setChildWorkStatus h.ledger h.board hinj hcap hplay.1 hplay.2 hclock
        exact ⟨hview ▸ hshows, h.keyed.step _, hledger, hview ▸ hboard⟩
      | _ => cases hreport
    · obtain ⟨hledger, hevents⟩ := f.state.step_of_not_report cfg (by simpa using hreport)
      refine ⟨hview ▸ ?_, h.keyed.step c, ?_, ?_⟩
      · cases c with
        | setWorker w => exact h.shows.setWorker w clock
        | setRouting r => exact h.shows.setRouting r clock
        | appendTranscript t => exact h.shows.appendTranscript t clock
        | appendResult r sequence originEpoch => exact h.shows.appendResult r sequence originEpoch clock
        | speechProgress p allowStaleReconnect => exact h.shows.speechProgress p allowStaleReconnect clock
        | setChildWorkStatus r now => exact absurd rfl hreport
      · exact hledger.symm ▸ h.ledger
      · rw [hview, View.follow_board clock hevents]
        exact h.board

/-- **A run before the snapshot leaves its records filed and inside the window.** -/
theorem history_windowed (hcap : K.card ≤ cfg.maxKeys) (sessionId : String) {history : List Move}
    (hplay : ∀ m ∈ history, m.inPlay T K) :
    (run (fun s m => (Move.apply cfg s m).1) { sessionId } history).Keyed ∧
      WorkStatusLedger.Windowed T K (run (fun s m => (Move.apply cfg s m).1) { sessionId } history).ledger := by
  refine run_invariant_of_forall (I := fun s : SessionState => s.Keyed ∧ WorkStatusLedger.Windowed T K s.ledger) ?_
    ⟨⟨fun _ _ h => (Option.some_ne_none _ h.symm).elim, fun _ _ h => (Option.some_ne_none _ h.symm).elim⟩,
      WorkStatusLedger.windowed_empty⟩ hplay
  rintro s m ⟨hkeyed, hledger⟩ hm
  cases m with
  | activate originEpoch => exact ⟨⟨hkeyed.workers, hkeyed.speech⟩, hledger⟩
  | call c =>
    refine ⟨hkeyed.step c, ?_⟩
    by_cases hreport : c.isReport = true
    · cases c with
      | setChildWorkStatus r now =>
        have hwindow := (hledger.report hcap hm.1 hm.2).1
        rw [Move.apply, SessionState.step, SessionState.setChildWorkStatus]
        split
        · simp_all [SessionState.emit]
        · simp_all
      | _ => cases hreport
    · exact (s.step_of_not_report cfg (by simpa using hreport)).1.symm ▸ hledger

/-- **Incremental and fresh views agree**, when no worker is left whose pointer a result moved and no event
has caught up with, and the keys in play have names of their own. -/
theorem follow_agrees_fresh (cfg : RetentionConfig) (normalizeUrl : String → Option String) (sessionId : String)
    (epoch : ℕ) (K : Finset WorkStatusKey) (T B : ℚ) (history later : List Move) (clock : ℕ → ℚ)
    (now shown now' shown' : ℚ) (hcap : K.card ≤ cfg.maxKeys) (hinj : Set.InjOn browserKey K)
    (hhistory : ∀ m ∈ history, m.inPlay T K) (hlater : ∀ m ∈ later, m.inPlay T K ∧ m.ofEpoch epoch)
    (hnow : now < T + cfg.ttlSeconds ∧ now' < T + cfg.ttlSeconds)
    (hclock : ∀ n, B ≤ clock n ∧ clock n < B + StatusBoard.ttlMs cfg)
    (hshown : B ≤ shown ∧ shown < B + StatusBoard.ttlMs cfg)
    (hshown' : B ≤ shown' ∧ shown' < B + StatusBoard.ttlMs cfg) :
    let s := run (fun s m => (Move.apply cfg s m).1) { sessionId } history
    let f := run (Followed.step cfg normalizeUrl clock epoch) (Followed.start cfg normalizeUrl epoch now shown s) later
    f.stale = ∅ → f.view.Agree (Followed.start cfg normalizeUrl epoch now' shown' f.state).view := by
  intro s f hstale
  obtain ⟨hkeyed, hledger⟩ := history_windowed hcap sessionId hhistory
  have hsame : (s.snapshot cfg (some epoch) true now).1 = s := by
    rw [SessionState.snapshot, if_pos rfl, hledger.workStatusSnapshot hnow.1]
  obtain ⟨hshows, hboard⟩ := shows_install normalizeUrl B hkeyed hledger hinj hcap hnow.1
    hshown.1 hshown.2 (some epoch)
  have hstart : (Followed.start cfg normalizeUrl epoch now shown s).Sound normalizeUrl T B K := by
    refine ⟨?_, ?_, ?_, hboard⟩
    · rw [Followed.start, hsame]
      exact hshows
    · rw [Followed.start, hsame]
      exact hkeyed
    · rw [Followed.start, hsame]
      exact hledger
  have hsound : f.Sound normalizeUrl T B K :=
    run_invariant_of_forall (fun _ _ hf hm => hf.step hinj hcap hclock hm.1 hm.2) hstart hlater
  have hfollowed : Shows normalizeUrl K ∅ f.state f.view := hstale ▸ hsound.shows
  exact hfollowed.agree (shows_install _ _ hsound.keyed hsound.ledger hinj hcap hnow.2 hshown'.1 hshown'.2 (some epoch)).1

/-- A result of worker `w` for turn `t`. -/
def resultOfW : GroundedResult where
  resultId := "r"
  workerId := "w"
  turnId := "t"
  timestamp := "2026-01-01T00:00:00Z"
  text := "text"
  spokenText := "spoken"
  originEpoch := some 1
  identified := by decide
  projected := by decide +kernel

/-- Worker `w` before it has a result. -/
def workerW : WorkerState where
  workerId := "w"
  topic := "topic"
  modelPolicy := "light"
  status := "running"
  originEpoch := some 1

/-- The connection of epoch 1 is active and worker `w` is known. -/
def workerKnown : List Move := [.activate (some 1), .call (.setWorker workerW)]

/-- A run of every mutator; the worker is written again after its result. -/
def resultThenWorker : List Move :=
  [.call (.setRouting { turnId := "t", action := .existingWorker, originEpoch := some 1 }),
    .call (.appendTranscript ⟨.user, "hello", "t", "2026-01-01T00:00:00Z", some 1⟩),
    .call (.setChildWorkStatus ⟨"t", "item", none, some "w", .searching, some 1, none⟩ 3),
    .call (.appendResult resultOfW none (some 1)),
    .call (.setWorker { workerW with latestResultId := some "r" }),
    .call (.speechProgress ⟨"r", "item", "run", "utterance", .queued, some 1⟩ false)]

/-- Worker `w` is known when the browser connects; its result arrives, and no worker event follows. -/
theorem result_moves_unseen_pointer :
    ¬(run (Followed.step retentionConfig some (fun _ => 0) 1)
        (Followed.start retentionConfig some 1 0 0
          (run (fun s m => (Move.apply retentionConfig s m).1) { sessionId := "session" } workerKnown))
        [.call (.appendResult resultOfW none (some 1))]).view.Agree
      (Followed.start retentionConfig some 1 0 0
        (run (Followed.step retentionConfig some (fun _ => 0) 1)
          (Followed.start retentionConfig some 1 0 0
            (run (fun s m => (Move.apply retentionConfig s m).1) { sessionId := "session" } workerKnown))
          [.call (.appendResult resultOfW none (some 1))]).state).view := by
  intro h
  have hworker := h.workers "w"
  revert hworker
  decide +kernel

theorem follow_agrees_fresh_resultThenWorker :
    (run (Followed.step retentionConfig some (fun _ => 0) 1)
        (Followed.start retentionConfig some 1 2 0
          (run (fun s m => (Move.apply retentionConfig s m).1) { sessionId := "session" } workerKnown))
        resultThenWorker).view.Agree
      (Followed.start retentionConfig some 1 4 0
        (run (Followed.step retentionConfig some (fun _ => 0) 1)
          (Followed.start retentionConfig some 1 2 0
            (run (fun s m => (Move.apply retentionConfig s m).1) { sessionId := "session" } workerKnown))
          resultThenWorker).state).view := by
  refine follow_agrees_fresh retentionConfig some "session" 1 {⟨some 1, "t", "item"⟩} 0 0 workerKnown
    resultThenWorker (fun _ => 0) 2 0 4 0 (by decide) (by simp) ?_ ?_ (by norm_num [retentionConfig]) ?_ ?_ ?_
    (by decide +kernel)
  · simp [workerKnown, Move.inPlay, SessionState.Call.inPlay]
  · simp [resultThenWorker, Move.inPlay, SessionState.Call.inPlay, Move.ofEpoch, SessionState.Call.ofEpoch,
      WorkStatusLedger.ChildReport.key, workerW]
  · norm_num [StatusBoard.ttlMs, retentionConfig]
  · norm_num [StatusBoard.ttlMs, retentionConfig]
  · norm_num [StatusBoard.ttlMs, retentionConfig]

end Session

end SubagentsLab

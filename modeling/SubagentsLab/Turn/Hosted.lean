import SubagentsLab.Machinery.Passes
import SubagentsLab.Turn.Chains
import SubagentsLab.Turn.OneAck

/-!
# Turn/Hosted — the ledger of a host is a ledger with its chains

An `AckHost` has the scheduler of its connection beside the ledger, an `AckChains` has it outside.  Whatever a host
does, its ledger, its emissions and its admissions move as the latter's on a few events (`asked`): what the ledger now
reads of its host, and the admissions and acknowledgements that the scheduler reports as over.  A report finds its
admission in `start_next` (`Ticketed`), as long as the ledger's are the only admissions there are.  So what is known of
chains is known of a host: no admission goes past its attempts (`attempts_le`).
-/

namespace SubagentsLab

open Machinery

/-- The log is kept beside the ledger. -/
theorem AckChronicle.chains_run (s : AckChains) (log : List AckDeed) (es : List AckChains.Event) :
    (run AckChronicle.step ⟨s, log⟩ es).chains = run (fun s e => (AckChains.step s e).1) s es := by
  induction es generalizing s log with
  | nil => rfl
  | cons e es ih => exact ih _ _

namespace AckHost

open SpeechScheduler

variable {cfg : LifecycleConfig} {h h' : AckHost} {origin : ℕ}

/-! ## The host from its ledger -/

/-- What the ledger reads of its host, whose connection is `origin`. -/
def view (cfg : LifecycleConfig) (origin : ℕ) (h : AckHost) : AckView where
  enableEarlyAck := h.enableEarlyAck
  earlyAckText := h.earlyAckText
  connection := if h.pipeline.current then some origin else none
  accepts originEpoch := !h.closing && decide (h.epoch = originEpoch)
  tts _ := cfg.ttsAvailable
  active _ := h.pipeline.active
  epoch _ := h.epoch

/-- The ledger with its calls and tasks in flight, the scheduler outside. -/
def chains (cfg : LifecycleConfig) (origin : ℕ) (h : AckHost) : AckChains where
  view := h.view cfg origin
  ledger := h.ledger
  emissions := h.emissions.map (⟨·, origin⟩)
  admissions := h.admissions.map (⟨·, origin⟩)
  nextTask := h.nextTask

/-- What the ledger hears of the scheduler. -/
def heard? : Notice → Option AckChains.Event
  | .ackTerminal identity _ => some (.onAckTerminal identity.turnId)
  | .returned (.admission id) item => some (.returned id item.isSome)
  | .raised (.admission id) _ => some (.raised id)
  | _ => none

/-- What a step of the host is for the ledger, before the scheduler reports and after. -/
def calls (origin : ℕ) : Event → List AckChains.Event × List AckChains.Event
  | .emitEarlyAck turnId originEpoch dispatched searching =>
    ([.emitEarlyAck origin turnId originEpoch dispatched searching], [])
  | .resumeEmission id searchDone => ([.resumeEmission id searchDone], [])
  | .cancelEmission id => ([.cancelEmission id], [])
  | .runAdmission id => ([.runAdmission id], [])
  | .wake id => ([.wake id], [])
  | .cancelAdmission id => ([.cancelAdmission id], [])
  | .settleTurnAck turnId cancelAdmitted => ([], [.settleTurnAck origin turnId cancelAdmitted])
  | .clearAckLatch turnId => ([.clearAckLatch turnId], [])
  | .clearAll => ([.clearAll], [])
  | .speech _ | .setClosing _ | .configure _ _ => ([], [])

/-- **What a step of the host asks of its ledger.** -/
def asked (cfg : LifecycleConfig) (origin : ℕ) (h : AckHost) (e : Event) : List AckChains.Event :=
  (calls origin e).1 ++ .observe ((h.step cfg e).1.view cfg origin) :: (h.step cfg e).2.filterMap heard? ++
    (calls origin e).2

/-! ## Calls of the ledger -/

theorem connection_view (h : AckHost) : decide ((h.view cfg origin).connection = some origin) = h.pipeline.current := by
  rw [view]
  cases h.pipeline.current <;> simp

theorem eligible_chains (turnId : String) (originEpoch : ℤ) (dispatched searching : Bool) :
    (h.chains cfg origin).eligible origin turnId originEpoch dispatched searching
      = h.eligible cfg turnId originEpoch dispatched searching := by
  have hconnection : decide ((h.chains cfg origin).view.connection = some origin) = _ := connection_view h
  rw [AckChains.eligible, hconnection, eligible, live]
  simp only [chains, view, Bool.and_assoc]

theorem live_chains (task : Admission) :
    (h.chains cfg origin).live ⟨task, origin⟩ = true ↔
      task.turnId ∈ h.ledger.emittedTurns ∧ h.live task.originEpoch = true := by
  have hconnection : decide ((h.chains cfg origin).view.connection = some origin) = _ := connection_view h
  have hread : (h.chains cfg origin).live ⟨task, origin⟩ = true ↔
      (((task.turnId ∈ h.ledger.emittedTurns ∧ h.pipeline.current = true) ∧ h.pipeline.active = true) ∧
        h.epoch = task.originEpoch) ∧ (h.view cfg origin).accepts task.originEpoch = true := by
    rw [AckChains.live, hconnection]
    simp only [Bool.and_eq_true, decide_eq_true_eq]
    exact Iff.rfl
  rw [hread, live]
  simp only [view, Bool.and_eq_true, decide_eq_true_eq]
  tauto

theorem emit_chains (turnId : String) (originEpoch : ℤ) :
    ((h.chains cfg origin).emit origin turnId originEpoch).1 = (h.emit cfg turnId originEpoch).chains cfg origin := by
  simp only [AckChains.emit, AckChains.scheduleAckAdmission, emit, scheduleAckAdmission, chains, List.map_append,
    List.map_singleton]
  rfl

theorem forget_chains (id : ℕ) : (h.chains cfg origin).forget id = (h.forget id).chains cfg origin := by
  rw [AckChains.forget, chains, chains, forget, List.filter_map]
  rfl

theorem retryOrAbandon_chains (task : Admission) (needsRequeue : Bool) :
    ((h.chains cfg origin).retryOrAbandon ⟨task, origin⟩ needsRequeue).1
      = (h.retryOrAbandon cfg task needsRequeue).chains cfg origin := by
  have hlive : ((h.chains cfg origin).live ⟨task, origin⟩ = false) ↔
      (task.turnId ∉ h.ledger.emittedTurns ∨ h.live task.originEpoch = false) := by
    rw [← Bool.not_eq_true, live_chains, not_and_or, Bool.not_eq_true]
  rw [AckChains.retryOrAbandon, retryOrAbandon]
  by_cases hsup : h.ledger.superseded task.turnId task.generation = true
  · rw [if_pos hsup]
    exact congrArg _ (if_pos hsup)
  · rw [if_neg hsup]
    refine (congrArg _ (if_neg hsup)).trans ?_
    by_cases hdead : task.turnId ∉ h.ledger.emittedTurns ∨ h.live task.originEpoch = false
    · rw [if_pos hdead, if_pos (hlive.mpr hdead)]
      rfl
    · rw [if_neg hdead, if_neg (mt hlive.mp hdead)]
      by_cases hlast : ackAdmissionMaxAttempts ≤ task.attempt
      · rw [if_pos hlast, if_pos hlast]
        rfl
      · rw [if_neg hlast, if_neg hlast]
        cases needsRequeue <;> simp only [chains, List.map_append, List.map_singleton] <;> rfl

/-! ## Admissions and their submissions -/

/-- The ids of the admissions are distinct, and have been issued. -/
structure Issued (h : AckHost) : Prop where
  distinct : (h.admissions.map (·.id)).Nodup
  issued : ∀ task ∈ h.admissions, task.id < h.nextTask

/-- The admission `id` has been issued and, if it is still under way, is in `start_next`. -/
def Waits (h : AckHost) (id : ℕ) : Prop :=
  id < h.nextTask ∧ ∀ task ∈ h.admissions, task.id = id → task.point = .admitting

/-- **The admissions that are being submitted are in `start_next`.** -/
structure Ticketed (h : AckHost) : Prop extends Issued h where
  submitted : ∀ sub ∈ h.pipeline.scheduler.submissions, ∀ id, sub.caller = .admission id → h.Waits id

/-- Admissions end, new ones have new ids, and nothing is submitted. -/
structure Proceeds (h h' : AckHost) : Prop where
  next : h.nextTask ≤ h'.nextTask
  admissions : ∀ task ∈ h'.admissions, task ∈ h.admissions ∨ h.nextTask ≤ task.id ∧ task.id < h'.nextTask
  distinct : h.Issued → (h'.admissions.map (·.id)).Nodup
  submissions : h'.pipeline.scheduler.submissions = h.pipeline.scheduler.submissions

theorem Proceeds.issued (hp : Proceeds h h') (hi : h.Issued) : h'.Issued where
  distinct := hp.distinct hi
  issued task ht := (hp.admissions task ht).elim (fun hold => (hi.issued task hold).trans_le hp.next) And.right

theorem Proceeds.waits (hp : Proceeds h h') {id : ℕ} (hw : h.Waits id) : h'.Waits id := by
  refine ⟨hw.1.trans_le hp.next, fun task ht hid => ?_⟩
  rcases hp.admissions task ht with hold | ⟨hnew, -⟩
  · exact hw.2 task hold hid
  · exact absurd hw.1 (hid ▸ hnew).not_gt

theorem Proceeds.ticketed (hp : Proceeds h h') (ht : h.Ticketed) : h'.Ticketed where
  toIssued := hp.issued ht.toIssued
  submitted sub hsub id hid := hp.waits (ht.submitted sub (hp.submissions ▸ hsub) id hid)

theorem Proceeds.trans {h'' : AckHost} (hp : Proceeds h h') (hp' : Proceeds h' h'') : Proceeds h h'' where
  next := hp.next.trans hp'.next
  admissions task ht := by
    rcases hp'.admissions task ht with hold | ⟨hnew, hlt⟩
    · exact (hp.admissions task hold).imp_right fun hnew => ⟨hnew.1, hnew.2.trans_le hp'.next⟩
    · exact Or.inr ⟨hp.next.trans hnew, hlt⟩
  distinct hi := hp'.distinct (hp.issued hi)
  submissions := hp'.submissions.trans hp.submissions

theorem proceeds_of_sublist (hnext : h'.nextTask = h.nextTask) (hadmissions : List.Sublist h'.admissions h.admissions)
    (hsubs : h'.pipeline.scheduler.submissions = h.pipeline.scheduler.submissions) : Proceeds h h' where
  next := hnext.ge
  admissions _ ht := Or.inl (hadmissions.subset ht)
  distinct hi := hi.distinct.sublist (hadmissions.map _)
  submissions := hsubs

/-- One admission more. -/
theorem proceeds_append {task : Admission} (hid : task.id = h.nextTask) (hnext : h'.nextTask = h.nextTask + 1)
    (hadmissions : h'.admissions = h.admissions ++ [task])
    (hsubs : h'.pipeline.scheduler.submissions = h.pipeline.scheduler.submissions) : Proceeds h h' where
  next := hnext ▸ Nat.le_succ _
  admissions t ht := by
    rw [hadmissions] at ht
    rcases List.mem_append.mp ht with hold | hnew
    · exact Or.inl hold
    · rw [List.mem_singleton.mp hnew, hid, hnext]
      exact Or.inr ⟨le_rfl, Nat.lt_succ_self _⟩
  distinct hi := by
    rw [hadmissions, List.map_append, List.map_singleton, hid, List.nodup_append]
    refine ⟨hi.distinct, List.nodup_singleton _, fun id hmem id' hmem' => ?_⟩
    obtain ⟨t, ht, rfl⟩ := List.mem_map.mp hmem
    rw [List.mem_singleton.mp hmem']
    exact (hi.issued t ht).ne
  submissions := hsubs

theorem proceeds_forget (h : AckHost) (id : ℕ) : Proceeds h (h.forget id) :=
  proceeds_of_sublist rfl List.filter_sublist rfl

theorem proceeds_retryOrAbandon (h : AckHost) (task : Admission) (needsRequeue : Bool) :
    Proceeds h (h.retryOrAbandon cfg task needsRequeue) := by
  have hsubs : (h.retryOrAbandon cfg task needsRequeue).pipeline.scheduler.submissions
      = h.pipeline.scheduler.submissions := submissions_retryOrAbandon h task needsRequeue
  rw [retryOrAbandon] at hsubs ⊢
  split_ifs at hsubs ⊢
  · exact proceeds_of_sublist rfl (List.Sublist.refl _) hsubs
  · exact proceeds_of_sublist rfl (List.Sublist.refl _) hsubs
  · exact proceeds_of_sublist rfl (List.Sublist.refl _) hsubs
  · exact proceeds_append rfl rfl rfl hsubs
  · exact proceeds_append rfl rfl rfl hsubs

theorem proceeds_admissionEnds (h : AckHost) (id : ℕ) (needsRequeue : Bool) :
    Proceeds h (h.admissionEnds cfg id needsRequeue) := by
  rw [admissionEnds]
  split
  · exact proceeds_of_sublist rfl (List.Sublist.refl _) rfl
  · exact (proceeds_forget h id).trans (proceeds_retryOrAbandon _ _ _)

theorem proceeds_hear (cfg : LifecycleConfig) (h : AckHost) (n : Notice) : Proceeds h (h.hear cfg n) := by
  rcases n with item | item | item | ⟨i, reason⟩ | ⟨_ | _ | _ | id, _ | item⟩ | ⟨_ | _ | _ | id, item⟩
  case returned.admission.none => exact proceeds_admissionEnds h id false
  case returned.admission.some => exact proceeds_forget h id
  case raised.admission => exact proceeds_admissionEnds h id true
  all_goals exact proceeds_of_sublist rfl (List.Sublist.refl _) rfl

/-! ## What the scheduler reports -/

theorem taskAt_chains (hi : h.Issued) (id : ℕ) (point : AdmissionPoint) :
    (h.chains cfg origin).taskAt id point
      = ((h.admissions.find? (·.id = id)).filter (·.point = point)).map (⟨·, origin⟩) := by
  have hfind := find?_key_and Admission.id (·.point = point) hi.distinct id
  rw [AckChains.taskAt, chains, List.find?_map]
  exact congrArg _ hfind

/-- The admission of the id stands at the point, for both, or for neither. -/
theorem admission_cases (cfg : LifecycleConfig) (origin : ℕ) (hi : h.Issued) (id : ℕ) (point : AdmissionPoint) :
    (∃ task ∈ h.admissions, task.id = id ∧ task.point = point ∧
        h.admissions.find? (fun task => decide (task.id = id)) = some task ∧
        (h.chains cfg origin).taskAt id point = some ⟨task, origin⟩) ∨
      (∀ task, h.admissions.find? (fun task => decide (task.id = id)) = some task → task.point ≠ point) ∧
        (h.chains cfg origin).taskAt id point = none := by
  rw [taskAt_chains hi]
  rcases hfound : h.admissions.find? (fun task => decide (task.id = id)) with _ | task
  · rw [hfound]
    exact Or.inr ⟨fun _ hnone => absurd hnone.symm (Option.some_ne_none _), rfl⟩
  · rw [hfound, Option.filter_some]
    by_cases hpoint : task.point = point
    · refine Or.inl ⟨task, List.mem_of_find?_eq_some hfound, by simpa using List.find?_some hfound, hpoint, rfl, ?_⟩
      rw [if_pos (decide_eq_true hpoint)]
      rfl
    · refine Or.inr ⟨fun task' heq => ?_, ?_⟩
      · cases heq
        exact hpoint
      · rw [if_neg (by simpa using hpoint)]
        rfl

/-- **What the ledger makes of a report**, an admission that is over being in `start_next`. -/
theorem hear_chains (cfg : LifecycleConfig) (origin : ℕ) (hi : h.Issued) (n : Notice) (hn : ∀ id, n.answered = some (.admission id) → h.Waits id) :
    run (fun s e => (AckChains.step s e).1) (h.chains cfg origin) (heard? n).toList
      = (h.hear cfg n).chains cfg origin := by
  have hfind : ∀ id, n.answered = some (.admission id) → (h.chains cfg origin).taskAt id .admitting
      = (h.admissions.find? (·.id = id)).map (⟨·, origin⟩) := by
    intro id hid
    rw [taskAt_chains hi]
    rcases hfound : h.admissions.find? (fun task => decide (task.id = id)) with _ | task
    · rw [hfound]
      rfl
    · have hwaits := (hn id hid).2 task (List.mem_of_find?_eq_some hfound) (by simpa using List.find?_some hfound)
      rw [hfound, Option.filter_some, if_pos (decide_eq_true hwaits)]
  have hends : ∀ id needsRequeue, n.answered = some (.admission id) →
      (((h.chains cfg origin).taskAt id .admitting).elim (h.chains cfg origin, []) fun task =>
        ((h.chains cfg origin).forget task.id).retryOrAbandon task needsRequeue).1
        = (h.admissionEnds cfg id needsRequeue).chains cfg origin := by
    intro id needsRequeue hid
    rw [hfind id hid, admissionEnds]
    rcases hfound : h.admissions.find? (fun task => decide (task.id = id)) with _ | task
    · rw [hfound]
      rfl
    · have htask : task.id = id := by simpa using List.find?_some hfound
      rw [hfound, Option.map_some, Option.elim_some, ← htask, forget_chains]
      exact retryOrAbandon_chains task needsRequeue
  rcases n with item | item | item | ⟨identity, reason⟩ | ⟨_ | _ | _ | id, _ | item⟩ | ⟨_ | _ | _ | id, item⟩
  case ackTerminal =>
    rcases hturn : identity.turnId with _ | turnId
    · simp [heard?, hear, hturn, AckChains.step, chains]
    · simp [heard?, hear, hturn, AckChains.step, chains]
      rfl
  case returned.admission.none => exact hends id false rfl
  case returned.admission.some =>
    change (((h.chains cfg origin).taskAt id .admitting).elim (h.chains cfg origin, []) _).1 = _
    rw [hfind id rfl]
    rcases hfound : h.admissions.find? (fun task => decide (task.id = id)) with _ | task
    · -- there is no such admission
      have hgone : h.forget id = h := by
        have hothers : h.admissions.filter (·.id ≠ id) = h.admissions := List.filter_eq_self.mpr fun task ht =>
          decide_eq_true fun hid => List.find?_eq_none.mp hfound task ht (decide_eq_true hid)
        rw [forget, hothers]
      rw [hfound, hear, hgone]
      rfl
    · have htask : task.id = id := by simpa using List.find?_some hfound
      rw [hfound, Option.map_some, Option.elim_some, ← htask]
      exact forget_chains _
  case raised.admission => exact hends id true rfl
  all_goals rfl

theorem hearAll_chains {ns : List Notice} (hi : h.Issued)
    (hns : ∀ n ∈ ns, ∀ id, n.answered = some (.admission id) → h.Waits id) :
    run (fun s e => (AckChains.step s e).1) (h.chains cfg origin) (ns.filterMap heard?)
      = (ns.foldl (hear cfg) h).chains cfg origin := by
  induction ns generalizing h with
  | nil => rfl
  | cons n ns ih =>
    have hfirst := hear_chains cfg origin hi n (hns n List.mem_cons_self)
    have hproceeds := proceeds_hear cfg h n
    have hrest := ih (hproceeds.issued hi) fun n' hn' id hid =>
      hproceeds.waits (hns n' (List.mem_cons_of_mem n hn') id hid)
    rw [List.foldl_cons, ← hrest, ← hfirst, List.filterMap_cons]
    rcases heard? n with _ | e
    · rfl
    · rfl

theorem view_hear (h : AckHost) (n : Notice) : (h.hear cfg n).view cfg origin = h.view cfg origin := by
  have hends : ∀ id needsRequeue, (h.admissionEnds cfg id needsRequeue).view cfg origin = h.view cfg origin := by
    intro id needsRequeue
    rw [admissionEnds]
    split
    · rfl
    · rw [retryOrAbandon]
      split_ifs <;> rfl
  rcases n with item | item | item | ⟨i, reason⟩ | ⟨_ | _ | _ | id, _ | item⟩ | ⟨_ | _ | _ | id, item⟩
  case returned.admission.none => exact hends id false
  case raised.admission => exact hends id true
  all_goals rfl

theorem view_hearAll (h : AckHost) (ns : List Notice) :
    (ns.foldl (hear cfg) h).view cfg origin = h.view cfg origin := by
  induction ns generalizing h with
  | nil => rfl
  | cons n ns ih => exact (ih _).trans (view_hear h n)

/-- An admission that calls `start_next` in the step waits for it. -/
def Starts (h : AckHost) (e : ConnectionPipeline.Event) : Prop := ∀ id key, e = .startAck id key → h.Waits id

/-- **A step of the connection reports on admissions that are in `start_next`**, and submits for no others. -/
theorem Ticketed.reports (cfg : LifecycleConfig) (ht : h.Ticketed) {e : ConnectionPipeline.Event} (he : h.Starts e) :
    { h with pipeline := (h.pipeline.step cfg e).1 }.Ticketed ∧
      ∀ n ∈ (h.pipeline.step cfg e).2, ∀ id, n.answered = some (.admission id) → h.Waits id := by
  refine ⟨⟨⟨ht.distinct, ht.issued⟩, fun sub hsub id hid => ?_⟩, fun n hn id hid => ?_⟩
  · rcases (ConnectionPipeline.submits_step h.pipeline e).1 sub hsub with ⟨old, hold, hcaller, -⟩ | hnew
    · exact ht.submitted old hold id (hcaller.trans hid)
    · exact he id _ (hnew id hid)
  · rcases (ConnectionPipeline.answered_step h.pipeline e hn hid).1 with ⟨sub, hsub, hcaller⟩ | ⟨key, hstart⟩
    · exact ht.submitted sub hsub id hcaller
    · exact he id key hstart

theorem Ticketed.listen (cfg : LifecycleConfig) (ht : h.Ticketed) {e : ConnectionPipeline.Event} (he : h.Starts e) :
    (h.listen cfg e).1.Ticketed := by
  obtain ⟨hfirst, -⟩ := ht.reports cfg he
  rw [AckHost.listen]
  dsimp only
  generalize (h.pipeline.step cfg e).2 = ns
  generalize { h with pipeline := (h.pipeline.step cfg e).1 } = h₁ at hfirst ⊢
  exact run_invariant_of_step (fun h n ht => (proceeds_hear cfg h n).ticketed ht) hfirst ns

/-- **What the ledger makes of a step of its connection.** -/
theorem listen_chains (ht : h.Ticketed) {e : ConnectionPipeline.Event} (he : h.Starts e) :
    run (fun s e => (AckChains.step s e).1) (h.chains cfg origin)
        (.observe ((h.listen cfg e).1.view cfg origin) :: (h.listen cfg e).2.filterMap heard?)
      = (h.listen cfg e).1.chains cfg origin := by
  obtain ⟨hfirst, hns⟩ := ht.reports cfg he
  have hview : (h.listen cfg e).1.view cfg origin
      = { h with pipeline := (h.pipeline.step cfg e).1 }.view cfg origin := view_hearAll _ _
  rw [hview, AckHost.listen, ← hearAll_chains hfirst.toIssued hns]
  rfl

/-! ## Every step -/

/-- Only the ledger starts admissions. -/
def ownAdmissions : Event → Bool
  | .speech (.startAck _ _) => false
  | _ => true

theorem starts_of_ne {e : ConnectionPipeline.Event} (he : ∀ id key, e ≠ .startAck id key) : h.Starts e :=
  fun id key heq => absurd heq (he id key)

theorem proceeds_emit (h : AckHost) (turnId : String) (originEpoch : ℤ) :
    Proceeds h (h.emit cfg turnId originEpoch) :=
  proceeds_append rfl rfl rfl (aside_enqueue h.pipeline.scheduler (h.ackRequest turnId originEpoch)).submissions

/-- The admission gets to `start_next`. -/
def admitting (h : AckHost) (task : Admission) : AckHost :=
  { h with admissions := (h.forget task.id).admissions ++ [{ task with point := .admitting }] }

theorem ticketed_admitting (ht : h.Ticketed) {task : Admission} (hmem : task ∈ h.admissions) :
    (h.admitting task).Ticketed ∧ (h.admitting task).Waits task.id := by
  have hothers : ∀ t ∈ (h.forget task.id).admissions, t ∈ h.admissions ∧ t.id ≠ task.id := fun t ht' => by
    simpa [forget] using ht'
  have hwaits : ∀ id, id < h.nextTask → (id ≠ task.id → ∀ t ∈ h.admissions, t.id = id → t.point = .admitting) →
      (h.admitting task).Waits id := by
    refine fun id hlt hold => ⟨hlt, fun t ht' hid => ?_⟩
    rcases List.mem_append.mp ht' with hmem' | hnew
    · obtain ⟨hmem', hne⟩ := hothers t hmem'
      exact hold (hid ▸ hne) t hmem' hid
    · rw [List.mem_singleton.mp hnew]
  refine ⟨⟨⟨?_, fun t ht' => ?_⟩, fun sub hsub id hid => ?_⟩,
    hwaits _ (ht.issued task hmem) fun hne => absurd rfl hne⟩
  · rw [admitting, List.map_append, List.map_singleton, List.nodup_append]
    refine ⟨ht.distinct.sublist (List.filter_sublist.map _), List.nodup_singleton _, fun id hid id' hid' => ?_⟩
    obtain ⟨t, ht', rfl⟩ := List.mem_map.mp hid
    rw [List.mem_singleton.mp hid']
    exact (hothers t ht').2
  · rcases List.mem_append.mp ht' with hmem' | hnew
    · exact ht.issued t (hothers t hmem').1
    · rw [List.mem_singleton.mp hnew]
      exact ht.issued task hmem
  · obtain ⟨hlt, hpoint⟩ := ht.submitted sub hsub id hid
    exact hwaits id hlt fun _ => hpoint

/-- **What the step does to the ledger of the host is what it asks of it**, and its admissions stay in order. -/
structure Simulated (cfg : LifecycleConfig) (origin : ℕ) (h : AckHost) (e : Event) : Prop where
  ledger : run (fun s e => (AckChains.step s e).1) (h.chains cfg origin) (h.asked cfg origin e)
    = (h.step cfg e).1.chains cfg origin
  ticketed : (h.step cfg e).1.Ticketed

/-- A step with which nothing is reported: the ledger makes one call, and reads what it read. -/
theorem simulated_of_call {e : Event} {call : AckChains.Event} (hcalls : calls origin e = ([call], []))
    (hstep : h.step cfg e = (h', [])) (hcall : (AckChains.step (h.chains cfg origin) call).1 = h'.chains cfg origin)
    (ht : h'.Ticketed) : Simulated cfg origin h e := by
  refine ⟨?_, by rwa [hstep]⟩
  rw [asked, hcalls, hstep, List.filterMap_nil, List.append_nil, List.singleton_append, run_cons, hcall]
  rfl

/-- What is reported of a step of the connection. -/
theorem simulated_of_listen {e : ConnectionPipeline.Event} (ht : h.Ticketed) (he : h.Starts e) :
    Simulated cfg origin h (.speech e) := by
  refine ⟨?_, ht.listen cfg he⟩
  rw [asked, calls, List.append_nil, List.nil_append]
  exact listen_chains ht he

theorem Ticketed.same (ht : h.Ticketed) (hnext : h'.nextTask = h.nextTask) (hadmissions : h'.admissions = h.admissions)
    (hsubs : h'.pipeline.scheduler.submissions = h.pipeline.scheduler.submissions) : h'.Ticketed :=
  (proceeds_of_sublist hnext (hadmissions ▸ List.Sublist.refl _) hsubs).ticketed ht

theorem simulated_emitEarlyAck (ht : h.Ticketed) (turnId : String) (originEpoch : ℤ) (dispatched searching : Bool) :
    Simulated cfg origin h (.emitEarlyAck turnId originEpoch dispatched searching) := by
  have hchecks : (h.chains cfg origin).eligible origin turnId originEpoch dispatched searching = _ := eligible_chains ..
  by_cases heligible : h.eligible cfg turnId originEpoch dispatched searching = true
  · have hstep : h.step cfg (.emitEarlyAck turnId originEpoch dispatched searching) = _ := if_pos heligible
    have hcall : AckChains.step (h.chains cfg origin) (.emitEarlyAck origin turnId originEpoch dispatched searching) = _ :=
      if_pos (hchecks.trans heligible)
    cases searching
    · refine simulated_of_call rfl hstep ?_ ((proceeds_emit h turnId originEpoch).ticketed ht)
      rw [hcall]
      exact emit_chains turnId originEpoch
    · refine simulated_of_call rfl hstep ?_ ?_
      · rw [hcall]
        simp only [chains, List.map_append, List.map_singleton, if_true]
        rfl
      · refine ⟨⟨ht.distinct, fun task hmem => (ht.issued task hmem).trans (Nat.lt_succ_self _)⟩, fun sub hsub id hid => ?_⟩
        obtain ⟨hlt, hpoint⟩ := ht.submitted sub hsub id hid
        exact ⟨hlt.trans (Nat.lt_succ_self _), hpoint⟩
  · refine simulated_of_call rfl (if_neg heligible) ?_ ht
    exact congrArg Prod.fst (if_neg (mt hchecks.symm.trans heligible))

theorem simulated_resumeEmission (ht : h.Ticketed) (id : ℕ) (searchDone : Bool) :
    Simulated cfg origin h (.resumeEmission id searchDone) := by
  have hfind : (h.chains cfg origin).emissions.find? (fun emission => decide (emission.id = id))
      = (h.emissions.find? fun emission => decide (emission.id = id)).map (⟨·, origin⟩) := List.find?_map
  rcases hfound : h.emissions.find? (fun emission => decide (emission.id = id)) with _ | emission
  · refine simulated_of_call rfl (by rw [step, hfound]) ?_ ht
    rw [AckChains.step, hfind, hfound]
    rfl
  · -- the emission is taken off, and the rest of the call is made on what is left
    have hrest : { h with emissions := h.emissions.erase emission }.Ticketed := ht.same rfl rfl rfl
    have hstep : h.step cfg (.resumeEmission id searchDone)
        = if searchDone then ({ h with emissions := h.emissions.erase emission }, [])
          else ({ h with emissions := h.emissions.erase emission }.emit cfg emission.turnId emission.originEpoch, []) := by
      rw [step, hfound]
    have hcall : AckChains.step (h.chains cfg origin) (.resumeEmission id searchDone)
        = if searchDone then ({ h with emissions := h.emissions.erase emission }.chains cfg origin, [])
          else ({ h with emissions := h.emissions.erase emission }.chains cfg origin).emit origin emission.turnId
            emission.originEpoch := by
      have herase : (h.emissions.map (OriginEmission.mk · origin)).erase ⟨emission, origin⟩
          = (h.emissions.erase emission).map (OriginEmission.mk · origin) := by
        refine (List.map_erase ?_ h.emissions).symm
        rintro a b heq
        cases heq
        rfl
      rw [AckChains.step, hfind, hfound, Option.map_some, Option.elim_some, AckChains.resumeEmission]
      simp only [chains, herase]
      rfl
    cases searchDone
    · refine simulated_of_call rfl hstep ?_ ((proceeds_emit _ _ _).ticketed hrest)
      rw [hcall]
      exact emit_chains _ _
    · refine simulated_of_call rfl hstep ?_ hrest
      rw [hcall]
      rfl

theorem simulated_runAdmission (ht : h.Ticketed) (id : ℕ) : Simulated cfg origin h (.runAdmission id) := by
  rcases admission_cases cfg origin ht.toIssued id .scheduled with ⟨task, hmem, rfl, hpoint, hfound, hat⟩ | ⟨hother, hat⟩
  · by_cases hsup : h.ledger.superseded task.turnId task.generation = true
    · have hstep : h.step cfg (.runAdmission task.id) = (h.forget task.id, []) := by
        rw [step, hfound]
        exact (if_pos hpoint).trans (if_pos hsup)
      refine simulated_of_call rfl hstep ?_ ((proceeds_forget h task.id).ticketed ht)
      rw [AckChains.step, hat, ← forget_chains]
      exact congrArg Prod.fst (if_pos hsup)
    · -- the admission gets to `start_next`, and what the scheduler makes of that is heard
      obtain ⟨hadmitting, hwaits⟩ := ticketed_admitting ht hmem
      have hstarts : (h.admitting task).Starts (.startAck task.id (ackWorkItemId task.turnId)) := fun id key heq => by
        cases heq
        exact hwaits
      have hstep : h.step cfg (.runAdmission task.id)
          = (h.admitting task).listen cfg (.startAck task.id (ackWorkItemId task.turnId)) := by
        rw [step, hfound]
        exact (if_pos hpoint).trans (if_neg hsup)
      have hcall : (AckChains.step (h.chains cfg origin) (.runAdmission task.id)).1
          = (h.admitting task).chains cfg origin := by
        rw [AckChains.step, hat]
        refine (congrArg Prod.fst (if_neg hsup)).trans ?_
        rw [forget_chains]
        simp only [admitting, chains, List.map_append, List.map_singleton]
        rfl
      refine ⟨?_, ?_⟩
      · rw [asked, calls, List.append_nil, List.singleton_append, run_cons, hcall, hstep]
        exact listen_chains hadmitting hstarts
      · rw [hstep]
        exact hadmitting.listen cfg hstarts
  · have hstep : h.step cfg (.runAdmission id) = (h, []) := by
      rw [step]
      split
      · rfl
      · exact if_neg (hother _ ‹_›)
    refine simulated_of_call rfl hstep ?_ ht
    rw [AckChains.step, hat]
    rfl

theorem simulated_wake (ht : h.Ticketed) (id : ℕ) : Simulated cfg origin h (.wake id) := by
  rcases admission_cases cfg origin ht.toIssued id .sleeping with ⟨task, hmem, rfl, hpoint, hfound, hat⟩ | ⟨hother, hat⟩
  · have hstep : h.step cfg (.wake task.id) = ((h.forget task.id).scheduleAckAdmission task.turnId task.originEpoch
        (task.attempt + 1) (some task.generation), []) := by
      rw [step, hfound]
      exact if_pos hpoint
    have hnext : Proceeds (h.forget task.id) ((h.forget task.id).scheduleAckAdmission task.turnId task.originEpoch
        (task.attempt + 1) (some task.generation)) := proceeds_append rfl rfl rfl rfl
    refine simulated_of_call rfl hstep ?_ (((proceeds_forget h task.id).trans hnext).ticketed ht)
    rw [AckChains.step, hat, Option.elim_some, AckChains.wake, forget_chains]
    simp only [AckChains.scheduleAckAdmission, scheduleAckAdmission, chains, List.map_append, List.map_singleton]
    rfl
  · have hstep : h.step cfg (.wake id) = (h, []) := by
      rw [step]
      split
      · rfl
      · exact if_neg (hother _ ‹_›)
    refine simulated_of_call rfl hstep ?_ ht
    rw [AckChains.step, hat]
    rfl

theorem simulated_settleTurnAck (ht : h.Ticketed) (turnId : String) (cancelAdmitted : Bool) :
    Simulated cfg origin h (.settleTurnAck turnId cancelAdmitted) := by
  cases cancelAdmitted
  · exact ⟨rfl, ht.same rfl rfl rfl⟩
  · have hstarts : h.Starts (.cancel (some (ackWorkItemId turnId))) := starts_of_ne fun _ _ heq => by cases heq
    have hstep : h.step cfg (.settleTurnAck turnId true)
        = ((h.listen cfg (.cancel (some (ackWorkItemId turnId)))).1.retract cfg turnId,
          (h.listen cfg (.cancel (some (ackWorkItemId turnId)))).2) := rfl
    refine ⟨?_, (ht.listen cfg hstarts).same rfl rfl rfl⟩
    rw [asked, hstep, calls, List.nil_append, run_append]
    exact congrArg (fun s => run (fun s e => (AckChains.step s e).1) s [.settleTurnAck origin turnId true])
      (listen_chains ht hstarts)

/-- **Every step of the host does to its ledger what it asks of it.** -/
theorem step_chains (cfg : LifecycleConfig) (origin : ℕ) (ht : h.Ticketed) {e : Event} (he : ownAdmissions e = true) :
    Simulated cfg origin h e := by
  cases e with
  | speech e =>
    refine simulated_of_listen ht (starts_of_ne fun id key heq => ?_)
    rw [heq] at he
    cases he
  | emitEarlyAck turnId originEpoch dispatched searching => exact simulated_emitEarlyAck ht _ _ _ _
  | resumeEmission id searchDone => exact simulated_resumeEmission ht _ _
  | cancelEmission id =>
    refine simulated_of_call rfl rfl ?_ (ht.same rfl rfl rfl)
    simp only [AckChains.step, chains, List.filter_map]
    rfl
  | runAdmission id => exact simulated_runAdmission ht id
  | wake id => exact simulated_wake ht id
  | cancelAdmission id => exact simulated_of_call rfl rfl (forget_chains id) ((proceeds_forget h id).ticketed ht)
  | settleTurnAck turnId cancelAdmitted => exact simulated_settleTurnAck ht _ _
  | clearAckLatch turnId => exact simulated_of_call rfl rfl rfl (ht.same rfl rfl rfl)
  | clearAll => exact simulated_of_call rfl rfl rfl (ht.same rfl rfl rfl)
  | setClosing closing => exact ⟨rfl, ht.same rfl rfl rfl⟩
  | configure enableEarlyAck earlyAckText => exact ⟨rfl, ht.same rfl rfl rfl⟩

/-! ## Runs of the host -/

/-- **The ledger of a run of the host is the ledger of its own run**, on what the steps of the host ask of it. -/
theorem run_chains (cfg : LifecycleConfig) (origin : ℕ) (ht : h.Ticketed) {es : List Event} (hes : ∀ e ∈ es, ownAdmissions e = true) :
    run (fun s e => (AckChains.step s e).1) (h.chains cfg origin)
        (outputs (fun h e => ((h.step cfg e).1, h.asked cfg origin e)) h es)
      = (run (fun h e => (h.step cfg e).1) h es).chains cfg origin := by
  induction es generalizing h with
  | nil => rfl
  | cons e es ih =>
    obtain ⟨hfirst, ht'⟩ := step_chains cfg origin ht (hes e List.mem_cons_self)
    rw [outputs, run_append, hfirst]
    exact ih ht' fun e' he' => hes e' (List.mem_cons_of_mem e he')

/-- A host with nothing under way. -/
theorem ticketed_opened (epoch : ℤ) (enableEarlyAck : Bool) (earlyAckText : String) :
    (Heard.opened epoch enableEarlyAck earlyAckText).host.Ticketed where
  distinct := List.nodup_nil
  issued := fun _ ht => absurd ht List.not_mem_nil
  submitted := fun _ hsub => absurd hsub List.not_mem_nil

/-- **No admission of a host goes past its attempts**, and no two are of one chain. -/
theorem attempts_le (cfg : LifecycleConfig) (epoch : ℤ) (enableEarlyAck : Bool) (earlyAckText : String)
    {es : List Event} (hes : ∀ e ∈ es, ownAdmissions e = true) :
    let h := run (fun h e => (h.step cfg e).1) (Heard.opened epoch enableEarlyAck earlyAckText).host es
    (∀ task ∈ h.admissions, task.attempt ≤ ackAdmissionMaxAttempts) ∧ (h.admissions.map (·.generation)).Nodup := by
  have hrun := run_chains cfg 0 (ticketed_opened epoch enableEarlyAck earlyAckText) hes
  generalize outputs _ _ es = asks at hrun
  have hsound : AckChronicle.Sound (run AckChronicle.step
      ⟨(Heard.opened epoch enableEarlyAck earlyAckText).host.chains cfg 0, []⟩ asks) :=
    run_invariant_of_step (fun w e h => h.step e) (AckChronicle.sound_fresh _) asks
  have hadmissions : ∀ task ∈ (run (fun h e => (h.step cfg e).1) (Heard.opened epoch enableEarlyAck earlyAckText).host
      es).admissions, (⟨task, 0⟩ : OriginAdmission) ∈ (run AckChronicle.step
        ⟨(Heard.opened epoch enableEarlyAck earlyAckText).host.chains cfg 0, []⟩ asks).chains.admissions := by
    intro task hmem
    rw [AckChronicle.chains_run, hrun]
    exact List.mem_map_of_mem hmem
  refine ⟨fun task hmem => (hsound.quota _ (hadmissions task hmem)).2.1, ?_⟩
  have hone := hsound.one_task
  rw [AckChronicle.chains_run, hrun, chains, List.map_map] at hone
  exact hone

end AckHost

end SubagentsLab

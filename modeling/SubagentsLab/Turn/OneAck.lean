import SubagentsLab.Speech.Flow
import SubagentsLab.Turn.AckLedger

/-!
# Turn/OneAck — at most one spoken acknowledgement per turn

The latch alone does not keep a turn to one acknowledgement: it is released when the chain of retries
abandons an item that another `start_next` call has spoken meanwhile, and two calls can pass it in one
tick (`abandoned_ack_spoken_twice`).  As long as no latch is released while its acknowledgement is out of
the ledger's reach, neither queued nor failed, the latch tells the truth (`Truthful`), and a turn has at
most one acknowledgement (`one_ack_per_turn`): a retry files again only what has just failed.
-/

namespace SubagentsLab

open Machinery

/-- The item is an acknowledgement of the turn. -/
def SpeechItem.ackOf (turnId : String) (item : SpeechItem) : Bool :=
  item.isAck && decide (item.turnId = some turnId)

/-- The turn that the item acknowledges. -/
def SpeechItem.ackTurn (item : SpeechItem) : Option String := if item.isAck then item.turnId else none

theorem SpeechItem.ackTurn_eq_some {item : SpeechItem} {turnId : String} :
    item.ackTurn = some turnId ↔ item.ackOf turnId = true := by
  rw [ackTurn, ackOf]
  cases item.isAck <;> simp

/-- The item that `start_next` returns. -/
def Notice.spoken : Notice → Option SpeechItem
  | .returned _ item => item
  | _ => none

/-- The item whose submission raises. -/
def Notice.failed : Notice → Option SpeechItem
  | .raised _ item => some item
  | _ => none

/-- A call that ends returns an item or raises. -/
theorem countP_ended (q : SpeechItem → Bool) (ns : List Notice) :
    (ns.filterMap Notice.ended).countP q
      = (ns.filterMap Notice.spoken).countP q + (ns.filterMap Notice.failed).countP q := by
  induction ns with
  | nil => rfl
  | cons n ns ih =>
    rcases n with item | item | item | ⟨i, reason⟩ | ⟨caller, _ | item⟩ | ⟨caller, item⟩ <;>
      simp only [List.filterMap_cons, Notice.ended, Notice.spoken, Notice.failed, List.countP_cons, ih]
    · omega
    · omega

/-- A key that acknowledgements are filed under. -/
def isAckKey (key : String) : Bool := "ack-".toList.isPrefixOf key.toList

theorem isAckKey_ackWorkItemId (turnId : String) : isAckKey (ackWorkItemId turnId) = true := by
  simp [isAckKey, ackWorkItemId]

theorem ackWorkItemId_injective : Function.Injective ackWorkItemId := fun t t' h => by
  simpa [ackWorkItemId] using h

theorem TurnAckLedger.mem_foldl_clearAckLatch {turnIds : List String} {l : TurnAckLedger} {turnId : String} :
    turnId ∈ (turnIds.foldl clearAckLatch l).emittedTurns ↔ turnId ∈ l.emittedTurns ∧ turnId ∉ turnIds := by
  induction turnIds generalizing l with
  | nil => simp
  | cons t turnIds ih =>
    rw [List.foldl_cons, ih, clearAckLatch, List.mem_filter, decide_eq_true_eq, List.mem_cons, not_or, and_assoc]

namespace AckHost

open SpeechScheduler ConnectionPipeline

variable {cfg : LifecycleConfig} {h : AckHost}

/-- An acknowledgement of the turn is queued. -/
def queued (h : AckHost) (turnId : String) : Bool :=
  !(h.pipeline.scheduler.queues.lane (ackWorkItemId turnId)).isEmpty

/-- The ledger's host, and everything `start_next` has returned on its connection; the turns whose
acknowledgement has failed and is not filed again, and those whose latch was released while their
acknowledgement was out of the ledger's reach. -/
structure Heard where
  host : AckHost
  spoken : List SpeechItem := []
  failed : List String := []
  loose : List String := []

namespace Heard

/-- The turns whose acknowledgement has failed and is not filed again, after a step that ends in `r`. -/
def failedAfter (w : Heard) (r : AckHost × List Notice) : List String :=
  (w.failed ++ (r.2.filterMap Notice.failed).filterMap SpeechItem.ackTurn).filter fun turnId =>
    !r.1.queued turnId

/-- The acknowledgement of the turn has failed, or the step takes it off its queue. -/
def settled (w : Heard) (r : AckHost × List Notice) (turnId : String) : Bool :=
  (w.failedAfter r).contains turnId || (w.host.queued turnId && !r.1.queued turnId)

/-- One step, heard. -/
def step (cfg : LifecycleConfig) (w : Heard) (e : AckHost.Event) : Heard :=
  let r := w.host.step cfg e
  { host := r.1
    spoken := w.spoken ++ r.2.filterMap Notice.spoken
    failed := w.failedAfter r
    loose := w.loose ++ w.host.ledger.emittedTurns.filter fun turnId =>
      !r.1.ledger.emittedTurns.contains turnId && !w.settled r turnId }

/-- A connection as it is opened, with nothing latched. -/
def opened (epoch : ℤ) (enableEarlyAck : Bool) (earlyAckText : String) : Heard where
  host := { pipeline := ConnectionPipeline.opened (some epoch), epoch, enableEarlyAck, earlyAckText }

end Heard

/-! ## The invariant -/

/-- An acknowledgement of a turn is exactly what is filed under the turn's key. -/
def Proper (item : SpeechItem) : Prop :=
  ∀ turnId, item.ackOf turnId = true ↔ item.workItemId = ackWorkItemId turnId

/-- The admission `id` exists, and asks for what is filed under `key` if it is still under way. -/
def Known (h : AckHost) (id : ℕ) (key : String) : Prop :=
  id < h.nextTask ∧ ∀ task ∈ h.admissions, task.id = id → key = ackWorkItemId task.turnId

/-- Admissions end, and new ones have new ids. -/
structure Continues (h h' : AckHost) : Prop where
  next : h.nextTask ≤ h'.nextTask
  admissions : ∀ task ∈ h'.admissions, (∃ t ∈ h.admissions, t.id = task.id ∧ t.turnId = task.turnId) ∨
    (h.nextTask ≤ task.id ∧ task.id < h'.nextTask)

theorem Continues.of_subset {h' : AckHost} (hnext : h'.nextTask = h.nextTask)
    (hadmissions : ∀ task ∈ h'.admissions, task ∈ h.admissions) : Continues h h' :=
  ⟨hnext.ge, fun task ht => Or.inl ⟨task, hadmissions task ht, rfl, rfl⟩⟩

theorem Continues.refl (h : AckHost) : Continues h h := .of_subset rfl fun _ ht => ht

theorem Continues.trans {h' h'' : AckHost} (hc : Continues h h') (hc' : Continues h' h'') :
    Continues h h'' := by
  refine ⟨hc.next.trans hc'.next, fun task ht => ?_⟩
  rcases hc'.admissions task ht with ⟨t, ht', hid, hturn⟩ | ⟨hle, hlt⟩
  · rcases hc.admissions t ht' with ⟨t', ht'', hid', hturn'⟩ | ⟨hle, hlt⟩
    · exact Or.inl ⟨t', ht'', hid'.trans hid, hturn'.trans hturn⟩
    · exact Or.inr ⟨hid ▸ hle, hid ▸ lt_of_lt_of_le hlt hc'.next⟩
  · exact Or.inr ⟨hc.next.trans hle, hlt⟩

theorem Known.continues {h' : AckHost} {id : ℕ} {key : String} (hk : h.Known id key)
    (hc : Continues h h') : h'.Known id key := by
  refine ⟨lt_of_lt_of_le hk.1 hc.next, fun task ht hid => ?_⟩
  rcases hc.admissions task ht with ⟨t, hmem, heq, hturn⟩ | ⟨hnew, -⟩
  · rw [← hturn]
    exact hk.2 t hmem (heq.trans hid)
  · have := hk.1
    omega

/-- One admission more. -/
theorem continues_append {h' : AckHost} {task : Admission} (hid : task.id = h.nextTask)
    (hadmissions : h'.admissions = h.admissions ++ [task]) (hnext : h'.nextTask = h.nextTask + 1) :
    Continues h h' := by
  refine ⟨hnext ▸ Nat.le_succ _, fun t ht => ?_⟩
  rw [hadmissions] at ht
  rcases List.mem_append.mp ht with hold | hnew
  · exact Or.inl ⟨t, hold, rfl, rfl⟩
  · rw [List.mem_singleton.mp hnew, hid, hnext]
    exact Or.inr ⟨le_refl _, Nat.lt_succ_self _⟩

/-- **No turn has more acknowledgements than `b` grants it**, counting those that are queued or being
submitted, those that were spoken, and those in `due`, whose submission has just failed. -/
structure Capped (b : String → ℕ) (h : AckHost) (spoken due : List SpeechItem) : Prop where
  proper : ∀ item ∈ h.pipeline.scheduler.afloat, Proper item
  capped : ∀ turnId, h.pipeline.scheduler.afloat.countP (SpeechItem.ackOf turnId)
    + spoken.countP (SpeechItem.ackOf turnId) + due.countP (SpeechItem.ackOf turnId) ≤ b turnId
  issued : ∀ task ∈ h.admissions, task.id < h.nextTask
  submitted : ∀ sub ∈ h.pipeline.scheduler.submissions, ∀ id, sub.caller = .admission id →
    h.Known id sub.lease.item.workItemId

variable {b : String → ℕ} {spoken due : List SpeechItem}

/-- The ledger moves on without its connection. -/
theorem Capped.continues {h' : AckHost} (hs : Capped b h spoken due) (hpipeline : h'.pipeline = h.pipeline)
    (hc : Continues h h') : Capped b h' spoken due := by
  refine ⟨by rw [hpipeline]; exact hs.proper, by rw [hpipeline]; exact hs.capped, fun task ht => ?_, ?_⟩
  · rcases hc.admissions task ht with ⟨t, ht', hid, -⟩ | ⟨-, hlt⟩
    · exact hid ▸ lt_of_lt_of_le (hs.issued t ht') hc.next
    · exact hlt
  · rw [hpipeline]
    exact fun sub hsub id hid => (hs.submitted sub hsub id hid).continues hc

/-- A step of the connection in which no one files an acknowledgement. -/
theorem Capped.moves (cfg : LifecycleConfig) (hs : Capped b h spoken due) {e : ConnectionPipeline.Event}
    (hfiled : ∀ item ∈ (h.pipeline.step cfg e).2.filterMap Notice.filed,
      Proper item ∧ ∀ turnId, item.ackOf turnId = false)
    (hfresh : ∀ id key, e = .startAck id key → h.Known id key) :
    Capped b { h with pipeline := (h.pipeline.step cfg e).1 }
      (spoken ++ (h.pipeline.step cfg e).2.filterMap Notice.spoken)
      (due ++ (h.pipeline.step cfg e).2.filterMap Notice.failed) := by
  have hflow := flow_step cfg h.pipeline e
  refine ⟨fun item hi => ?_, fun turnId => ?_, hs.issued, fun sub hsub id hid => ?_⟩
  · rcases hflow.mem hi with hold | hnew
    · exact hs.proper item hold
    · exact (hfiled item hnew).1
  · have hcount := hflow.afloat (SpeechItem.ackOf turnId)
    have hnone : ((h.pipeline.step cfg e).2.filterMap Notice.filed).countP (SpeechItem.ackOf turnId) = 0 :=
      List.countP_eq_zero.mpr fun item hi => by simp [(hfiled item hi).2 turnId]
    have hcapped := hs.capped turnId
    dsimp only at hcount
    rw [hnone, countP_ended] at hcount
    simp only [List.countP_append]
    omega
  · rcases (submits_step h.pipeline e).1 sub hsub with ⟨t, ht, hcaller, hlease⟩ | hnew
    · rw [← hlease]
      exact hs.submitted t ht id (hcaller.trans hid)
    · exact hfresh id _ (hnew id hid)

/-- The item an acknowledgement's `enqueue` files. -/
theorem ackRequest_item? (h : AckHost) (turnId : String) (originEpoch : ℤ) (u : UtteranceId) :
    ∃ item, (h.ackRequest turnId originEpoch).item? u = some item ∧ item.isAck = true ∧
      item.turnId = some turnId ∧ item.workItemId = ackWorkItemId turnId := by
  refine ⟨⟨none, ackWorkItemId turnId, "run-" ++ ackWorkItemId turnId, h.earlyAckText, u, some originEpoch,
    .ack, some (ackWorkItemId turnId), some turnId, rfl⟩, ?_, rfl, rfl, rfl⟩
  simp [ackRequest, SpeechRequest.item?, SpeechRole.accepts]

/-- An acknowledgement is filed where there is room for it. -/
theorem Capped.enqueueAck {b' : String → ℕ} {due' : List SpeechItem} (hs : Capped b h spoken due)
    {turnId : String} (hroom : ∀ t, h.pipeline.scheduler.afloat.countP (SpeechItem.ackOf t)
      + spoken.countP (SpeechItem.ackOf t) + due'.countP (SpeechItem.ackOf t)
      + (if t = turnId then 1 else 0) ≤ b' t) (originEpoch : ℤ) :
    Capped b' (h.enqueueAck cfg turnId originEpoch) spoken due' := by
  obtain ⟨item, hitem, hack, hturn, hkey⟩ :=
    h.ackRequest_item? turnId originEpoch h.pipeline.scheduler.nextUtterance
  have hstep : (h.pipeline.step cfg (.enqueue (h.ackRequest turnId originEpoch))).2 = [.enqueued item] := by
    simp [ConnectionPipeline.step, upon, SpeechScheduler.enqueue, hitem]
  have hof : ∀ t, item.ackOf t = true ↔ t = turnId := fun t => by
    simp [SpeechItem.ackOf, hack, hturn, eq_comm]
  have hflow := flow_step cfg h.pipeline (.enqueue (h.ackRequest turnId originEpoch))
  rw [hstep] at hflow
  refine ⟨fun x hx => ?_, fun t => ?_, hs.issued, fun sub hsub id hid => ?_⟩
  · rcases hflow.mem hx with hold | hnew
    · exact hs.proper x hold
    · obtain rfl : x = item := by simpa [Notice.filed] using hnew
      intro t
      rw [hof, hkey]
      exact ⟨fun heq => by rw [heq], fun heq => (ackWorkItemId_injective heq).symm⟩
  · have hcount := hflow.afloat (SpeechItem.ackOf t)
    have hone : ([item].countP (SpeechItem.ackOf t)) = if t = turnId then 1 else 0 := by
      simp [List.countP_singleton, hof]
    have hroom := hroom t
    simp only [List.filterMap_cons, List.filterMap_nil, Notice.ended, Notice.filed, List.countP_nil, hone]
      at hcount
    change (h.pipeline.step cfg _).1.scheduler.afloat.countP _ + _ + _ ≤ b' t
    omega
  · rcases (submits_step h.pipeline _).1 sub hsub with ⟨t, ht, hcaller, hlease⟩ | hnew
    · rw [← hlease]
      exact hs.submitted t ht id (hcaller.trans hid)
    · cases hnew id hid

theorem Capped.retract (hs : Capped b h spoken due) (turnId : String) :
    Capped b (h.retract cfg turnId) spoken due := by
  have hmoved := hs.moves cfg (e := .discardQueuedAck (ackWorkItemId turnId))
    (fun item hi => nomatch hi) (fun _ _ heq => nomatch heq)
  simp only [ConnectionPipeline.step, upon, List.filterMap_nil, List.append_nil] at hmoved
  exact hmoved.continues rfl (.of_subset rfl fun _ ht => ht)

/-- A higher cap is kept as well. -/
theorem Capped.mono {b' : String → ℕ} (hs : Capped b h spoken due) (hb : ∀ t, b t ≤ b' t) :
    Capped b' h spoken due :=
  ⟨hs.proper, fun t => (hs.capped t).trans (hb t), hs.issued, hs.submitted⟩

/-- What is due need not be filed again. -/
theorem Capped.weaken {due' : List SpeechItem} (hs : Capped b h spoken due)
    (hdue : ∀ t, due'.countP (SpeechItem.ackOf t) ≤ due.countP (SpeechItem.ackOf t)) :
    Capped b h spoken due' :=
  ⟨hs.proper, fun t => by
    have hcapped := hs.capped t
    have hle := hdue t
    omega, hs.issued, hs.submitted⟩

/-! ## What the ledger makes of a step -/

theorem continues_forget (h : AckHost) (id : ℕ) : Continues h (h.forget id) :=
  .of_subset rfl fun _ ht => List.mem_of_mem_filter ht

theorem continues_retryOrAbandon (h : AckHost) (task : Admission) (needsRequeue : Bool) :
    Continues h (h.retryOrAbandon cfg task needsRequeue) := by
  rw [retryOrAbandon]
  split_ifs
  · exact .refl h
  · exact .of_subset rfl fun _ ht => ht
  · exact .of_subset rfl fun _ ht => ht
  · have hfiled : Continues h (h.enqueueAck cfg task.turnId task.originEpoch) :=
      .of_subset rfl fun _ ht => ht
    exact hfiled.trans (continues_append rfl rfl rfl)
  · exact continues_append rfl rfl rfl

/-- **A retry files again only what has just failed.** -/
theorem Capped.retryOrAbandon {due' : List SpeechItem} (hs : Capped b h spoken due) (task : Admission)
    (needsRequeue : Bool) (hdue : ∀ t, due'.countP (SpeechItem.ackOf t)
      + (if needsRequeue = true ∧ t = task.turnId then 1 else 0) ≤ due.countP (SpeechItem.ackOf t)) :
    Capped b (h.retryOrAbandon cfg task needsRequeue) spoken due' := by
  have hweak : Capped b h spoken due' := hs.weaken fun t => (Nat.le_add_right _ _).trans (hdue t)
  rw [AckHost.retryOrAbandon]
  split_ifs with _ _ _ hrequeue
  · exact hweak
  · exact hweak.retract task.turnId
  · exact hweak.retract task.turnId
  · have hfiled : Capped b (h.enqueueAck cfg task.turnId task.originEpoch) spoken due' := by
      refine hs.enqueueAck (fun t => ?_) task.originEpoch
      have hcapped := hs.capped t
      have hle := hdue t
      simp only [hrequeue, true_and] at hle
      omega
    exact hfiled.continues rfl (continues_append rfl rfl rfl)
  · exact hweak.continues rfl (continues_append rfl rfl rfl)

theorem continues_admissionEnds (h : AckHost) (id : ℕ) (needsRequeue : Bool) :
    Continues h (h.admissionEnds cfg id needsRequeue) := by
  rw [admissionEnds]
  split
  · exact .refl h
  · exact (h.continues_forget id).trans (continues_retryOrAbandon _ _ _)

theorem Capped.admissionEnds {due' : List SpeechItem} (hs : Capped b h spoken due) (id : ℕ)
    (needsRequeue : Bool) (hdue : ∀ t, due'.countP (SpeechItem.ackOf t)
      + (if needsRequeue = true ∧ ∃ task ∈ h.admissions, task.id = id ∧ t = task.turnId then 1 else 0)
        ≤ due.countP (SpeechItem.ackOf t)) :
    Capped b (h.admissionEnds cfg id needsRequeue) spoken due' := by
  rw [AckHost.admissionEnds]
  split
  · exact hs.weaken fun t => (Nat.le_add_right _ _).trans (hdue t)
  · rename_i task htask
    have hmem : task ∈ h.admissions := List.mem_of_find?_eq_some htask
    have hid : task.id = id := by simpa using List.find?_some htask
    have hdone : Capped b (h.forget id) spoken due := hs.continues rfl (h.continues_forget id)
    refine hdone.retryOrAbandon task needsRequeue fun t => ?_
    refine le_trans (Nat.add_le_add_left ?_ _) (hdue t)
    split_ifs with hyes hno
    · exact le_refl _
    · exact absurd ⟨hyes.1, task, hmem, hid, hyes.2⟩ hno
    · exact Nat.zero_le _
    · exact le_refl _

theorem continues_hear (h : AckHost) (n : Notice) : Continues h (h.hear cfg n) := by
  rcases n with item | item | item | ⟨i, reason⟩ | ⟨_ | _ | _ | id, _ | item⟩ | ⟨_ | _ | _ | id, item⟩
  case returned.admission.none => exact continues_admissionEnds h id false
  case returned.admission.some => exact h.continues_forget id
  case raised.admission => exact continues_admissionEnds h id true
  all_goals exact .of_subset rfl fun _ ht => ht

/-- Between the notices of one step: what failed and is not dealt with yet is due. -/
structure Hearing (b : String → ℕ) (h : AckHost) (spoken : List SpeechItem) (ns : List Notice) : Prop where
  capped : Capped b h spoken (ns.filterMap Notice.failed)
  raised : ∀ id item, .raised (.admission id) item ∈ ns → Proper item ∧ h.Known id item.workItemId

theorem Hearing.hear {n : Notice} {ns : List Notice} (hh : Hearing b h spoken (n :: ns)) :
    Hearing b (h.hear cfg n) spoken ns := by
  refine ⟨?_, fun id item hmem => ?_⟩
  swap
  · obtain ⟨hproper, hknown⟩ := hh.raised id item (List.mem_cons_of_mem n hmem)
    exact ⟨hproper, hknown.continues (continues_hear h n)⟩
  have hs := hh.capped
  rcases n with item | item | item | ⟨i, reason⟩ | ⟨_ | _ | _ | id, _ | item⟩ | ⟨_ | _ | _ | id, item⟩
  case returned.admission.none =>
    exact Capped.admissionEnds hs id false fun t => by simp [List.filterMap_cons, Notice.failed]
  case returned.admission.some => exact hs.continues rfl (h.continues_forget id)
  case raised.admission =>
    refine Capped.admissionEnds hs id true fun t => ?_
    obtain ⟨hproper, hknown⟩ := hh.raised id item List.mem_cons_self
    simp only [List.filterMap_cons, Notice.failed, List.countP_cons, true_and]
    refine Nat.add_le_add_left ?_ _
    split_ifs with hyes hack
    · exact le_refl _
    · obtain ⟨task, ht, hid, rfl⟩ := hyes
      exact absurd ((hproper task.turnId).mpr (hknown.2 task ht hid)) hack
    · exact Nat.zero_le _
    · exact le_refl _
  case ackTerminal => exact hs.continues rfl (.of_subset rfl fun _ ht => ht)
  all_goals exact hs.weaken fun t => by simp [List.filterMap_cons, Notice.failed, List.countP_cons]

theorem Hearing.heard {ns : List Notice} (hh : Hearing b h spoken ns) :
    Capped b (ns.foldl (AckHost.hear cfg) h) spoken [] := by
  induction ns generalizing h with
  | nil => exact hh.capped
  | cons n ns ih => exact ih hh.hear

/-- **What the ledger makes of a step of its connection.** -/
theorem Capped.listen (cfg : LifecycleConfig) (hs : Capped b h spoken []) {e : ConnectionPipeline.Event}
    (hfiled : ∀ item ∈ (h.pipeline.step cfg e).2.filterMap Notice.filed,
      Proper item ∧ ∀ turnId, item.ackOf turnId = false)
    (hfresh : ∀ id key, e = .startAck id key → h.Known id key) :
    Capped b (h.listen cfg e).1 (spoken ++ (h.listen cfg e).2.filterMap Notice.spoken) [] := by
  refine Hearing.heard ⟨hs.moves cfg hfiled hfresh, fun id item hmem => ?_⟩
  obtain ⟨sub, hsub, hcaller, rfl⟩ := (submits_step h.pipeline e).2 _ _ hmem
  refine ⟨hs.proper _ (List.mem_append_right _ (List.mem_map_of_mem hsub)), ?_⟩
  exact hs.submitted sub hsub id hcaller

/-! ## Whole runs -/

/-- The turn that `emit_early_ack` files an acknowledgement of in this step. -/
def filesFor (cfg : LifecycleConfig) (h : AckHost) : Event → Option String
  | .emitEarlyAck turnId originEpoch dispatched searching =>
    if h.eligible cfg turnId originEpoch dispatched searching && !searching then some turnId else none
  | .resumeEmission id searchDone =>
    if searchDone then none else (h.emissions.find? (·.id = id)).map (·.turnId)
  | _ => none

/-- The call files straight from its check of the latch, without a yield in between. -/
def Event.checked : Event → Bool
  | .emitEarlyAck _ _ _ _ => true
  | _ => false

/-- **The latch**: what files straight from its check files for a turn that is not latched. -/
theorem unlatched_of_checked {e : Event} {turnId : String} (hfiles : h.filesFor cfg e = some turnId)
    (he : e.checked = true) : turnId ∉ h.ledger.emittedTurns := by
  cases e with
  | emitEarlyAck t originEpoch dispatched searching =>
    simp only [filesFor, eligible, Option.ite_none_right_eq_some, Bool.and_eq_true, List.all_eq_true,
      decide_eq_true_eq, Option.some.injEq] at hfiles
    obtain ⟨⟨⟨⟨⟨-, hlatch⟩, -⟩, -⟩, -⟩, rfl⟩ := hfiles
    exact fun hmem => hlatch t hmem rfl
  | _ => cases he

/-- Speech that is not the ledger's is filed under a work item's key, and admissions are the ledger's
own. -/
def outside (h : AckHost) : Event → Bool
  | .speech (.enqueue r) => r.role ≠ .ack && !isAckKey r.workItemId
  | .speech (.resume target) => (h.pipeline.scheduler.resumable target).all fun item =>
    item.isAck || !isAckKey item.workItemId
  | .speech (.startAck _ _) => false
  | _ => true

/-- Result speech is no acknowledgement, under whatever key. -/
theorem proper_of_result {item : SpeechItem} (hrole : item.isAck = false)
    (hkey : isAckKey item.workItemId = false) :
    Proper item ∧ ∀ turnId, item.ackOf turnId = false := by
  have hof : ∀ turnId, item.ackOf turnId = false := fun turnId => by simp [SpeechItem.ackOf, hrole]
  refine ⟨fun turnId => ⟨fun h => ?_, fun h => ?_⟩, hof⟩
  · rw [hof] at h
    cases h
  · rw [h, isAckKey_ackWorkItemId] at hkey
    cases hkey

theorem filed_outside {e : ConnectionPipeline.Event} (he : h.outside (.speech e) = true) {item : SpeechItem}
    (hi : item ∈ (h.pipeline.step cfg e).2.filterMap Notice.filed) :
    Proper item ∧ ∀ turnId, item.ackOf turnId = false := by
  have hmem : .enqueued item ∈ (h.pipeline.step cfg e).2 := by
    obtain ⟨n, hn, heq⟩ := List.mem_filterMap.mp hi
    rcases n with x | _ | _ | _ | _ | _ <;> simp only [Notice.filed] at heq <;> cases heq
    exact hn
  by_cases henqueue : ∃ r, e = .enqueue r
  · obtain ⟨r, rfl⟩ := henqueue
    obtain ⟨hrole, hkey⟩ : r.role ≠ .ack ∧ isAckKey r.workItemId = false := by
      simpa [outside] using he
    rcases hitem : r.item? h.pipeline.scheduler.nextUtterance with _ | x
    · simp [ConnectionPipeline.step, upon, SpeechScheduler.enqueue, hitem] at hmem
    · obtain rfl : item = x := by
        simpa [ConnectionPipeline.step, upon, SpeechScheduler.enqueue, hitem] using hmem
      refine proper_of_result ?_ (by rwa [workItemId_of_item? hitem])
      simp [SpeechItem.isAck, (item?_eq_some hitem).2.2, hrole]
  · by_cases hresume : ∃ target, e = .resume target
    · obtain ⟨target, rfl⟩ := hresume
      obtain ⟨x, hres, hack, hrole, hkey⟩ := filed_resume hmem
      have hplain : isAckKey x.workItemId = false := by simpa [outside, hres, hack] using he
      refine proper_of_result ?_ (by rwa [hkey])
      simpa [SpeechItem.isAck, hrole] using hack
    · push Not at henqueue hresume
      exact absurd hmem (unfiled_step cfg h.pipeline henqueue hresume item)

theorem filed_startAck (cfg : LifecycleConfig) (p : ConnectionPipeline) (id : ℕ) (key : String) :
    (p.step cfg (.startAck id key)).2.filterMap Notice.filed = [] := by
  refine List.filterMap_eq_nil_iff.mpr fun n hn => ?_
  have hunfiled := unfiled_step cfg p (e := .startAck id key) (fun _ heq => nomatch heq) fun _ heq => nomatch heq
  rcases n with x | _ | _ | _ | _ | _
  · exact absurd hn (hunfiled x)
  all_goals rfl

/-! ## What is being submitted -/

theorem submissions_retryOrAbandon (h : AckHost) (task : Admission) (needsRequeue : Bool) :
    (h.retryOrAbandon cfg task needsRequeue).pipeline.scheduler.submissions
      = h.pipeline.scheduler.submissions := by
  have hfiled := (aside_enqueue h.pipeline.scheduler (h.ackRequest task.turnId task.originEpoch)).submissions
  rw [retryOrAbandon]
  split_ifs <;> first | rfl | exact hfiled

theorem submissions_admissionEnds (h : AckHost) (id : ℕ) (needsRequeue : Bool) :
    (h.admissionEnds cfg id needsRequeue).pipeline.scheduler.submissions
      = h.pipeline.scheduler.submissions := by
  rw [admissionEnds]
  split
  · rfl
  · exact submissions_retryOrAbandon _ _ _

/-- The ledger submits nothing by itself. -/
theorem submissions_hear (ns : List Notice) (h : AckHost) :
    (ns.foldl (hear cfg) h).pipeline.scheduler.submissions = h.pipeline.scheduler.submissions := by
  induction ns generalizing h with
  | nil => rfl
  | cons n ns ih =>
    refine (ih _).trans ?_
    rcases n with item | item | item | ⟨i, reason⟩ | ⟨_ | _ | _ | id, _ | item⟩ | ⟨_ | _ | _ | id, item⟩
    case returned.admission.none => exact submissions_admissionEnds h id false
    case raised.admission => exact submissions_admissionEnds h id true
    all_goals rfl

/-- **What the step `r` submits or ends** was being submitted before or is handed to `speak` in it, and
no acknowledgement is submitted or ends in it that was not afloat. -/
structure Passes (h : AckHost) (r : AckHost × List Notice) : Prop where
  uttered : ∀ q : SpeechItem → Bool, r.1.pipeline.scheduler.submitting.countP q
    + (r.2.filterMap Notice.ended).countP q
      ≤ h.pipeline.scheduler.submitting.countP q + (r.2.filterMap Notice.uttered).countP q
  afloat : ∀ turnId, r.1.pipeline.scheduler.submitting.countP (SpeechItem.ackOf turnId)
    + (r.2.filterMap Notice.ended).countP (SpeechItem.ackOf turnId)
      ≤ h.pipeline.scheduler.afloat.countP (SpeechItem.ackOf turnId)

theorem passes_of_quiet {h' : AckHost}
    (hsubs : h'.pipeline.scheduler.submissions = h.pipeline.scheduler.submissions) : Passes h (h', []) := by
  have hsubmitting : h'.pipeline.scheduler.submitting = h.pipeline.scheduler.submitting := by
    rw [submitting, submitting, hsubs]
  refine ⟨fun q => by rw [hsubmitting]; rfl, fun turnId => ?_⟩
  rw [hsubmitting]
  exact countP_submitting_le _ _

theorem passes_listen (cfg : LifecycleConfig) (h : AckHost) {e : ConnectionPipeline.Event}
    (hfiled : ∀ item ∈ (h.pipeline.step cfg e).2.filterMap Notice.filed, ∀ turnId, item.ackOf turnId = false) :
    Passes h (h.listen cfg e) := by
  have hflow := flow_step cfg h.pipeline e
  have hsubmitting : (h.listen cfg e).1.pipeline.scheduler.submitting
      = (h.pipeline.step cfg e).1.scheduler.submitting := by
    rw [submitting, submitting, listen, submissions_hear]
  refine ⟨fun q => by rw [hsubmitting]; exact hflow.submitting q, fun turnId => ?_⟩
  have hcount := hflow.afloat (SpeechItem.ackOf turnId)
  have hnone : ((h.pipeline.step cfg e).2.filterMap Notice.filed).countP (SpeechItem.ackOf turnId) = 0 :=
    List.countP_eq_zero.mpr fun item hi => by simp [hfiled item hi turnId]
  have hle := countP_submitting_le (h.pipeline.step cfg e).1.scheduler (SpeechItem.ackOf turnId)
  dsimp only at hcount
  rw [hnone] at hcount
  rw [hsubmitting]
  change _ + ((h.pipeline.step cfg e).2.filterMap Notice.ended).countP _ ≤ _
  omega

theorem passes_step (cfg : LifecycleConfig) {e : Event} (hout : h.outside e = true) :
    Passes h (h.step cfg e) := by
  cases e with
  | speech e => exact passes_listen cfg h fun item hi => (filed_outside hout hi).2
  | emitEarlyAck turnId originEpoch dispatched searching =>
    simp only [step]
    split_ifs
    · exact passes_of_quiet rfl
    · exact passes_of_quiet (aside_enqueue h.pipeline.scheduler (h.ackRequest turnId originEpoch)).submissions
    · exact passes_of_quiet rfl
  | resumeEmission id searchDone =>
    simp only [step]
    split
    · exact passes_of_quiet rfl
    · rename_i emission _
      split_ifs
      · exact passes_of_quiet rfl
      · exact passes_of_quiet (aside_enqueue h.pipeline.scheduler
          (h.ackRequest emission.turnId emission.originEpoch)).submissions
  | runAdmission id =>
    simp only [step]
    split
    · exact passes_of_quiet rfl
    · rename_i task _
      split_ifs
      · exact passes_of_quiet rfl
      · have hstart := passes_listen cfg { h with
            admissions := (h.forget id).admissions ++ [{ task with point := .admitting }] }
          (e := .startAck id (ackWorkItemId task.turnId)) fun item hi => by
            rw [filed_startAck] at hi
            cases hi
        exact ⟨hstart.uttered, hstart.afloat⟩
      · exact passes_of_quiet rfl
  | wake id =>
    simp only [step]
    split
    · exact passes_of_quiet rfl
    · split_ifs <;> exact passes_of_quiet rfl
  | settleTurnAck turnId cancelAdmitted =>
    simp only [step]
    split_ifs
    · have hcancel := passes_listen cfg h (e := .cancel (some (ackWorkItemId turnId)))
        fun item hi => (filed_outside rfl hi).2
      exact ⟨hcancel.uttered, hcancel.afloat⟩
    · exact passes_of_quiet rfl
  | _ => exact passes_of_quiet rfl

/-! ## Who releases a latch -/

/-- While no admission ends, the ledger hears of swept acknowledgements only. -/
theorem foldl_hear_swept {ns : List Notice} (hns : NoAdmission ns) :
    ns.foldl (hear cfg) h
      = { h with ledger := (ns.filterMap Notice.sweptTurn).foldl TurnAckLedger.clearAckLatch h.ledger } := by
  induction ns generalizing h with
  | nil => rfl
  | cons n ns ih =>
    have hrest := fun h => ih (h := h) fun n hn => hns n (List.mem_cons_of_mem _ hn)
    have hfirst := hns n List.mem_cons_self
    rw [List.foldl_cons, hrest, List.filterMap_cons]
    rcases n with item | item | item | ⟨identity, reason⟩ | ⟨_ | _ | _ | id, item⟩ | ⟨_ | _ | _ | id, item⟩
    case ackTerminal =>
      rw [Notice.sweptTurn, hear]
      cases identity.turnId <;> rfl
    case returned.admission => exact absurd rfl (hfirst id)
    case raised.admission => exact absurd rfl (hfirst id)
    all_goals rfl

/-- **Where a step of the connection speaks and releases a latch**, an acknowledgement of the turn was swept:
the turn has one less. -/
theorem released_listen {e : ConnectionPipeline.Event} {turnId : String}
    (huttered : (h.pipeline.step cfg e).2.filterMap Notice.uttered ≠ [])
    (hlatched : turnId ∈ h.ledger.emittedTurns) (hreleased : turnId ∉ (h.listen cfg e).1.ledger.emittedTurns) :
    (h.listen cfg e).1.pipeline.scheduler.afloat.countP (SpeechItem.ackOf turnId)
        + ((h.listen cfg e).2.filterMap Notice.ended).countP (SpeechItem.ackOf turnId) + 1
      ≤ h.pipeline.scheduler.afloat.countP (SpeechItem.ackOf turnId)
        + ((h.listen cfg e).2.filterMap Notice.filed).countP (SpeechItem.ackOf turnId) := by
  have hnone : NoAdmission (h.pipeline.step cfg e).2 := fun n hn id hid =>
    huttered (answered_step h.pipeline e hn hid).2
  have hsweeping := (unuttered_or_sweeping cfg h.pipeline e).resolve_left huttered
  simp only [listen, foldl_hear_swept hnone, TurnAckLedger.mem_foldl_clearAckLatch, not_and, not_not] at hreleased ⊢
  obtain ⟨n, hn, hturn⟩ := List.mem_filterMap.mp (hreleased hlatched)
  cases n with
  | ackTerminal identity reason =>
    obtain ⟨item, rfl, hack, hswept⟩ := hsweeping.swept identity reason hn
    have hof : item.ackTurn = some turnId := by
      rw [SpeechItem.ackTurn, if_pos hack]
      exact hturn
    exact hswept _ (SpeechItem.ackTurn_eq_some.mp hof)
  | _ => cases hturn

/-- A step in which something is spoken is a step of the connection. -/
theorem listen_of_uttered {e : Event} (huttered : (h.step cfg e).2.filterMap Notice.uttered ≠ [])
    (hout : h.outside e = true) : ∃ (h₀ : AckHost) (e₀ : ConnectionPipeline.Event), h₀.pipeline = h.pipeline ∧
      h₀.ledger = h.ledger ∧ h.step cfg e = h₀.listen cfg e₀ ∧
      ∀ item ∈ (h.step cfg e).2.filterMap Notice.filed, ∀ turnId, item.ackOf turnId = false := by
  cases e with
  | speech e => exact ⟨h, e, rfl, rfl, rfl, fun item hi => (filed_outside hout hi).2⟩
  | emitEarlyAck turnId originEpoch dispatched searching =>
    simp only [step] at huttered
    split_ifs at huttered <;> exact absurd rfl huttered
  | resumeEmission id searchDone =>
    simp only [step] at huttered
    split at huttered
    · exact absurd rfl huttered
    · split_ifs at huttered <;> exact absurd rfl huttered
  | runAdmission id =>
    simp only [step] at huttered ⊢
    split
    · rename_i hnone
      simp [hnone] at huttered
    · rename_i task hsome
      simp only [hsome] at huttered
      split_ifs at huttered ⊢
      · exact absurd rfl huttered
      · refine ⟨{ h with admissions := (h.forget id).admissions ++ [{ task with point := .admitting }] },
          .startAck id (ackWorkItemId task.turnId), rfl, rfl, rfl, fun item hi => ?_⟩
        rw [listen, filed_startAck] at hi
        exact absurd hi List.not_mem_nil
      · exact absurd rfl huttered
  | wake id =>
    simp only [step] at huttered
    split at huttered
    · exact absurd rfl huttered
    · split_ifs at huttered <;> exact absurd rfl huttered
  | settleTurnAck turnId cancelAdmitted =>
    refine absurd ?_ huttered
    simp only [step]
    split_ifs
    · exact (apart_cancel h.pipeline.scheduler _).unuttered
    · rfl
  | _ => exact absurd rfl huttered

/-! ## Whose acknowledgement is queued -/

theorem countP_items_pos (hproper : ∀ item ∈ h.pipeline.scheduler.afloat, Proper item) {turnId : String}
    (hq : h.queued turnId = true) : 0 < h.pipeline.scheduler.queues.items.countP (SpeechItem.ackOf turnId) := by
  obtain ⟨item, hi⟩ : ∃ item, item ∈ h.pipeline.scheduler.queues.lane (ackWorkItemId turnId) :=
    List.exists_mem_of_ne_nil _ (by simpa [queued] using hq)
  have hkey := Lanes.key_of_mem_lane hi
  have hmem : item ∈ h.pipeline.scheduler.queues.items := Lanes.mem_items.mpr (hkey.symm ▸ hi)
  exact List.countP_pos_iff.mpr ⟨item, hmem, (hproper item (List.mem_append_left _ hmem) turnId).mpr hkey⟩

theorem countP_items_eq_zero (hproper : ∀ item ∈ h.pipeline.scheduler.afloat, Proper item) {turnId : String}
    (hq : h.queued turnId = false) : h.pipeline.scheduler.queues.items.countP (SpeechItem.ackOf turnId) = 0 := by
  refine List.countP_eq_zero.mpr fun item hi hack => ?_
  have hkey := (hproper item (List.mem_append_left _ hi) turnId).mp hack
  have hlane : item ∈ h.pipeline.scheduler.queues.lane (ackWorkItemId turnId) := hkey ▸ Lanes.mem_items.mp hi
  simp only [queued, Bool.not_eq_false', List.isEmpty_iff] at hq
  rw [hq] at hlane
  cases hlane

/-- A step that files an acknowledgement is the end of `emit_early_ack`. -/
theorem emits_of_filesFor {e : Event} {turnId : String} (he : h.filesFor cfg e = some turnId) :
    ∃ (h₀ : AckHost) (originEpoch : ℤ), h₀.ledger = h.ledger ∧ (h.step cfg e).1 = h₀.emit cfg turnId originEpoch := by
  cases e with
  | emitEarlyAck t originEpoch dispatched searching =>
    simp only [filesFor, Option.ite_none_right_eq_some, Bool.and_eq_true, Bool.not_eq_true',
      Option.some.injEq] at he
    obtain ⟨⟨heligible, rfl⟩, rfl⟩ := he
    exact ⟨h, originEpoch, rfl, by simp [step, heligible]⟩
  | resumeEmission id searchDone =>
    rcases hfind : h.emissions.find? (·.id = id) with _ | emission <;> simp [filesFor, hfind] at he
    obtain ⟨rfl, rfl⟩ := he
    exact ⟨{ h with emissions := h.emissions.erase emission }, emission.originEpoch, rfl, by simp [step, hfind]⟩
  | _ => cases he

theorem queued_emit (h : AckHost) (turnId : String) (originEpoch : ℤ) :
    (h.emit cfg turnId originEpoch).queued turnId = true := by
  obtain ⟨item, hitem, -, -, hkey⟩ := h.ackRequest_item? turnId originEpoch h.pipeline.scheduler.nextUtterance
  have hlane : (h.emit cfg turnId originEpoch).pipeline.scheduler.queues = h.pipeline.scheduler.queues.push item := by
    simp only [emit, scheduleAckAdmission, enqueueAck, ConnectionPipeline.step, upon, SpeechScheduler.enqueue, hitem]
    rfl
  rw [queued, hlane, Lanes.lane_push, if_pos hkey.symm]
  simp

namespace Heard

variable {w : Heard}

/-- How many acknowledgements of the turn are queued, being submitted or spoken. -/
def acks (w : Heard) (turnId : String) : ℕ :=
  w.host.pipeline.scheduler.afloat.countP (SpeechItem.ackOf turnId) + w.spoken.countP (SpeechItem.ackOf turnId)

/-- What the step grants on top of `b`: the acknowledgement that `emit_early_ack` files. -/
def granted (cfg : LifecycleConfig) (w : Heard) (e : AckHost.Event) (b : String → ℕ) (turnId : String) : ℕ :=
  b turnId + if w.host.filesFor cfg e = some turnId then 1 else 0

theorem capped_emit {h : AckHost} {b b' : String → ℕ} {spoken : List SpeechItem} (hs : Capped b h spoken [])
    {turnId : String} (hroom : ∀ t, b t + (if some turnId = some t then 1 else 0) ≤ b' t) (originEpoch : ℤ) :
    Capped b' (h.emit cfg turnId originEpoch) spoken [] := by
  have hfiled : Capped b' (h.enqueueAck cfg turnId originEpoch) spoken [] := by
    refine hs.enqueueAck (fun t => ?_) originEpoch
    have hcapped := hs.capped t
    have hle := hroom t
    simp only [Option.some.injEq, eq_comm (a := turnId)] at hle
    omega
  exact hfiled.continues rfl (continues_append rfl rfl rfl)

/-- **No step but an emission adds to the acknowledgements of a turn.** -/
theorem capped_step (cfg : LifecycleConfig) {b : String → ℕ} (hb : Capped b w.host w.spoken []) {e : AckHost.Event}
    (hout : w.host.outside e = true) :
    Capped (w.granted cfg e b) (w.step cfg e).host (w.step cfg e).spoken [] := by
  have hs : Capped (w.granted cfg e b) w.host w.spoken [] := hb.mono fun t => Nat.le_add_right _ _
  have books : ∀ {h' : AckHost}, h'.pipeline = w.host.pipeline → Continues w.host h' →
      Capped (w.granted cfg e b) h' (w.spoken ++ []) [] := fun hpipeline hc => by
    rw [List.append_nil]
    exact hs.continues hpipeline hc
  have kept : ∀ {h' : AckHost}, h'.nextTask = w.host.nextTask →
      (∀ task ∈ h'.admissions, task ∈ w.host.admissions) → Continues w.host h' := .of_subset
  cases e with
  | speech e =>
    refine hs.listen cfg (fun item hi => filed_outside hout hi) ?_
    rintro id key rfl
    cases hout
  | emitEarlyAck turnId originEpoch dispatched searching =>
    simp only [step, AckHost.step]
    split_ifs with heligible hsearching
    · exact books rfl ⟨Nat.le_succ _, fun task ht => Or.inl ⟨task, ht, rfl, rfl⟩⟩
    · obtain rfl : searching = false := by simpa using hsearching
      rw [List.filterMap_nil, List.append_nil]
      exact capped_emit hb (fun t => by simp [granted, filesFor, heligible]) originEpoch
    · exact books rfl (.refl _)
  | resumeEmission id searchDone =>
    simp only [step, AckHost.step]
    split
    · exact books rfl (.refl _)
    · rename_i emission hfind
      split_ifs with hdone
      · exact books rfl (kept rfl fun _ ht => ht)
      · have hrest : Capped b { w.host with emissions := w.host.emissions.erase emission } w.spoken [] :=
          hb.continues rfl (kept rfl fun _ ht => ht)
        rw [List.filterMap_nil, List.append_nil]
        exact capped_emit hrest (fun t => by simp [granted, filesFor, hdone, hfind]) emission.originEpoch
  | cancelEmission id => exact books rfl (kept rfl fun _ ht => ht)
  | runAdmission id =>
    simp only [step, AckHost.step]
    split
    · exact books rfl (.refl _)
    · rename_i task hfind
      have hmem : task ∈ w.host.admissions := List.mem_of_find?_eq_some hfind
      have hid : task.id = id := by simpa using List.find?_some hfind
      split_ifs
      · exact books rfl (w.host.continues_forget id)
      · set h' : AckHost := { w.host with
          admissions := (w.host.forget id).admissions ++ [{ task with point := .admitting }] } with hh'
        have hcont : Continues w.host h' := by
          refine ⟨le_refl _, fun t ht => ?_⟩
          rcases List.mem_append.mp ht with hold | hnew
          · exact Or.inl ⟨t, List.mem_of_mem_filter hold, rfl, rfl⟩
          · rw [List.mem_singleton.mp hnew]
            exact Or.inl ⟨task, hmem, rfl, rfl⟩
        have hadmitting : Capped (w.granted cfg (.runAdmission id) b) h' w.spoken [] := hs.continues rfl hcont
        refine hadmitting.listen cfg (fun item hi => ?_) ?_
        · rw [filed_startAck] at hi
          cases hi
        · rintro id' key heq
          cases heq
          refine ⟨hid ▸ hs.issued task hmem, fun t ht htid => ?_⟩
          rcases List.mem_append.mp ht with hold | hnew
          · exact absurd htid (by simpa using List.of_mem_filter hold)
          · rw [List.mem_singleton.mp hnew]
      · exact books rfl (.refl _)
  | wake id =>
    simp only [step, AckHost.step]
    split
    · exact books rfl (.refl _)
    · split_ifs
      · exact books rfl ((w.host.continues_forget id).trans (continues_append rfl rfl rfl))
      · exact books rfl (.refl _)
  | cancelAdmission id => exact books rfl (w.host.continues_forget id)
  | settleTurnAck turnId cancelAdmitted =>
    simp only [step, AckHost.step]
    split_ifs
    · have hcancel := hs.listen cfg (e := .cancel (some (ackWorkItemId turnId)))
        (fun item hi => filed_outside rfl hi) (fun _ _ heq => nomatch heq)
      exact hcancel.retract turnId
    · rw [List.filterMap_nil, List.append_nil]
      exact hs.retract turnId
  | clearAckLatch turnId => exact books rfl (kept rfl fun _ ht => ht)
  | clearAll => exact books rfl (kept rfl fun _ ht => ht)
  | setClosing closing => exact books rfl (kept rfl fun _ ht => ht)
  | configure enableEarlyAck earlyAckText => exact books rfl (kept rfl fun _ ht => ht)

/-! ## The latch -/

/-- **`emit_early_ack` files for a turn that is not latched, and whose latch was never released while its
acknowledgement was out of the ledger's reach.**  A call that did not yield has just looked at the latch. -/
def honest (cfg : LifecycleConfig) (w : Heard) (e : AckHost.Event) : Bool :=
  (w.host.filesFor cfg e).all fun turnId =>
    !w.loose.contains turnId && (e.checked || !w.host.ledger.emittedTurns.contains turnId)

/-- **The latch tells the truth**: a turn with an acknowledgement is latched, unless its latch was
released in spite of it. -/
structure Truthful (w : Heard) : Prop where
  capped : Capped (fun _ => 1) w.host w.spoken []
  latched : ∀ turnId, w.acks turnId ≠ 0 → turnId ∈ w.host.ledger.emittedTurns ∨ turnId ∈ w.loose
  failed : ∀ turnId ∈ w.failed, w.acks turnId = 0

theorem acks_eq (w : Heard) (turnId : String) :
    w.acks turnId = w.host.pipeline.scheduler.queues.items.countP (SpeechItem.ackOf turnId)
      + w.host.pipeline.scheduler.submitting.countP (SpeechItem.ackOf turnId)
      + w.spoken.countP (SpeechItem.ackOf turnId) := by
  rw [acks, afloat, List.countP_append]

theorem Truthful.acks_le (ht : Truthful w) (turnId : String) : w.acks turnId ≤ 1 :=
  ht.capped.capped turnId

/-- What `emit_early_ack` files for has no acknowledgement. -/
theorem Truthful.acks_of_filesFor (ht : Truthful w) {e : AckHost.Event} (he : w.honest cfg e = true)
    {turnId : String} (hfiles : w.host.filesFor cfg e = some turnId) : w.acks turnId = 0 := by
  obtain ⟨hloose, hlatch⟩ : turnId ∉ w.loose ∧ (e.checked = true ∨ turnId ∉ w.host.ledger.emittedTurns) := by
    simpa [honest, hfiles] using he
  have hfree : turnId ∉ w.host.ledger.emittedTurns := hlatch.elim (unlatched_of_checked hfiles) id
  by_contra hne
  exact (ht.latched turnId hne).elim hfree hloose

/-- No step but an emission adds to the acknowledgements of a turn. -/
theorem Truthful.acks_step (cfg : LifecycleConfig) (ht : Truthful w) {e : AckHost.Event} (hout : w.host.outside e = true)
    (turnId : String) :
    (w.step cfg e).acks turnId ≤ w.acks turnId + if w.host.filesFor cfg e = some turnId then 1 else 0 := by
  have hexact : Capped w.acks w.host w.spoken [] :=
    ⟨ht.capped.proper, fun _ => le_refl _, ht.capped.issued, ht.capped.submitted⟩
  exact (capped_step cfg hexact hout).capped turnId

/-- What has failed, and is not filed again, is gone. -/
theorem Truthful.failed_step (ht : Truthful w) {e : AckHost.Event} (hout : w.host.outside e = true)
    {turnId : String} (hmem : turnId ∈ (w.step cfg e).failed) : (w.step cfg e).acks turnId = 0 := by
  obtain ⟨hfailed, hqueued⟩ := List.mem_filter.mp hmem
  replace hqueued : (w.host.step cfg e).1.queued turnId = false := by simpa using hqueued
  rcases List.mem_append.mp hfailed with hold | hnew
  · have hno : w.host.filesFor cfg e ≠ some turnId := fun hfiles => by
      obtain ⟨h₀, originEpoch, -, heq⟩ := emits_of_filesFor hfiles
      rw [heq, queued_emit] at hqueued
      cases hqueued
    have hstep := ht.acks_step cfg hout turnId
    rw [ht.failed turnId hold, if_neg hno] at hstep
    exact Nat.le_zero.mp hstep
  · -- The one acknowledgement of the turn was being submitted, and failed.
    obtain ⟨item, hitem, hturn⟩ := List.mem_filterMap.mp hnew
    have hraised : 0 < ((w.host.step cfg e).2.filterMap Notice.failed).countP (SpeechItem.ackOf turnId) :=
      List.countP_pos_iff.mpr ⟨item, hitem, SpeechItem.ackTurn_eq_some.mp hturn⟩
    have hpasses := (passes_step cfg hout).afloat turnId
    have hle := ht.acks_le turnId
    rw [countP_ended] at hpasses
    have hnone := countP_items_eq_zero (h := (w.step cfg e).host) (capped_step cfg ht.capped hout).proper hqueued
    rw [acks_eq, hnone]
    rw [acks] at hle
    simp only [step, List.countP_append]
    omega

/-- Taken off its queue unspoken, an acknowledgement is gone. -/
theorem Truthful.unspoken_step (ht : Truthful w) {e : AckHost.Event} (hout : w.host.outside e = true)
    {turnId : String} (hbefore : w.host.queued turnId = true)
    (hafter : (w.step cfg e).host.queued turnId = false)
    (hunspoken : ∀ item ∈ (w.host.step cfg e).2.filterMap Notice.uttered, item.ackOf turnId = false) :
    (w.step cfg e).acks turnId = 0 := by
  have hpos := countP_items_pos ht.capped.proper hbefore
  have hle := ht.acks_le turnId
  have hpasses := (passes_step cfg hout).uttered (SpeechItem.ackOf turnId)
  have hnone : ((w.host.step cfg e).2.filterMap Notice.uttered).countP (SpeechItem.ackOf turnId) = 0 :=
    List.countP_eq_zero.mpr fun item hi => by simp [hunspoken item hi]
  rw [countP_ended, hnone] at hpasses
  rw [acks_eq] at hle
  rw [acks_eq, countP_items_eq_zero (capped_step cfg ht.capped hout).proper hafter]
  simp only [step, List.countP_append]
  omega

/-- Taken off its queue in the step that releases its latch, an acknowledgement is gone. -/
theorem Truthful.dropped_step (ht : Truthful w) {e : AckHost.Event} (hout : w.host.outside e = true)
    {turnId : String} (hbefore : w.host.queued turnId = true)
    (hafter : (w.step cfg e).host.queued turnId = false) (hlatched : turnId ∈ w.host.ledger.emittedTurns)
    (hreleased : turnId ∉ (w.step cfg e).host.ledger.emittedTurns) : (w.step cfg e).acks turnId = 0 := by
  by_cases huttered : (w.host.step cfg e).2.filterMap Notice.uttered = []
  · exact ht.unspoken_step hout hbefore hafter fun item hi => absurd hi (huttered ▸ List.not_mem_nil)
  obtain ⟨h₀, e₀, hpipeline, hledger, hstep, hfiled⟩ := listen_of_uttered huttered hout
  have hreleased₀ : turnId ∉ (h₀.listen cfg e₀).1.ledger.emittedTurns := by
    rw [← hstep]
    exact hreleased
  have hcount := released_listen (by rw [hstep] at huttered; exact huttered) (hledger ▸ hlatched) hreleased₀
  have hnone : ((w.host.step cfg e).2.filterMap Notice.filed).countP (SpeechItem.ackOf turnId) = 0 :=
    List.countP_eq_zero.mpr fun item hi => by simp [hfiled item hi turnId]
  have hpos := countP_items_pos ht.capped.proper hbefore
  have hitems : w.host.pipeline.scheduler.queues.items.countP (SpeechItem.ackOf turnId)
      ≤ w.host.pipeline.scheduler.afloat.countP (SpeechItem.ackOf turnId) := by
    rw [afloat, List.countP_append]
    exact Nat.le_add_right _ _
  have hle := ht.acks_le turnId
  rw [acks] at hle
  rw [← hstep, hpipeline, hnone, countP_ended] at hcount
  simp only [acks, step, List.countP_append]
  omega

theorem Truthful.step (ht : Truthful w) {e : AckHost.Event} (hout : w.host.outside e = true)
    (he : w.honest cfg e = true) : Truthful (w.step cfg e) := by
  have hcapped := capped_step cfg ht.capped hout
  have hgrows := ht.acks_step cfg hout
  refine ⟨⟨hcapped.proper, fun turnId => ?_, hcapped.issued, hcapped.submitted⟩, fun turnId hne => ?_,
    fun turnId => ht.failed_step hout⟩
  · refine (hgrows turnId).trans ?_
    split_ifs with hfiles
    · rw [ht.acks_of_filesFor he hfiles]
    · exact ht.acks_le turnId
  · by_cases hfiles : w.host.filesFor cfg e = some turnId
    · obtain ⟨h₀, originEpoch, -, heq⟩ := emits_of_filesFor hfiles
      refine Or.inl ?_
      change turnId ∈ (w.host.step cfg e).1.ledger.emittedTurns
      rw [heq]
      exact List.mem_insert_self
    have hgrow := hgrows turnId
    rw [if_neg hfiles] at hgrow
    rcases ht.latched turnId (by omega) with hlatched | hloose
    · by_cases hstill : turnId ∈ (w.step cfg e).host.ledger.emittedTurns
      · exact Or.inl hstill
      refine Or.inr (List.mem_append_right _ (List.mem_filter.mpr ⟨hlatched, ?_⟩))
      -- The latch is released: had the ledger dealt with the acknowledgement, it would be gone.
      have hunsettled : w.settled (w.host.step cfg e) turnId = false := by
        by_contra hsettled
        refine hne ?_
        simp only [settled, Bool.not_eq_false, Bool.or_eq_true, Bool.and_eq_true, Bool.not_eq_true',
          List.contains_iff_mem] at hsettled
        rcases hsettled with hfailed | ⟨hbefore, hafter⟩
        · exact ht.failed_step hout hfailed
        · exact ht.dropped_step hout hbefore hafter hlatched hstill
      replace hstill : turnId ∉ (w.host.step cfg e).1.ledger.emittedTurns := hstill
      simp [hunsettled, hstill]
    · exact Or.inr (List.mem_append_left _ hloose)

/-- Every step of the run keeps to the ledger's terms. -/
def Orderly (cfg : LifecycleConfig) (w : Heard) (es : List AckHost.Event) : Prop :=
  Guarded (step cfg) (fun w e => w.host.outside e = true ∧ w.honest cfg e = true) w es

instance (cfg : LifecycleConfig) (w : Heard) (es : List AckHost.Event) : Decidable (Orderly cfg w es) :=
  inferInstanceAs (Decidable (Guarded _ _ _ _))

theorem truthful_opened (epoch : ℤ) (enableEarlyAck : Bool) (earlyAckText : String) :
    Truthful (opened epoch enableEarlyAck earlyAckText) where
  capped :=
    { proper := fun _ hi => nomatch hi
      capped := fun _ => Nat.zero_le 1
      issued := fun _ ht => nomatch ht
      submitted := fun _ hsub => nomatch hsub }
  latched := fun _ hne => absurd rfl hne
  failed := fun _ hmem => nomatch hmem

/-- **At most one spoken acknowledgement per turn.** -/
theorem one_ack_per_turn (cfg : LifecycleConfig) (epoch : ℤ) (enableEarlyAck : Bool)
    (earlyAckText : String) (es : List AckHost.Event)
    (h : Orderly cfg (opened epoch enableEarlyAck earlyAckText) es) (turnId : String) :
    (run (step cfg) (opened epoch enableEarlyAck earlyAckText) es).spoken.countP (SpeechItem.ackOf turnId) ≤ 1 := by
  have hrun : Truthful (run (step cfg) (opened epoch enableEarlyAck earlyAckText) es) :=
    run_invariant (I := Truthful) (fun w e ht he => ht.step he.1 he.2)
      (truthful_opened epoch enableEarlyAck earlyAckText) h
  have hle := hrun.acks_le turnId
  rw [acks] at hle
  omega

/-- The acknowledgement is settled while it is queued, and a sibling files it again.  Its first submission
fails; the chain files it once more, and it is spoken. -/
abbrev retriedOnce : List AckHost.Event :=
  [.emitEarlyAck "turn" 1 false false, .settleTurnAck "turn" false, .emitEarlyAck "turn" 1 false false,
    .runAdmission 0, .runAdmission 1, .speech (.speakRaises 0), .speech (.signal (.dispatchDone 0 true)),
    .speech (.submissionFails 0), .wake 2, .runAdmission 3, .speech (.speakReturns 2)]

theorem one_ack_per_turn_retried :
    (run (step {}) (opened 1 true "One moment.") retriedOnce).spoken.map (·.workItemId) = ["ack-turn"] ∧
      (run (step {}) (opened 1 true "One moment.") retriedOnce).spoken.countP (SpeechItem.ackOf "turn") ≤ 1 :=
  ⟨by decide +kernel, one_ack_per_turn {} 1 true "One moment." retriedOnce (by decide +kernel) "turn"⟩

/-- The acknowledgement is filed while a result is spoken.  The terminal callback speaks it when the
result is over; the chain of retries knows nothing of that, abandons it after four attempts and releases
the latch.  A sibling's acknowledgement of the same turn follows. -/
abbrev abandonedAck : List AckHost.Event :=
  [.speech (.enqueue { resultId := some "result", workItemId := "work", originEpoch := some 1 }),
    .speech (.startNext (some "work")), .speech (.speakReturns 0), .emitEarlyAck "turn" 1 false false,
    .runAdmission 0, .speech (.deliveryCompleted 0), .speech (.signal (.run 0)), .speech (.speakReturns 1),
    .wake 1, .runAdmission 2, .wake 3, .runAdmission 4, .wake 5, .runAdmission 6, .emitEarlyAck "turn" 1 false false,
    .speech (.deliveryCompleted 1), .speech (.signal (.run 1)), .speech (.speakReturns 2)]

/-- **An abandoned acknowledgement is spoken twice.** -/
theorem abandoned_ack_spoken_twice :
    Guarded (step {}) (fun w e => w.host.outside e = true) (opened 1 true "One moment.") abandonedAck ∧
      (run (step {}) (opened 1 true "One moment.") abandonedAck).spoken.countP (SpeechItem.ackOf "turn") = 2 := by
  decide +kernel

end Heard

end AckHost

end SubagentsLab

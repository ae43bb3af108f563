import SubagentsLab.Speech.Advance

/-!
# Speech/Quiescence — no stranded queue

A `Watch` keeps, beside the connection, the work items under which speech was filed and `start_next`
not called yet, and the work item whose failed submission freed the slot.  On a live connection every
queue that is not empty is `Covered`, and when nothing is pending only one way of being covered is
left (`queues_empty_at_rest`).  A submission that nobody but the queue-advance task asked for may fail
unheard: the speech behind it is stranded (`unheard_failure_strands_queue`), so the runs of the theorem
are those in which every failure with speech behind it is heard.
-/

namespace SubagentsLab

open Machinery

namespace ConnectionPipeline

open SpeechScheduler SpeechLifecycleCoordinator

variable {cfg : LifecycleConfig} {p : ConnectionPipeline}

/-! ## One step of a live connection -/

/-- The connection stays open: it is neither closed nor is its scheduler discarded under it. -/
def Event.live : Event → Bool
  | .signal .connectionClosed => false
  | .interrupt _ reconnect fullStop => !(reconnect || fullStop)
  | _ => true

/-- The event is a `start_next` call that looks at the queue of `key`. -/
def Event.serves (key : String) : Event → Bool
  | .startNext workItemId => workItemId.all (· = key)
  | .startAck _ workItemId => workItemId = key
  | _ => false

/-- The submission whose failure frees the slot. -/
def failing? (p : ConnectionPipeline) : Event → Option Submission
  | .submissionFails id => p.scheduler.slotHolder? id
  | _ => none

/-- Its work item. -/
def failed (p : ConnectionPipeline) (e : Event) : Option String :=
  (p.failing? e).map (·.lease.item.workItemId)

/-- The callers' part is no condition on the host's own connection. -/
theorem wired_of_live (hacc : p.acceptable = true) {e : Event} (he : e.live = true) : p.wired e = true := by
  obtain ⟨hcur, -⟩ : p.current = true ∧ p.active = true := by simpa [acceptable] using hacc
  cases e with
  | enqueue r => simp [wired, hcur]
  | resume target => rcases target with _ | _ | _ <;> simp [wired, hcur]
  | signal sig => rcases sig with _ | _ | _ | _ | _ | _ | _ | _ | _ | _ | _ | _ | _ | _ <;>
      first | rfl | cases he
  | _ => rfl

/-- What a step does for the queues of the connection. -/
structure Tends (p : ConnectionPipeline) (e : Event) (r : ConnectionPipeline × List Notice) : Prop where
  discarded : r.1.scheduler.discarded = p.scheduler.discarded
  queue : ∀ key, key ∈ r.2.filterMap Notice.filedKey ∨
    Handled p.scheduler r.1.scheduler (p.failed e) key

theorem tends_of_unmoved {e : Event} {r : ConnectionPipeline × List Notice}
    (h : Unmoved p.scheduler r.1.scheduler) : p.Tends e r :=
  ⟨h.discarded, fun key => Or.inr (h.handled (p.failed e) key)⟩

theorem acceptable_react (effects : List Effect) (h : (p.react cfg effects).1.acceptable = true) :
    p.acceptable = true := by
  induction effects generalizing p with
  | nil => exact h
  | cons effect effects ih =>
    rcases effect with _ | _ | ⟨id, token, identity, disposition⟩ <;> rw [react] at h
    · exact ih h
    · have hfenced := ih h
      simp [acceptable] at hfenced
    · have hafter := ih h
      rw [onLifecycleTerminal] at hafter
      split_ifs at hafter <;> exact hafter

/-- A connection that is given up stays so. -/
theorem acceptable_step {e : Event} (h : (p.step cfg e).1.acceptable = true) : p.acceptable = true := by
  have given : ∀ {r : ConnectionPipeline × List Notice}, r.1.active = false → r.1.acceptable = true →
      p.acceptable = true := by
    intro r hoff hacc
    simp [acceptable, hoff] at hacc
  rcases e with _ | _ | _ | _ | _ | _ | _ | _ | _ | _ | _ | _ | _ | _ | _ | _ | _ | _ | _ | _ | _ | _ | sig
  case deactivate => exact given (r := p.deactivate cfg _ _) rfl h
  case replaced => exact given (r := p.replace cfg _ _) rfl h
  case signal =>
    have hreceive : (p.receive cfg sig).1.acceptable = true → p.acceptable = true := fun hacc =>
      acceptable_react (p := struck cfg p sig) _ hacc
    rcases sig with _ | _ | _ | _ | _ | _ | _ | _ | _ | _ | _ | _ | _ | ⟨id, ok⟩
    case dispatchDone =>
      rw [step] at h
      split_ifs at h
      · exact h
      · exact hreceive h
    all_goals exact hreceive h
  all_goals exact h

/-- Only the terminal callback reaches the scheduler. -/
theorem react_silent (cfg : LifecycleConfig) {effects : List Effect} (h : ∀ effect ∈ effects, effect.terminal = false) :
    (p.react cfg effects).1.scheduler = p.scheduler ∧ (p.react cfg effects).2 = [] := by
  induction effects generalizing p with
  | nil => exact ⟨rfl, rfl⟩
  | cons effect effects ih =>
    have hrest := fun effect' hmem => h effect' (List.mem_cons_of_mem effect hmem)
    rcases effect with _ | _ | ⟨id, token, identity, disposition⟩
    · exact ih hrest
    · rw [react]
      exact ih hrest
    · cases h _ List.mem_cons_self

/-- **The terminal callback on a live connection** finds the slot taken or looks at every queue. -/
theorem tends_onLifecycleTerminal (htts : cfg.ttsAvailable = true) {q : ConnectionPipeline}
    (hlive : q.acceptable = true) (hdiscarded : q.scheduler.discarded = p.scheduler.discarded)
    {identity : GenerationIdentity} {d : DeliveryDisposition} (ha : (q.report cfg identity d).Agreed)
    (id : ℕ) (e : Event) : p.Tends e (q.onLifecycleTerminal cfg id identity d) := by
  obtain ⟨hcur, hact⟩ : q.current = true ∧ q.active = true := by simpa [acceptable] using hlive
  have hreport : (q.report cfg identity d).discarded = p.scheduler.discarded := by
    rw [report]
    split_ifs
    · exact (discarded_deliver _ _ _ _).trans hdiscarded
    · exact hdiscarded
  rcases hlease : (q.report cfg identity d).active with _ | lease
  · simp only [onLifecycleTerminal, hcur, hact, hlease, hlive, Bool.not_true, Bool.false_eq_true, if_false,
      Option.isNone_none, Bool.and_self, if_true]
    refine ⟨(discarded_startNext _ _ _ _).trans hreport, fun key => Or.inr ?_⟩
    rcases startNext_none_of_live htts ha (.terminal id) with hslot | hempty
    · exact Or.inl hslot
    · exact Or.inr (Or.inl (hempty key))
  · simp only [onLifecycleTerminal, hcur, hact, hlease, Bool.not_true, Bool.false_eq_true, if_false,
      Option.isNone_some, Bool.and_false]
    have hdone := unmoved_finish cfg (q.report cfg identity d) (.terminal id) true
    refine ⟨hdone.discarded.trans hreport, fun key => Or.inr (Or.inl ?_)⟩
    change ((q.report cfg identity d).finish cfg (.terminal id) true).lifecycle.slotToken.isSome = true
    rw [hdone.lifecycle.slotToken, ha.slotToken hlease]
    rfl

theorem tends_receive (htts : cfg.ttsAvailable = true) (h : p.Attuned) (hlive : p.acceptable = true)
    {sig : Signal} (hsig : sig ≠ .connectionClosed) (e : Event) : p.Tends e (p.receive cfg sig) := by
  change p.Tends e ((struck cfg p sig).react cfg (p.scheduler.lifecycle.step cfg sig.event).2)
  have hanswer := answered_signal cfg p.scheduler.lifecycle hsig
  generalize hr : p.scheduler.lifecycle.step cfg sig.event = r at hanswer
  rcases hanswer with ⟨c', id, token, identity, d⟩ | ⟨r, hquiet⟩
  · have hcall := tends_onLifecycleTerminal (p := p) (q := struck cfg p sig) htts hlive rfl
      (agreed_report h hsig (by rw [hr])) id e
    refine ⟨hcall.discarded, fun key => ?_⟩
    rw [react, react, List.append_nil]
    exact hcall.queue key
  · obtain ⟨hsame, hnone⟩ := react_silent cfg (p := struck cfg p sig) hquiet.silent
    refine tends_of_unmoved ?_
    rw [hsame]
    refine ⟨?_, fun _ ht => ht, fun _ hne => hne, rfl⟩
    change Steady p.scheduler.lifecycle (p.scheduler.lifecycle.step cfg sig.event).1
    rw [hr]
    exact hquiet.steady

/-- **Every step of a live connection tends to the queues.** -/
theorem tends_step (htts : cfg.ttsAvailable = true) (h : p.Attuned) (hkeep : p.scheduler.discarded = false)
    {e : Event} (he : e.live = true) (hlive : (p.step cfg e).1.acceptable = true) :
    p.Tends e (p.step cfg e) := by
  have ha := h.agreed
  have hacc := acceptable_step hlive
  have start : ∀ key caller (e : Event),
      p.Tends e (p.upon (p.scheduler.startNext cfg p.acceptable key caller)) := by
    intro key caller e
    refine ⟨discarded_startNext _ _ _ _, fun k => Or.inr ?_⟩
    rw [hacc]
    rcases startNext_of_live htts ha key caller with hslot | ⟨-, hmoved⟩
    · exact Or.inl hslot
    · exact hmoved.handled _ k
  have moved : ∀ {r : SpeechScheduler × List Notice}, Unmoved p.scheduler r.1 → p.Tends e (p.upon r) :=
    fun hmoved => tends_of_unmoved hmoved
  have deliver : ∀ d disposition u (e : Event),
      p.Tends e (p.upon (p.scheduler.deliver cfg d disposition u, [])) := fun d disposition u e =>
    ⟨discarded_deliver _ _ _ _, fun key => Or.inr (handled_deliver _ _ _ _ _ key)⟩
  have provider : ∀ d disposition u ctx (e : Event),
      p.Tends e (p.upon ((p.scheduler.deliver cfg d disposition u).forgetContext ctx, [])) :=
    fun d disposition u ctx e => ⟨discarded_deliver _ _ _ _, fun key =>
      Or.inr ((handled_deliver _ _ _ _ _ key).andThen (unmoved_forgetContext _ ctx))⟩
  cases e with
  | enqueue r =>
    have hfiles := files_enqueue p.scheduler r
    exact ⟨hfiles.discarded, fun key => hfiles.handled _ key⟩
  | startNext key => exact start key .owner _
  | startAck id key => exact start (some key) (.admission id) _
  | speakReturns id => exact moved (unmoved_speakReturns _ id)
  | speakRaises id => exact moved (unmoved_speakRaises _ id)
  | submissionFails id =>
    exact ⟨discarded_submissionFails _ id, fun key => Or.inr (handled_submissionFails hkeep id key)⟩
  | runAdvance id =>
    refine ⟨discarded_runAdvance _ _ id, fun key => Or.inr ?_⟩
    have hadvance := handled_runAdvance htts ha id key
    rw [← hacc] at hadvance
    exact hadvance
  | providerStarted ctx => exact moved (unmoved_providerStarted _ ctx)
  | providerSynthesisEnded ctx => exact moved (unmoved_providerSynthesisEnded _ ctx)
  | providerDeliveryCompleted ctx =>
    rw [step, providerDeliveryCompleted]
    split
    · exact moved (.refl _)
    · exact provider _ _ _ ctx _
  | providerDeliveryUnknown ctx =>
    rw [step, providerDeliveryUnknown]
    split
    · exact moved (.refl _)
    · exact provider _ _ _ ctx _
  | synthesisEnded u => exact moved (unmoved_synthesisEnded _ u)
  | deliveryCompleted u => exact deliver _ _ u _
  | deliveryUnknown u => exact deliver _ _ u _
  | interrupt epoch reconnect fullStop =>
    obtain ⟨rfl, rfl⟩ : reconnect = false ∧ fullStop = false := by simpa [Event.live] using he
    exact moved (unmoved_interrupt _ epoch)
  | pause key => exact moved (unmoved_pause _ key)
  | resume target =>
    have hfiles := files_resume p.scheduler target
    exact ⟨hfiles.discarded, fun key => hfiles.handled _ key⟩
  | cancel key => exact moved (unmoved_cancel _ key)
  | discardQueuedNotice key => exact moved (unmoved_discardQueuedNotice _ key)
  | discardQueuedAck ackId => exact moved (unmoved_keep _ ackId _)
  | deactivate epoch reconnect => simp [step, ConnectionPipeline.deactivate, acceptable, upon] at hlive
  | replaced epoch reconnect =>
    simp [step, replace, ConnectionPipeline.deactivate, acceptable, upon] at hlive
  | signal sig =>
    have hsig : sig ≠ .connectionClosed := by
      rintro rfl
      cases he
    have hreceive := tends_receive htts h hacc hsig
    rcases sig with _ | _ | _ | _ | _ | _ | _ | _ | _ | _ | _ | _ | _ | ⟨id, ok⟩
    case dispatchDone =>
      rw [step]
      split_ifs
      · exact tends_of_unmoved (.refl _)
      · exact hreceive _
    all_goals exact hreceive _

/-- A `start_next` call takes the slot or leaves nothing queued where it looks. -/
theorem served (htts : cfg.ttsAvailable = true) (h : p.Attuned) (hlive : p.acceptable = true) {e : Event}
    {key : String} (hserves : e.serves key = true) :
    (p.step cfg e).1.scheduler.lifecycle.slotToken.isSome = true ∨
      (p.step cfg e).1.scheduler.queues.lane key = [] := by
  have start : ∀ (target : Option String) caller, target.all (· = key) = true →
      (p.scheduler.startNext cfg p.acceptable target caller).1.lifecycle.slotToken.isSome = true ∨
        (p.scheduler.startNext cfg p.acceptable target caller).1.queues.lane key = [] := by
    intro target caller htarget
    rw [hlive]
    refine (startNext_of_live htts h.agreed target caller).imp_right fun ⟨hempty, hmoved⟩ => ?_
    by_contra hne
    have hold := hmoved.lane key hne
    rcases target with _ | k
    · exact hold (hempty key (Lanes.mem_keys.mpr hold))
    · obtain rfl : k = key := by simpa using htarget
      exact hold (hempty k (List.mem_singleton_self k))
  rcases e with _ | target | ⟨id, k⟩ | _ | _ | _ | _ | _ | _ | _ | _ | _ | _ | _ | _ | _ | _ | _ | _ | _ |
    _ | _ | _
  case startNext => exact start target .owner hserves
  case startAck => exact start (some k) (.admission id) hserves
  all_goals cases hserves

/-! ## Whole runs -/

/-- The connection, the work items `start_next` is still to be called for, the one whose failed
submission freed the slot and was heard of, and the submissions of `start_next` calls without a key. -/
structure Watch where
  pipeline : ConnectionPipeline
  owed : List String := []
  freedBy : Option String := none
  keyless : List ℕ := []

namespace Watch

/-- The exception of the submission goes to an owner of its work item, or to its admission chain. -/
def reports (w : Watch) (sub : Submission) : Bool := sub.caller.hears && !w.keyless.contains sub.id

/-- The work item whose submission fails, heard by its owner. -/
def heard (w : Watch) (e : Event) : Option String :=
  ((w.pipeline.failing? e).filter w.reports).map (·.lease.item.workItemId)

/-- One step of the connection, watched. -/
def step (cfg : LifecycleConfig) (w : Watch) (e : Event) : Watch :=
  let r := w.pipeline.step cfg e
  { pipeline := r.1
    owed := w.owed.filter (fun key => !e.serves key) ++ r.2.filterMap Notice.filedKey
    freedBy :=
      if r.1.scheduler.lifecycle.slotToken.isSome then none
      else if w.pipeline.scheduler.lifecycle.slotToken.isSome then w.heard e
      else w.freedBy
    keyless := if e = .startNext none then w.keyless ++ [w.pipeline.scheduler.nextCall] else w.keyless }

/-- If the step is a failure that frees the slot, it is heard, or no speech is behind it. -/
def accountable (w : Watch) (e : Event) : Bool :=
  (w.pipeline.failing? e).all fun sub =>
    w.reports sub || (w.pipeline.scheduler.queues.lane sub.lease.item.workItemId).isEmpty

/-- A run, watched. -/
def after (cfg : LifecycleConfig) (epoch : Option ℤ) (es : List Event) : Watch :=
  run (step cfg) { pipeline := opened epoch } es

theorem pipeline_after (cfg : LifecycleConfig) (epoch : Option ℤ) (es : List Event) :
    (after cfg epoch es).pipeline = ConnectionPipeline.after cfg epoch es := by
  have hrun : ∀ w : Watch, (run (step cfg) w es).pipeline
      = run (fun p e => (ConnectionPipeline.step cfg p e).1) w.pipeline es := by
    induction es with
    | nil => exact fun w => rfl
    | cons e es ih => exact fun w => ih (w.step cfg e)
  exact hrun _

/-- Nothing is under way: no `start_next` call, coroutine or queue-advance task, and the speech that
was filed has had its `start_next` call. -/
def Quiescent (w : Watch) : Prop :=
  w.pipeline.scheduler.submissions = [] ∧ w.pipeline.scheduler.lifecycle.transitions = [] ∧
    w.pipeline.scheduler.advances = [] ∧ w.owed = []

instance (w : Watch) : Decidable w.Quiescent := inferInstanceAs (Decidable (_ ∧ _ ∧ _ ∧ _))

variable {w : Watch}

/-- **The queue of `key` is attended to.** -/
def Covered (w : Watch) (key : String) : Prop :=
  w.pipeline.scheduler.lifecycle.slotToken.isSome = true ∨ w.pipeline.scheduler.Probed key ∨
    key ∈ w.owed ∨ w.freedBy = some key

/-- On a connection that is live, every queue is attended to. -/
structure Attends (w : Watch) : Prop where
  attuned : w.pipeline.Attuned
  kept : w.pipeline.scheduler.discarded = false
  covered : ∀ key, w.pipeline.scheduler.queues.lane key ≠ [] → w.Covered key

theorem Covered.step {e : Event} {key : String} (h : w.Covered key)
    (hfree : (w.step cfg e).pipeline.scheduler.lifecycle.slotToken = none)
    (hserves : e.serves key = false)
    (hprobed : w.pipeline.scheduler.Probed key → (w.step cfg e).pipeline.scheduler.Probed key)
    (hfreed : w.pipeline.scheduler.lifecycle.slotToken.isSome = true →
      (w.step cfg e).pipeline.scheduler.Probed key ∨ w.heard e = some key) :
    (w.step cfg e).Covered key := by
  have hfreedBy : (w.step cfg e).freedBy = if w.pipeline.scheduler.lifecycle.slotToken.isSome then
      w.heard e else w.freedBy := by
    simp only [Watch.step] at hfree ⊢
    rw [hfree]
    rfl
  rcases hslot : w.pipeline.scheduler.lifecycle.slotToken with _ | token
  · rcases h with hsome | hp | howed | hby
    · rw [hslot] at hsome
      cases hsome
    · exact Or.inr (Or.inl (hprobed hp))
    · exact Or.inr (Or.inr (Or.inl (List.mem_append_left _ (List.mem_filter.mpr ⟨howed, by simp [hserves]⟩))))
    · refine Or.inr (Or.inr (Or.inr ?_))
      rw [hfreedBy, hslot]
      exact hby
  · rcases hfreed (by rw [hslot]; rfl) with hp | hheard
    · exact Or.inr (Or.inl hp)
    · refine Or.inr (Or.inr (Or.inr ?_))
      rw [hfreedBy, hslot]
      exact hheard

/-- With speech behind it, a failure is heard. -/
theorem heard_of_failed {e : Event} (haccount : w.accountable e = true) {key : String}
    (hlane : w.pipeline.scheduler.queues.lane key ≠ []) (hfailed : w.pipeline.failed e = some key) :
    w.heard e = some key := by
  obtain ⟨sub, hsub, rfl⟩ := Option.map_eq_some_iff.mp hfailed
  have hreports : w.reports sub = true := by simpa [accountable, hsub, hlane] using haccount
  simp [heard, hsub, hreports]

theorem Attends.step (htts : cfg.ttsAvailable = true) (h : w.Attends) {e : Event} (he : e.live = true)
    (haccount : w.accountable e = true) (hlive : (w.step cfg e).pipeline.acceptable = true) :
    (w.step cfg e).Attends := by
  have hacc : w.pipeline.acceptable = true := acceptable_step hlive
  have htends := tends_step htts h.attuned h.kept he hlive
  refine ⟨h.attuned.step (wired_of_live hacc he), htends.discarded.trans h.kept, fun key hlane => ?_⟩
  rcases hfree : (w.step cfg e).pipeline.scheduler.lifecycle.slotToken with _ | token
  · rcases htends.queue key with hfiled | hslot | hempty | ⟨hold, hprobed, hfreed⟩
    · exact Or.inr (Or.inr (Or.inl (List.mem_append_right _ hfiled)))
    · change (w.step cfg e).pipeline.scheduler.lifecycle.slotToken.isSome = true at hslot
      rw [hfree] at hslot
      cases hslot
    · exact absurd hempty hlane
    · refine (h.covered key hold).step hfree ?_ hprobed fun hsome =>
        (hfreed hsome).imp_right (heard_of_failed haccount hold)
      rcases hserves : e.serves key with _ | _
      · rfl
      · rcases served htts h.attuned hacc hserves with hslot | hempty
        · change (w.step cfg e).pipeline.scheduler.lifecycle.slotToken.isSome = true at hslot
          rw [hfree] at hslot
          cases hslot
        · exact absurd hempty hlane
  · exact Or.inl (by rw [hfree]; rfl)

theorem attends_after (htts : cfg.ttsAvailable = true) (epoch : Option ℤ) {es : List Event}
    (hes : ∀ e ∈ es, e.live = true)
    (haccount : Guarded (step cfg) (fun w e => w.accountable e = true) { pipeline := opened epoch } es)
    (hlive : (after cfg epoch es).pipeline.acceptable = true) : (after cfg epoch es).Attends := by
  induction es using List.reverseRecOn with
  | nil => exact ⟨attuned_opened epoch, rfl, fun _ hne => absurd rfl hne⟩
  | append_singleton es e ih =>
    have hsplit : after cfg epoch (es ++ [e]) = (after cfg epoch es).step cfg e := by
      rw [after, run_append]
      rfl
    rw [hsplit] at hlive ⊢
    obtain ⟨hinit, hlast, -⟩ := (guarded_append _ es [e]).mp haccount
    have hbefore := ih (fun e' he' => hes e' (List.mem_append_left _ he')) hinit (acceptable_step hlive)
    exact hbefore.step htts (hes e (List.mem_append_right _ (List.mem_singleton_self e))) hlast hlive

/-- **No stranded queue.**  At rest on a live connection with a free slot, every queue is empty but
that of the work item whose own failed submission freed the slot: its owner has heard of the failure
and is left to retry. -/
theorem queues_empty_at_rest (cfg : LifecycleConfig) (htts : cfg.ttsAvailable = true) (epoch : Option ℤ)
    (es : List Event) (hes : ∀ e ∈ es, e.live = true)
    (haccount : Guarded (step cfg) (fun w e => w.accountable e = true) { pipeline := opened epoch } es) :
    let w := after cfg epoch es
    w.pipeline = ConnectionPipeline.after cfg epoch es ∧
      (w.pipeline.acceptable = true → w.Quiescent → w.pipeline.scheduler.lifecycle.slotToken = none →
        ∀ key, w.freedBy ≠ some key → w.pipeline.scheduler.queues.lane key = []) := by
  refine ⟨pipeline_after cfg epoch es, fun hlive hquiet hfree key hby => ?_⟩
  obtain ⟨-, htransitions, hadvances, howed⟩ := hquiet
  by_contra hlane
  rcases (attends_after htts epoch hes haccount hlive).covered key hlane with hslot | hprobed | hmem | hfreed
  · rw [hfree] at hslot
    cases hslot
  · rcases hprobed with ⟨t, ht, -⟩ | ⟨task, ht, -⟩
    · simp [htransitions] at ht
    · simp [hadvances] at ht
  · simp [howed] at hmem
  · exact hby hfreed

/-- The other work item's speech waits for a submission that fails; the queue-advance task starts it,
and it is delivered. -/
abbrev failedOther : List Event :=
  [.enqueue { resultId := some "a", workItemId := "work", originEpoch := some 1 }, .startNext (some "work"),
    .enqueue { resultId := some "b", workItemId := "other", originEpoch := some 1 },
    .startNext (some "other"), .speakRaises 0, .signal (.dispatchDone 0 true), .submissionFails 0,
    .runAdvance 1, .speakReturns 2, .deliveryCompleted 1, .signal (.run 1)]

theorem queues_empty_at_rest_delivered :
    (after {} (some 1) failedOther).pipeline.scheduler.queues.lane "other" = [] :=
  (queues_empty_at_rest {} rfl (some 1) failedOther (by decide) (by decide +kernel)).2 (by decide +kernel)
    (by decide +kernel) (by decide +kernel) "other" (by decide +kernel)

/-- The other utterance is of the same work item. -/
abbrev failedTwin : List Event :=
  [.enqueue { resultId := some "a", workItemId := "work", originEpoch := some 1 }, .startNext (some "work"),
    .enqueue { resultId := some "b", workItemId := "work", originEpoch := some 1 }, .startNext (some "work"),
    .speakRaises 0, .signal (.dispatchDone 0 true), .submissionFails 0, .runAdvance 1]

/-- **A failed submission leaves its own queue waiting.**  Nothing is pending, no timer is armed for any
token ever issued, and the slot is free. -/
theorem failure_leaves_own_queue :
    let w := after {} (some 1) failedTwin
    (∀ e ∈ failedTwin, e.live = true) ∧ w.pipeline.acceptable = true ∧ w.Quiescent ∧
      (∀ token < w.pipeline.scheduler.lifecycle.nextToken,
        (w.pipeline.scheduler.lifecycle.timerHandles token).isNone = true) ∧
      w.pipeline.scheduler.lifecycle.slotToken = none ∧
      w.pipeline.scheduler.queues.lane "work" ≠ [] := by
  decide +kernel

/-- Two utterances of the other work item wait for a submission that fails; the queue-advance task
starts the first, and that fails too. -/
abbrev failedUnheard : List Event :=
  [.enqueue { resultId := some "a", workItemId := "work", originEpoch := some 1 }, .startNext (some "work"),
    .enqueue { resultId := some "b", workItemId := "other", originEpoch := some 1 },
    .startNext (some "other"),
    .enqueue { resultId := some "c", workItemId := "other", originEpoch := some 1 },
    .startNext (some "other"), .speakRaises 0, .signal (.dispatchDone 0 true), .submissionFails 0,
    .runAdvance 1, .speakRaises 2, .signal (.dispatchDone 1 true), .submissionFails 2, .runAdvance 3]

/-- **A failure that nobody hears of strands the queue behind it.**  No owner is left to retry: the
queue-advance task swallows the exception, and the next one passes the work item over. -/
theorem unheard_failure_strands_queue :
    let w := after {} (some 1) failedUnheard
    (∀ e ∈ failedUnheard, e.live = true) ∧ w.pipeline.acceptable = true ∧ w.Quiescent ∧
      w.pipeline.scheduler.lifecycle.slotToken = none ∧ w.freedBy = none ∧
      w.pipeline.scheduler.queues.lane "other" ≠ [] := by
  decide +kernel

end Watch

end ConnectionPipeline

end SubagentsLab

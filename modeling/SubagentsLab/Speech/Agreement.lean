import SubagentsLab.Speech.Lease

/-!
# Speech/Agreement — single slot, one report, one lease

Lease and slot agree in every run of a connection before it closes (`slot_and_lease_agree`).  A
connection that is no longer the host's own ignores the terminal callback, so there the agreement
rests on the callers: its scheduler was swept when it was replaced, and no result is filed on it any
more (`wired`).  An acknowledgement may be, but is never admitted.
-/

namespace SubagentsLab

open Machinery

namespace SpeechScheduler

variable {cfg : LifecycleConfig} {s s' : SpeechScheduler}

/-! ## A retired scheduler -/

/-- No lease, and nothing held but acknowledgements. -/
structure Retired (s : SpeechScheduler) : Prop where
  idle : s.active = none
  queued : ∀ item ∈ s.queues.items, item.isAck = true
  paused : ∀ item ∈ s.paused.values, item.isAck = true

theorem Retired.shrink (h : s.Retired) (hactive : s'.active = s.active)
    (hqueued : ∀ item ∈ s'.queues.items, item ∈ s.queues.items)
    (hpaused : ∀ item ∈ s'.paused.values, item ∈ s.paused.values) : s'.Retired :=
  ⟨hactive.trans h.idle, fun item hi => h.queued item (hqueued item hi),
    fun item hi => h.paused item (hpaused item hi)⟩

/-- Neither lease nor queues nor paused items change. -/
theorem Retired.frame (h : s.Retired) (hactive : s'.active = s.active) (hqueues : s'.queues = s.queues)
    (hpaused : s'.paused = s.paused) : s'.Retired :=
  h.shrink hactive (by simp [hqueues]) (by simp [hpaused])

theorem Retired.finish (h : s.Retired) (caller : Caller) (ok : Bool) :
    (s.finish cfg caller ok).Retired := by
  rcases caller with _ | _ | _ | _ <;> exact h.frame rfl rfl rfl

theorem Retired.activeLease (h : s.Retired) (u : UtteranceId) : s.activeLease u = none := by
  simp [SpeechScheduler.activeLease, h.idle]

theorem Retired.providerLease (h : s.Retired) (ctx : UtteranceId) : s.providerLease ctx = none := by
  simp [SpeechScheduler.providerLease, h.idle]

/-- Nothing is admitted while the transport is not acceptable. -/
theorem Retired.startNext (h : s.Retired) (key : Option String) (caller : Caller) :
    (s.startNext cfg false key caller).1.Retired := by
  have hstart := startNext_cases cfg s false key caller
  generalize s.startNext cfg false key caller = r at hstart
  rcases hstart with _ | ⟨s', ns, D, hshed, -, -, -⟩ |
    ⟨s', ns, D, rest, item, hshed, -, -, -, -, hack, hlane⟩
  · exact h.finish caller true
  · refine Retired.finish (h.shrink hshed.active (fun item hi => ?_) ?_) caller true
    · exact hshed.items.subset (List.mem_append_right D hi)
    · rw [hshed.frame]
      exact fun item hi => hi
  · have hmem : item ∈ s.queues.items := by
      refine hshed.items.subset (List.mem_append_right D (Lanes.mem_items.mpr ?_))
      rw [hlane]
      exact List.mem_cons_self
    cases hack (h.queued item hmem)

theorem Retired.enqueue (h : s.Retired) {r : SpeechRequest} (hack : r.role = .ack) :
    (s.enqueue r).1.Retired := by
  rcases hitem : r.item? s.nextUtterance with _ | item
  · simp only [SpeechScheduler.enqueue, hitem]
    exact h
  · simp only [SpeechScheduler.enqueue, hitem]
    refine ⟨h.idle, fun x hx => ?_, h.paused⟩
    rcases List.mem_cons.mp ((s.queues.items_push_perm item).subset hx) with rfl | hx
    · simp only [SpeechRequest.item?] at hitem
      split_ifs at hitem
      cases hitem
      simp [SpeechItem.isAck, hack]
    · exact h.queued x hx

theorem Retired.unpause (h : s.Retired) (item : SpeechItem) : (s.unpause item).Retired := by
  rw [SpeechScheduler.unpause]
  split_ifs
  · exact h.shrink rfl (fun _ hx => hx) fun x hx =>
      (s.paused.values_pop_perm item.workItemId).subset (List.mem_append_left _ hx)
  · exact h

/-- Whatever is paused there is an acknowledgement, which `resume` drops. -/
theorem Retired.resume (h : s.Retired) {target : Target} (hack : ∀ item, target = .item item → item.isAck = true) :
    (s.resume target).1.Retired := by
  rw [SpeechScheduler.resume]
  rcases hres : s.resumable target with _ | item
  · exact h
  have hitem : item.isAck = true := by
    rcases hp : s.pausedFor target with _ | x
    · rcases target with _ | _ | x
      · simp [resumable, hp] at hres
      · simp [resumable, hp] at hres
      · obtain rfl : x = item := by simpa [resumable, hp] using hres
        exact hack x rfl
    · obtain rfl : x = item := by simpa [resumable, hp] using hres
      refine h.paused x ?_
      rcases target with _ | key | y
      · exact List.mem_of_getLast? hp
      · exact Dict.mem_values.mpr ⟨key, hp⟩
      · exact Dict.mem_values.mpr ⟨y.workItemId, hp⟩
  simp only [hitem, if_true]
  exact h.unpause item

theorem Retired.interrupt (h : s.Retired) (epoch : Option ℤ) (reconnect fullStop : Bool) :
    (s.interrupt cfg epoch reconnect fullStop).1.Retired := by
  rcases hdiscarding : (reconnect || fullStop) with _ | _ <;>
    simp only [SpeechScheduler.interrupt, h.idle, hdiscarding, Bool.false_eq_true, if_false, if_true]
  · exact h
  · exact ⟨h.idle, (fun _ hi => absurd hi List.not_mem_nil), fun _ hi => absurd hi List.not_mem_nil⟩

theorem Retired.cancel (h : s.Retired) (key : Option String) : (s.cancel cfg key).1.Retired := by
  have hlane : ∀ (s' : SpeechScheduler) (key : String), s'.Retired → (s'.cancelLane key).Retired :=
    fun s' key h' => h'.shrink rfl (fun x hx =>
      (s'.queues.items_pop_perm key).subset (List.mem_append_left _ hx)) fun _ hx => hx
  have hpaused : ∀ (s' : SpeechScheduler) (key : String), s'.Retired → (s'.cancelPaused key).Retired :=
    fun s' key h' => h'.shrink rfl (fun _ hx => hx) fun x hx =>
      (s'.paused.values_pop_perm key).subset (List.mem_append_left _ hx)
  simp only [SpeechScheduler.cancel, h.idle]
  exact run_invariant_of_step hpaused (run_invariant_of_step hlane h _) _

theorem Retired.keep (h : s.Retired) (key : String) (p : SpeechItem → Bool) :
    Retired { s with queues := s.queues.keep key p } :=
  h.shrink rfl (fun _ hx => (s.queues.items_keep_perm key p).subset (List.mem_append_left _ hx))
    fun _ hx => hx

theorem Retired.submissionFails (h : s.Retired) (id : ℕ) : (s.submissionFails cfg id).1.Retired := by
  rw [SpeechScheduler.submissionFails]
  split
  · exact h
  dsimp only
  split_ifs
  · exact h
  refine Retired.finish ?_ _ false
  rw [release_update, release_of_ne (h.activeLease _), scheduleQueueAdvance]
  split_ifs <;> exact h.frame rfl rfl rfl

theorem Retired.runAdvance (h : s.Retired) (id : ℕ) : (s.runAdvance cfg false id).1.Retired := by
  rw [SpeechScheduler.runAdvance]
  split
  · exact h
  · rename_i task _
    have hdone : Retired { s with advances := s.advances.erase task } := h.frame rfl rfl rfl
    dsimp only
    split
    · exact hdone
    · exact hdone.startNext _ .advance

/-- A discarding interruption retires any scheduler. -/
theorem retired_of_discard (s : SpeechScheduler) (epoch : Option ℤ) (reconnect : Bool) :
    (s.interrupt cfg epoch reconnect true).1.Retired := by
  rcases hactive : s.active with _ | lease <;>
    simp only [SpeechScheduler.interrupt, hactive, Bool.or_true, if_true]
  · exact ⟨hactive, (fun _ hi => absurd hi List.not_mem_nil), fun _ hi => absurd hi List.not_mem_nil⟩
  · refine ⟨?_, (fun _ hi => absurd hi List.not_mem_nil), fun _ hi => absurd hi List.not_mem_nil⟩
    rw [interruptActive_of_active hactive]
    rfl

end SpeechScheduler

/-! ## The connection -/

namespace Signal

theorem event_ne_release (sig : Signal) (t : Token) (notify : Bool) (d : DeliveryDisposition) :
    sig.event ≠ .releaseGeneration t notify d := by
  rcases sig with _ | _ | _ | _ | _ | _ | _ | _ | _ | _ | _ | _ | _ | _ <;> simp [Signal.event]

theorem event_ne_interruption (sig : Signal) (t : Token) (pause : Bool) :
    sig.event ≠ .recordInterruption t pause := by
  rcases sig with _ | _ | _ | _ | _ | _ | _ | _ | _ | _ | _ | _ | _ | _ <;> simp [Signal.event]

theorem event_ne_close {sig : Signal} (hsig : sig ≠ .connectionClosed) :
    sig.event ≠ .connectionClosed := by
  rcases sig with _ | _ | _ | _ | _ | _ | _ | _ | _ | _ | _ | _ | _ | _ <;> simp_all [Signal.event]

end Signal

namespace ConnectionPipeline

open SpeechScheduler

variable {cfg : LifecycleConfig} {p : ConnectionPipeline}

/-- Lease and slot agree, and a connection that is not the host's is retired. -/
structure Attuned (p : ConnectionPipeline) : Prop where
  agreed : p.scheduler.Agreed
  retired : p.current = false → p.scheduler.Retired

/-- The scheduler moves on, the connection does not. -/
theorem Attuned.upon (h : p.Attuned) {r : SpeechScheduler × List Notice} (hr : r.1.Agreed)
    (hretired : p.scheduler.Retired → p.acceptable = false → r.1.Retired) : (p.upon r).1.Attuned :=
  ⟨hr, fun hcur => hretired (h.retired hcur)
    (by rw [acceptable, show p.current = false from hcur, Bool.false_and])⟩

/-- The terminal callback, once its report leaves lease and slot in agreement. -/
theorem attuned_of_report {identity : GenerationIdentity} {disposition : DeliveryDisposition}
    (hreport : p.current = true → (p.report cfg identity disposition).Agreed)
    (hother : p.current = false → p.Attuned) (id : ℕ) :
    (p.onLifecycleTerminal cfg id identity disposition).1.Attuned := by
  rcases hcur : p.current with _ | _
  · simp only [onLifecycleTerminal, hcur, Bool.not_false, if_true]
    have h := hother hcur
    exact h.upon (h.agreed.finish (.terminal id) true) fun hr _ => hr.finish (.terminal id) true
  · simp only [onLifecycleTerminal, hcur, Bool.not_true, Bool.false_eq_true, if_false]
    have hcurrent : ∀ r : SpeechScheduler × List Notice, r.1.Agreed → (p.upon r).1.Attuned :=
      fun r hr => ⟨hr, fun hno => absurd (hcur.symm.trans hno) (by simp)⟩
    split_ifs
    · exact hcurrent _ ((hreport hcur).startNext p.acceptable none (.terminal id))
    · exact hcurrent _ ((hreport hcur).finish (.terminal id) true)

theorem Attuned.onLifecycleTerminal (h : p.Attuned) (id : ℕ) (identity : GenerationIdentity)
    (disposition : DeliveryDisposition) :
    (p.onLifecycleTerminal cfg id identity disposition).1.Attuned := by
  refine attuned_of_report (fun _ => ?_) (fun _ => h) id
  rw [report]
  split_ifs
  · exact h.agreed.deliver _ _ _
  · exact h.agreed

theorem Attuned.react (h : p.Attuned) (effects : List Effect) : (p.react cfg effects).1.Attuned := by
  induction effects generalizing p with
  | nil => exact h
  | cons effect effects ih =>
    rcases effect with _ | _ | ⟨id, token, identity, disposition⟩
    · rw [ConnectionPipeline.react]
      exact ih h
    · rw [ConnectionPipeline.react]
      exact ih ⟨h.agreed, h.retired⟩
    · rw [ConnectionPipeline.react]
      exact ih (h.onLifecycleTerminal id identity disposition)

section Signals

variable {sig : Signal}

/-- The connection with its lifecycle at the signal, before any callback. -/
def struck (cfg : LifecycleConfig) (p : ConnectionPipeline) (sig : Signal) : ConnectionPipeline :=
  { p with scheduler := { p.scheduler with lifecycle := (p.scheduler.lifecycle.step cfg sig.event).1 } }

theorem attuned_struck (h : p.Attuned) (hsig : sig ≠ .connectionClosed)
    (hstored : ∀ lease, p.scheduler.active = some lease →
      (p.scheduler.lifecycle.step cfg sig.event).1.generations lease.token ≠ none) :
    (struck cfg p sig).Attuned :=
  ⟨h.agreed.move cfg sig.event (Signal.event_ne_close hsig) rfl
      (fun lease hl => ⟨hl, hstored lease hl, sig.event_ne_interruption _⟩)
      fun sub hsub => ⟨sub, hsub, rfl⟩,
    fun hcur => (h.retired hcur).frame rfl rfl rfl⟩

/-- The leased generation is reaped: the terminal callback reports it, which gives up the lease. -/
theorem reaped_signal (h : p.Attuned) (hsig : sig ≠ .connectionClosed) {lease : UtteranceLease}
    (hl : p.scheduler.active = some lease)
    (hnone : (p.scheduler.lifecycle.step cfg sig.event).1.generations lease.token = none) :
    ∃ id, (p.scheduler.lifecycle.step cfg sig.event).2
        = [.onTerminal id lease.token lease.item.identity .deliveryUnknown] ∧
      ((struck cfg p sig).report cfg lease.item.identity .deliveryUnknown).Agreed := by
  obtain ⟨g, hg, hid, hout⟩ := h.agreed.leased lease hl
  have hclose := Signal.event_ne_close hsig
  obtain ⟨id, heff⟩ := SpeechLifecycleCoordinator.reported_of_reaped h.agreed.accountable hg hout hnone
    sig.event_ne_release hclose
  refine ⟨id, hid ▸ heff, ?_⟩
  have hleased : (struck cfg p sig).scheduler.active = some lease := hl
  rw [report, if_pos rfl]
  change ((struck cfg p sig).scheduler.deliver cfg .deliveryUnknown .deliveryUnknown
    lease.item.utteranceId).Agreed
  rw [deliver_of_active hleased]
  -- The lease goes with its generation; releasing a generation that is gone changes nothing.
  have hidle : Agreed { (struck cfg p sig).scheduler with active := none } :=
    h.agreed.idle cfg sig.event hclose rfl rfl rfl
  exact hidle.idle cfg (.releaseGeneration lease.token true .deliveryUnknown) (by simp) rfl rfl rfl

/-- **A signal to the lifecycle keeps lease and slot in agreement**: if it reaps the leased
generation, the terminal callback releases the lease. -/
theorem Attuned.receive (cfg : LifecycleConfig) (h : p.Attuned) (hsig : sig ≠ .connectionClosed) :
    (p.receive cfg sig).1.Attuned := by
  change ((struck cfg p sig).react cfg (p.scheduler.lifecycle.step cfg sig.event).2).1.Attuned
  by_cases hstored : ∀ lease, p.scheduler.active = some lease →
      (p.scheduler.lifecycle.step cfg sig.event).1.generations lease.token ≠ none
  · exact (attuned_struck h hsig hstored).react _
  · push Not at hstored
    obtain ⟨lease, hl, hnone⟩ := hstored
    obtain ⟨id, heff, hreport⟩ := reaped_signal h hsig hl hnone
    have hcur : p.current = true := by
      rcases hcur : p.current with _ | _
      · rw [(h.retired hcur).idle] at hl
        cases hl
      · rfl
    rw [heff]
    exact attuned_of_report (fun _ => hreport) (fun hno => absurd (hcur.symm.trans hno) (by simp)) id

/-- Whatever the terminal callback reports, lease and slot agree after its report. -/
theorem agreed_report (h : p.Attuned) (hsig : sig ≠ .connectionClosed) {id : ℕ} {token : Token}
    {identity : GenerationIdentity} {d : DeliveryDisposition}
    (heff : (p.scheduler.lifecycle.step cfg sig.event).2 = [.onTerminal id token identity d]) :
    ((struck cfg p sig).report cfg identity d).Agreed := by
  by_cases hstored : ∀ lease, p.scheduler.active = some lease →
      (p.scheduler.lifecycle.step cfg sig.event).1.generations lease.token ≠ none
  · have hagreed := (attuned_struck h hsig hstored).agreed
    rw [report]
    split_ifs
    · exact hagreed.deliver _ _ _
    · exact hagreed
  · push Not at hstored
    obtain ⟨lease, hl, hnone⟩ := hstored
    obtain ⟨id', heff', hreport⟩ := reaped_signal h hsig hl hnone
    rw [heff] at heff'
    cases heff'
    exact hreport

end Signals

/-- What the callers see to: no result is filed on a connection that is no longer the host's. -/
def wired (p : ConnectionPipeline) : Event → Bool
  | .enqueue r => r.role = .ack || p.current
  | .resume (.item item) => item.isAck || p.current
  | .signal .connectionClosed => false
  | _ => true

/-- **Every step keeps lease and slot in agreement.** -/
theorem Attuned.step (h : p.Attuned) {e : Event} (he : p.wired e = true) :
    (p.step cfg e).1.Attuned := by
  have ha := h.agreed
  have aside : ∀ {r : SpeechScheduler × List Notice}, Aside p.scheduler r.1 →
      (p.scheduler.Retired → r.1.Retired) → (p.upon r).1.Attuned :=
    fun has hret => h.upon (ha.aside has) fun hr _ => hret hr
  cases e with
  | enqueue r =>
    refine ⟨ha.aside (aside_enqueue _ r), fun hcur => ?_⟩
    have hno : p.current = false := hcur
    exact (h.retired hno).enqueue (by simpa [wired, hno] using he)
  | startNext key =>
    exact h.upon (ha.startNext _ key .owner) fun hr hacc => hacc ▸ hr.startNext key .owner
  | startAck id key =>
    exact h.upon (ha.startNext _ (some key) (.admission id))
      fun hr hacc => hacc ▸ hr.startNext (some key) (.admission id)
  | speakReturns id =>
    refine h.upon (ha.speakReturns id) fun hr _ => ?_
    rw [SpeechScheduler.speakReturns]
    split
    · exact hr
    · split_ifs
      · exact hr
      · rename_i sub _ _
        have hdone : Retired { p.scheduler with submissions := p.scheduler.submissions.erase sub } :=
          hr.frame rfl rfl rfl
        exact hdone.finish sub.caller true
  | speakRaises id =>
    refine h.upon (ha.speakRaises id) fun hr _ => ?_
    dsimp only [SpeechScheduler.speakRaises]
    split
    · exact hr
    · split_ifs
      · exact hr
      · exact hr.frame rfl rfl rfl
  | submissionFails id => exact h.upon (ha.submissionFails id) fun hr _ => hr.submissionFails id
  | runAdvance id => exact h.upon (ha.runAdvance _ id) fun hr hacc => hacc ▸ hr.runAdvance id
  | providerStarted ctx =>
    refine aside (aside_providerStarted _ ctx) fun hr => ?_
    simp only [providerStarted, hr.activeLease]
    exact hr
  | providerSynthesisEnded ctx =>
    refine aside (aside_providerSynthesisEnded _ ctx) fun hr => ?_
    simp only [providerSynthesisEnded, hr.providerLease]
    exact hr
  | providerDeliveryCompleted ctx =>
    refine h.upon (ha.providerDelivery _ _ ctx) fun hr _ => ?_
    simp only [providerDeliveryCompleted, hr.providerLease]
    exact hr
  | providerDeliveryUnknown ctx =>
    refine h.upon (ha.providerDelivery _ _ ctx) fun hr _ => ?_
    simp only [providerDeliveryUnknown, hr.providerLease]
    exact hr
  | synthesisEnded u =>
    refine aside (aside_synthesisEnded _ u) fun hr => ?_
    simp only [synthesisEnded, hr.activeLease]
    exact hr
  | deliveryCompleted u =>
    refine h.upon (ha.deliver _ _ u) fun hr _ => ?_
    simp only [deliveryCompleted, deliver, hr.activeLease]
    exact hr
  | deliveryUnknown u =>
    refine h.upon (ha.deliver _ _ u) fun hr _ => ?_
    simp only [deliveryUnknown, deliver, hr.activeLease]
    exact hr
  | interrupt epoch reconnect fullStop =>
    exact h.upon (ha.interrupt epoch reconnect fullStop) fun hr _ => hr.interrupt epoch reconnect fullStop
  | pause key =>
    refine h.upon (ha.pause key) fun hr _ => ?_
    simp only [SpeechScheduler.pause, hr.idle]
    exact hr
  | resume target =>
    refine ⟨ha.aside (aside_resume _ target), fun hcur => ?_⟩
    have hno : p.current = false := hcur
    refine (h.retired hno).resume fun item heq => ?_
    simpa [wired, hno, heq] using he
  | cancel key => exact h.upon (ha.cancel key) fun hr _ => hr.cancel key
  | discardQueuedNotice key =>
    exact aside ⟨rfl, rfl, rfl⟩ fun hr => (hr.keep key _).frame rfl rfl rfl
  | discardQueuedAck ackId => exact aside ⟨rfl, rfl, rfl⟩ fun hr => hr.keep ackId _
  | deactivate epoch reconnect =>
    exact ⟨ha.interrupt epoch reconnect true, fun hcur => (h.retired hcur).interrupt epoch reconnect true⟩
  | replaced epoch reconnect =>
    have hmoved : Agreed { p.scheduler with
        state := { p.scheduler.state with activeEpoch := epoch } } := ha.aside ⟨rfl, rfl, rfl⟩
    exact ⟨hmoved.interrupt p.scheduler.state.activeEpoch reconnect true,
      fun _ => retired_of_discard _ p.scheduler.state.activeEpoch reconnect⟩
  | signal sig =>
    by_cases hsig : sig = .connectionClosed
    · rw [hsig] at he
      cases he
    have hreceive := h.receive cfg hsig
    rcases sig with _ | _ | _ | _ | _ | _ | _ | _ | _ | _ | _ | _ | _ | ⟨id, ok⟩
    case dispatchDone =>
      rw [ConnectionPipeline.step]
      split_ifs
      · exact h
      · exact hreceive
    all_goals exact hreceive

/-! ## Whole runs -/

/-- Every step of the run is wired. -/
def Wired (cfg : LifecycleConfig) (p : ConnectionPipeline) (es : List Event) : Prop :=
  Guarded (fun p e => (step cfg p e).1) (fun p e => p.wired e = true) p es

instance (cfg : LifecycleConfig) (p : ConnectionPipeline) (es : List Event) :
    Decidable (Wired cfg p es) := inferInstanceAs (Decidable (Guarded _ _ _ _))

theorem attuned_opened (epoch : Option ℤ) : (opened epoch).Attuned where
  agreed := ⟨SpeechLifecycleCoordinator.accountable_init, rfl, (fun _ hl => nomatch hl), fun _ hsub => nomatch hsub⟩
  retired := fun hcur => nomatch hcur

theorem attuned_after {epoch : Option ℤ} {es : List Event} (h : Wired cfg (opened epoch) es) :
    (after cfg epoch es).Attuned :=
  run_invariant (I := Attuned) (fun _ _ hp he => hp.step he) (attuned_opened epoch) h

/-- `speak` is called with the slot free and no lease. -/
theorem free_of_speak {s : SpeechScheduler} {acceptable : Bool} {key : Option String} {caller : Caller}
    {item : SpeechItem} (h : .speak item ∈ (s.startNext cfg acceptable key caller).2) :
    s.active = none ∧ s.lifecycle.slotToken = none := by
  have hstart := startNext_cases cfg s acceptable key caller
  generalize s.startNext cfg acceptable key caller = r at hstart h
  rcases hstart with _ | ⟨_, ns, _, _, hns, hidle, hfree⟩ |
    ⟨_, _, _, _, _, _, -, hidle, hfree, -, -, -⟩
  · simp at h
  · exact ⟨hidle, hfree⟩
  · exact ⟨hidle, hfree⟩

/-- **Single slot, one terminal report, one lease.**  The lifecycle stores exactly the slot's
generation, maps exactly its bound context and none that is retired, and reports each token at most
once, whatever happens to it.  Driven by the scheduler, a lease means that the slot holds its token,
and `speak` is called only with the slot free and no lease. -/
theorem slot_and_lease_agree (cfg : LifecycleConfig) :
    (∀ es, let c := SpeechLifecycleCoordinator.after cfg es
      (∀ t, (c.generations t).isSome = true ↔ c.slotToken = some t) ∧
      (∀ ctx t, c.contextTokens ctx = some t →
        c.slotToken = some t ∧ ∃ g, c.generations t = some g ∧ g.contextId = some ctx) ∧
      (∀ ctx ∈ c.contextTombstones, c.contextTokens ctx = none) ∧
      ∀ t, SpeechLifecycleCoordinator.terminalReports
        (SpeechLifecycleCoordinator.effects cfg es) t ≤ 1) ∧
    (∀ epoch es, Wired cfg (opened epoch) es →
      ∀ lease, (after cfg epoch es).scheduler.active = some lease →
        (after cfg epoch es).scheduler.lifecycle.slotToken = some lease.token) ∧
    ∀ (s : SpeechScheduler) acceptable key caller item,
      .speak item ∈ (s.startNext cfg acceptable key caller).2 →
        s.active = none ∧ s.lifecycle.slotToken = none := by
  refine ⟨fun es => ?_, fun epoch es h lease hl => (attuned_after h).agreed.slotToken hl,
    fun s _ _ _ _ => free_of_speak⟩
  have hwf := (SpeechLifecycleCoordinator.sound_after cfg es).wellformed
  refine ⟨fun t => ⟨fun hsome => ?_, fun ht => ?_⟩, fun ctx t ht => ?_, hwf.retired,
    SpeechLifecycleCoordinator.terminalReports_le_one cfg es⟩
  · obtain ⟨g, hg⟩ := Option.isSome_iff_exists.mp hsome
    exact hwf.occupant t g hg
  · obtain ⟨g, hg⟩ := hwf.stored t ht
    exact Option.isSome_iff_exists.mpr ⟨g, hg⟩
  · obtain ⟨g, hg, hctx⟩ := hwf.bound ctx t ht
    exact ⟨hwf.occupant t g hg, g, hg, hctx⟩

/-- A result is filed and started: its token is in the slot. -/
theorem slot_and_lease_agree_started :
    let es := [.enqueue { resultId := some "result", workItemId := "work", originEpoch := some 1 },
      .startNext (some "work")]
    (after {} (some 1) es).scheduler.active.map (·.token) = some 0 ∧
      (after {} (some 1) es).scheduler.lifecycle.slotToken = some 0 := by
  have hwired : Wired {} (opened (some 1))
      [.enqueue { resultId := some "result", workItemId := "work", originEpoch := some 1 },
        .startNext (some "work")] := by decide +kernel
  refine ⟨by decide +kernel, ?_⟩
  exact (slot_and_lease_agree {}).2.1 (some 1) _ hwired
    ⟨⟨some "result", "work", "", "", 0, some 1, .result, none, none, rfl⟩, 0⟩ (by decide +kernel)

end ConnectionPipeline

end SubagentsLab

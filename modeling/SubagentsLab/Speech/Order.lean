import SubagentsLab.Speech.Flow

/-!
# Speech/Order — a work item is spoken in the order it was filed

The queue of a work item is first in, first out, and nothing that is done to it — discarding, pausing, cancelling,
replaying, failing — changes the order of what is left.  What has been handed to `speak` and what is still queued
together is a part of what was filed, in its order (`InOrder`), step by step and over whole runs.

* `spoken_in_order`: the items of a work item are spoken in the order they were filed, none twice.
-/

namespace SubagentsLab

open Machinery

/-- The items of a work item, of those the notices tell of. -/
def noticed (f : Notice → Option SpeechItem) (key : String) (ns : List Notice) : List SpeechItem :=
  (ns.filterMap f).filter (·.workItemId = key)

theorem noticed_append (f : Notice → Option SpeechItem) (key : String) (ns ns' : List Notice) :
    noticed f key (ns ++ ns') = noticed f key ns ++ noticed f key ns' := by
  rw [noticed, List.filterMap_append, List.filter_append]
  rfl

namespace SpeechScheduler

variable {cfg : LifecycleConfig} {s s' s'' : SpeechScheduler} {ns ns' : List Notice}

/-- **What is spoken and what is left of a queue are what was there and what was filed, in that order**; what is filed
is numbered on. -/
structure InOrder (s : SpeechScheduler) (r : SpeechScheduler × List Notice) : Prop where
  lanes : ∀ key, List.Sublist (noticed Notice.uttered key r.2 ++ r.1.queues.lane key)
    (s.queues.lane key ++ noticed Notice.filed key r.2)
  numbered : s.nextUtterance ≤ r.1.nextUtterance
  within : ∀ item ∈ r.2.filterMap Notice.filed, s.nextUtterance ≤ item.utteranceId ∧ item.utteranceId < r.1.nextUtterance
  sorted : (r.2.filterMap Notice.filed).Pairwise (·.utteranceId < ·.utteranceId)

theorem InOrder.trans (h : InOrder s (s', ns)) (h' : InOrder s' (s'', ns')) : InOrder s (s'', ns ++ ns') where
  lanes := fun key => by
    have hfirst := (h.lanes key).append_right (noticed Notice.filed key ns')
    have hsecond := (h'.lanes key).append_left (noticed Notice.uttered key ns)
    rw [noticed_append, noticed_append, List.append_assoc]
    rw [List.append_assoc, List.append_assoc] at hfirst
    exact hsecond.trans hfirst
  numbered := h.numbered.trans h'.numbered
  within := fun item hitem => by
    have hle : s.nextUtterance ≤ s'.nextUtterance := h.numbered
    have hle' : s'.nextUtterance ≤ s''.nextUtterance := h'.numbered
    rw [List.filterMap_append] at hitem
    rcases List.mem_append.mp hitem with hitem | hitem
    · obtain ⟨hfrom, hto⟩ := h.within item hitem
      exact ⟨hfrom, hto.trans_le hle'⟩
    · obtain ⟨hfrom, hto⟩ := h'.within item hitem
      exact ⟨hle.trans hfrom, hto⟩
  sorted := by
    rw [List.filterMap_append]
    refine List.pairwise_append.mpr ⟨h.sorted, h'.sorted, fun item hitem item' hitem' => ?_⟩
    exact (h.within item hitem).2.trans_le (h'.within item' hitem').1

/-- Nothing is spoken or filed. -/
def Silent (ns : List Notice) : Prop := ns.filterMap Notice.uttered = [] ∧ ns.filterMap Notice.filed = []

theorem silent_nil : Silent [] := ⟨rfl, rfl⟩

theorem Silent.append (h : Silent ns) (h' : Silent ns') : Silent (ns ++ ns') := by
  rw [Silent, List.filterMap_append, List.filterMap_append, h.1, h.2, h'.1, h'.2]
  exact ⟨rfl, rfl⟩

theorem OnlyAcks.silent (h : OnlyAcks ns) : Silent ns := by
  refine ⟨List.filterMap_eq_nil_iff.mpr fun n hn => ?_, List.filterMap_eq_nil_iff.mpr fun n hn => ?_⟩
  all_goals
    obtain ⟨identity, reason, rfl⟩ := h n hn
    rfl

/-- Queued items are dropped, at most. -/
theorem inOrder_of_lanes (hlanes : ∀ key, List.Sublist (s'.queues.lane key) (s.queues.lane key))
    (hnext : s'.nextUtterance = s.nextUtterance) (hns : Silent ns) : InOrder s (s', ns) where
  lanes := fun key => by
    rw [noticed, noticed, hns.1, hns.2, List.filter_nil, List.nil_append, List.append_nil]
    exact hlanes key
  numbered := hnext.ge
  within := fun item hitem => by
    rw [hns.2] at hitem
    exact absurd hitem List.not_mem_nil
  sorted := by
    rw [hns.2]
    exact List.Pairwise.nil

theorem inOrder_of_eq (hqueues : s'.queues = s.queues) (hnext : s'.nextUtterance = s.nextUtterance)
    (hns : Silent ns) : InOrder s (s', ns) :=
  inOrder_of_lanes (fun key => by rw [hqueues]) hnext hns

/-! ## The operations -/

theorem inOrder_finish (s : SpeechScheduler) (caller : Caller) (ok : Bool) (hns : Silent ns) :
    InOrder s (s.finish cfg caller ok, ns) := by
  rcases caller with _ | _ | _ | _ <;> exact inOrder_of_eq rfl rfl hns

theorem utteranceId_of_item? {r : SpeechRequest} {u : UtteranceId} {item : SpeechItem} (h : r.item? u = some item) :
    item.utteranceId = u := by
  rw [SpeechRequest.item?] at h
  split_ifs at h <;>
  · cases h
    rfl

theorem inOrder_enqueue (s : SpeechScheduler) (r : SpeechRequest) :
    InOrder s ((s.enqueue r).1, ((s.enqueue r).2.map Notice.enqueued).toList) := by
  rcases hitem : r.item? s.nextUtterance with _ | item
  · simp only [enqueue, hitem]
    exact inOrder_of_eq rfl rfl silent_nil
  · have hnumber := utteranceId_of_item? hitem
    simp only [enqueue, hitem]
    refine ⟨fun key => ?_, Nat.le_succ _, fun other hother => ?_, List.pairwise_singleton _ _⟩
    · change List.Sublist ([] ++ (s.queues.push item).lane key)
        (s.queues.lane key ++ [item].filter (·.workItemId = key))
      rw [Lanes.lane_push, List.nil_append]
      split_ifs with hkey
      · rw [List.filter_cons_of_pos (by simpa using hkey.symm), hkey, List.filter_nil]
      · rw [List.filter_cons_of_neg (by simpa using Ne.symm hkey), List.filter_nil, List.append_nil]
    · obtain rfl : other = item := List.mem_singleton.mp hother
      rw [hnumber]
      exact ⟨le_rfl, Nat.lt_succ_self _⟩

theorem Sheds.inOrder {D : List SpeechItem} (h : Sheds s s' D) (hns : Silent ns) : InOrder s (s', ns) :=
  inOrder_of_lanes (fun key => (h.lane key).sublist) (by rw [h.frame]; rfl) hns

/-- The head of a queue is spoken. -/
theorem inOrder_submit (cfg : LifecycleConfig) (s : SpeechScheduler) {item : SpeechItem} {rest : List SpeechItem}
    (hlane : s.queues.lane item.workItemId = item :: rest) (token : Token) (caller : Caller) :
    InOrder s (s.submit cfg item token caller, [.speak item]) where
  lanes := fun key => by
    change List.Sublist ([item].filter (·.workItemId = key) ++ (s.queues.dropHead item.workItemId).lane key)
      (s.queues.lane key ++ [])
    rw [Lanes.lane_dropHead, List.append_nil]
    split_ifs with hkey
    · rw [List.filter_cons_of_pos (by simpa using hkey.symm), hkey, List.filter_nil, hlane, List.tail_cons]
      exact List.Sublist.refl _
    · rw [List.filter_cons_of_neg (by simpa using Ne.symm hkey), List.filter_nil, List.nil_append]
  numbered := le_rfl
  within := fun _ hother => absurd hother List.not_mem_nil
  sorted := List.Pairwise.nil

theorem inOrder_startNext (s : SpeechScheduler) (acceptable : Bool) (key : Option String) (caller : Caller) :
    InOrder s (s.startNext cfg acceptable key caller) := by
  have hstart := startNext_cases cfg s acceptable key caller
  generalize s.startNext cfg acceptable key caller = r at hstart
  rcases hstart with _ | ⟨s', ns, D, hshed, hns, -, -⟩ | ⟨s', ns, D, rest, item, hshed, hns, -, -, -, -, hlane⟩
  · exact inOrder_finish s caller true ⟨rfl, rfl⟩
  · exact (hshed.inOrder hns.onlyAcks.silent).trans (inOrder_finish s' caller true ⟨rfl, rfl⟩)
  · have hsubmit := inOrder_submit cfg { s' with lifecycle := s.lifecycle.upon (s.lifecycle.enter item.identity) } hlane
      s.lifecycle.nextToken caller
    have hentered : InOrder s' (_, [.speak item]) := ⟨hsubmit.lanes, hsubmit.numbered, hsubmit.within, hsubmit.sorted⟩
    exact (hshed.inOrder hns.onlyAcks.silent).trans hentered

theorem inOrder_speakReturns (s : SpeechScheduler) (id : ℕ) : InOrder s (s.speakReturns cfg id) := by
  rw [speakReturns]
  split
  · exact inOrder_of_eq rfl rfl silent_nil
  · rename_i sub _
    split_ifs
    · exact inOrder_of_eq rfl rfl silent_nil
    · have hdone : InOrder s ({ s with submissions := s.submissions.erase sub }, []) :=
        inOrder_of_eq rfl rfl silent_nil
      exact hdone.trans (inOrder_finish _ sub.caller true ⟨rfl, rfl⟩)

theorem inOrder_speakRaises (s : SpeechScheduler) (id : ℕ) : InOrder s (s.speakRaises id, []) := by
  rw [speakRaises]
  split
  · exact inOrder_of_eq rfl rfl silent_nil
  · split_ifs <;> exact inOrder_of_eq rfl rfl silent_nil

theorem inOrder_release (s : SpeechScheduler) (u : UtteranceId) : InOrder s (s.release u, []) := by
  rw [release]
  split
  · exact inOrder_of_eq rfl rfl silent_nil
  · split_ifs <;> exact inOrder_of_eq rfl rfl silent_nil

theorem inOrder_scheduleQueueAdvance (s : SpeechScheduler) (exclude : String) :
    InOrder s (s.scheduleQueueAdvance exclude, []) := by
  rw [scheduleQueueAdvance]
  split_ifs <;> exact inOrder_of_eq rfl rfl silent_nil

theorem inOrder_submissionFails (s : SpeechScheduler) (id : ℕ) : InOrder s (s.submissionFails cfg id) := by
  rw [submissionFails]
  split
  · exact inOrder_of_eq rfl rfl silent_nil
  · rename_i sub _
    dsimp only
    split_ifs
    · exact inOrder_of_eq rfl rfl silent_nil
    · have hforgotten : InOrder s ({ s with
          submissions := s.submissions.erase sub
          lifecycle := s.lifecycle.releaseGeneration cfg sub.lease.token false .deliveryUnknown }, []) :=
        inOrder_of_eq rfl rfl silent_nil
      have hreleased := hforgotten.trans (inOrder_release _ sub.lease.item.utteranceId)
      have hadvance := hreleased.trans (inOrder_scheduleQueueAdvance _ sub.lease.item.workItemId)
      exact hadvance.trans (inOrder_finish _ sub.caller false ⟨rfl, rfl⟩)

theorem inOrder_runAdvance (s : SpeechScheduler) (acceptable : Bool) (id : ℕ) :
    InOrder s (s.runAdvance cfg acceptable id) := by
  rw [runAdvance]
  split
  · exact inOrder_of_eq rfl rfl silent_nil
  · rename_i task _
    have hdone : InOrder s ({ s with advances := s.advances.erase task }, []) := inOrder_of_eq rfl rfl silent_nil
    dsimp only
    split
    · exact hdone
    · exact hdone.trans (inOrder_startNext _ acceptable _ .advance)

theorem inOrder_deliver (s : SpeechScheduler) (d : DeliveryState) (disposition : DeliveryDisposition)
    (u : UtteranceId) : InOrder s (s.deliver cfg d disposition u, []) := by
  rcases hl : s.activeLease u with _ | lease
  · rw [deliver, hl]
    exact inOrder_of_eq rfl rfl silent_nil
  · obtain ⟨hactive, rfl⟩ := activeLease_eq_some.mp hl
    rw [deliver_of_active hactive]
    exact inOrder_of_eq rfl rfl silent_nil

theorem inOrder_interruptActive {lease : UtteranceLease} (hactive : s.active = some lease) (d : DeliveryState)
    (pause stale : Bool) (epoch : Option ℤ) (hns : Silent ns) :
    InOrder s (s.interruptActive cfg lease d pause stale epoch, ns) := by
  rw [interruptActive_of_active hactive]
  exact inOrder_of_eq rfl rfl hns

theorem inOrder_sweep (s : SpeechScheduler) (d : DeliveryState) (epoch : Option ℤ) : InOrder s (s.sweep d epoch) :=
  inOrder_of_lanes (fun _ => List.nil_sublist _) rfl (onlyAcks_sweep .connectionClosed _).silent

theorem inOrder_interrupt (s : SpeechScheduler) (epoch : Option ℤ) (reconnect fullStop : Bool) :
    InOrder s (s.interrupt cfg epoch reconnect fullStop) := by
  rcases hactive : s.active with _ | lease <;> rcases hdiscarding : (reconnect || fullStop) with _ | _ <;>
    simp only [interrupt, hactive, hdiscarding, Bool.false_eq_true, if_false, if_true]
  · exact inOrder_of_eq rfl rfl silent_nil
  · exact inOrder_sweep s _ epoch
  · exact inOrder_interruptActive hactive _ _ _ epoch ⟨rfl, rfl⟩
  · exact (inOrder_interruptActive hactive _ _ _ epoch ⟨rfl, rfl⟩).trans (inOrder_sweep _ _ epoch)

theorem inOrder_pause (s : SpeechScheduler) (key : String) : InOrder s (s.pause cfg key) := by
  rcases pause_cases cfg s key with heq | ⟨lease, -, -, heq⟩ <;> rw [heq] <;>
    exact inOrder_of_eq rfl rfl ⟨rfl, rfl⟩

theorem inOrder_resume (s : SpeechScheduler) (target : Target) : InOrder s (s.resume target) := by
  rw [resume]
  split
  · exact inOrder_of_eq rfl rfl silent_nil
  rename_i item _
  have hunpause : InOrder s (s.unpause item, []) := by
    rw [unpause]
    split_ifs <;> exact inOrder_of_eq rfl rfl silent_nil
  -- a replay is filed at the end of its queue, under a number of its own
  have hreplay : ∀ s' : SpeechScheduler, InOrder s' (s'.enqueueReplay item) := by
    intro s'
    have h := inOrder_enqueue s' item.replay
    rw [enqueueReplay]
    rcases heq : s'.enqueue item.replay with ⟨s'', _ | replay⟩ <;> rw [heq] at h
    · exact h
    · exact ⟨h.lanes, h.numbered, h.within, h.sorted⟩
  dsimp only
  split_ifs
  · exact hunpause.trans (inOrder_of_eq rfl rfl ⟨rfl, rfl⟩)
  · have hmarked : InOrder s ((s.unpause item).emitProgress item .interrupted, []) :=
      hunpause.trans (inOrder_of_eq rfl rfl silent_nil)
    exact hmarked.trans (hreplay _)
  · exact hunpause.trans (hreplay _)

theorem inOrder_cancelLane (s : SpeechScheduler) (key : String) : InOrder s (s.cancelLane key, []) :=
  inOrder_of_lanes (fun other => by
    change List.Sublist ((s.queues.pop key).lane other) _
    rw [Lanes.lane_pop]
    split_ifs
    · exact List.nil_sublist _
    · exact List.Sublist.refl _) rfl silent_nil

theorem inOrder_cancel (s : SpeechScheduler) (key : Option String) : InOrder s (s.cancel cfg key) := by
  have hpaused : ∀ (s' : SpeechScheduler) (key : String), InOrder s (s', []) → InOrder s (s'.cancelPaused key, []) :=
    fun s' key h => h.trans (inOrder_of_eq rfl rfl silent_nil)
  have hrest : ∀ s' : SpeechScheduler, InOrder s (s', []) → ∀ (keys keys' : List String) (ns : List Notice),
      Silent ns → InOrder s (keys'.foldl cancelPaused (keys.foldl cancelLane s'), ns) := by
    intro s' h' keys keys' ns hns
    have hall : InOrder s (keys'.foldl cancelPaused (keys.foldl cancelLane s'), []) :=
      run_invariant_of_step (I := fun s' => InOrder s (s', []))
        hpaused
        (run_invariant_of_step (I := fun s' => InOrder s (s', []))
          (fun s' key h => h.trans (inOrder_cancelLane s' key)) h' keys) keys'
    exact hall.trans (inOrder_of_eq rfl rfl hns)
  have hacks : ∀ items : List SpeechItem, Silent (items.flatMap (ackSwept .cancelled)) := fun items =>
    (onlyAcks_sweep .cancelled items).silent
  rw [cancel]
  rcases hactive : s.active with _ | lease
  · exact hrest s (inOrder_of_eq rfl rfl silent_nil) _ _ _ (hacks _)
  dsimp only
  split_ifs
  · exact hrest _ (inOrder_interruptActive hactive _ _ _ none silent_nil) _ _ _ (Silent.append ⟨rfl, rfl⟩ (hacks _))
  · exact hrest s (inOrder_of_eq rfl rfl silent_nil) _ _ _ (hacks _)

theorem inOrder_keep (s : SpeechScheduler) (key : String) (p : SpeechItem → Bool) :
    InOrder s ({ s with queues := s.queues.keep key p }, []) :=
  inOrder_of_lanes (fun other => by
    change List.Sublist ((s.queues.keep key p).lane other) _
    rw [Lanes.lane_keep]
    split_ifs with hkey
    · rw [hkey]
      exact List.filter_sublist
    · exact List.Sublist.refl _) rfl silent_nil

end SpeechScheduler

namespace ConnectionPipeline

open SpeechScheduler

variable {cfg : LifecycleConfig}

theorem inOrder_onLifecycleTerminal (p : ConnectionPipeline) (id : ℕ) (identity : GenerationIdentity)
    (disposition : DeliveryDisposition) :
    InOrder p.scheduler ((p.onLifecycleTerminal cfg id identity disposition).1.scheduler,
      (p.onLifecycleTerminal cfg id identity disposition).2) := by
  have hreport : InOrder p.scheduler (p.report cfg identity disposition, []) := by
    rw [report]
    split_ifs
    · exact inOrder_deliver p.scheduler _ _ _
    · exact inOrder_of_eq rfl rfl silent_nil
  rw [onLifecycleTerminal]
  split_ifs
  · exact inOrder_finish p.scheduler (.terminal id) true silent_nil
  · exact hreport.trans (inOrder_startNext _ p.acceptable none (.terminal id))
  · exact hreport.trans (inOrder_finish _ (.terminal id) true silent_nil)

theorem inOrder_react (p : ConnectionPipeline) (effects : List Effect) :
    InOrder p.scheduler ((p.react cfg effects).1.scheduler, (p.react cfg effects).2) := by
  induction effects generalizing p with
  | nil => exact inOrder_of_eq rfl rfl silent_nil
  | cons effect effects ih =>
    rcases effect with _ | _ | ⟨id, token, identity, disposition⟩ <;> rw [react]
    · exact ih p
    · exact ih { p with active := false }
    · exact (inOrder_onLifecycleTerminal p id identity disposition).trans (ih _)

/-- A step of the connection keeps every queue in order. -/
theorem inOrder_step (cfg : LifecycleConfig) (p : ConnectionPipeline) (e : Event) :
    InOrder p.scheduler ((p.step cfg e).1.scheduler, (p.step cfg e).2) := by
  have reported : ∀ s', s'.queues = p.scheduler.queues → s'.nextUtterance = p.scheduler.nextUtterance →
      InOrder p.scheduler (s', []) := fun s' hqueues hnext => inOrder_of_eq hqueues hnext silent_nil
  have hreceive : ∀ sig, InOrder p.scheduler ((p.receive cfg sig).1.scheduler, (p.receive cfg sig).2) := by
    intro sig
    have hmoved := reported { p.scheduler with lifecycle := (p.scheduler.lifecycle.step cfg sig.event).1 } rfl rfl
    exact hmoved.trans (inOrder_react { p with scheduler := { p.scheduler with
      lifecycle := (p.scheduler.lifecycle.step cfg sig.event).1 } } _)
  cases e with
  | enqueue r => exact inOrder_enqueue p.scheduler r
  | startNext key => exact inOrder_startNext p.scheduler p.acceptable key .owner
  | startAck id key => exact inOrder_startNext p.scheduler p.acceptable (some key) (.admission id)
  | speakReturns id => exact inOrder_speakReturns p.scheduler id
  | speakRaises id => exact inOrder_speakRaises p.scheduler id
  | submissionFails id => exact inOrder_submissionFails p.scheduler id
  | runAdvance id => exact inOrder_runAdvance p.scheduler p.acceptable id
  | providerStarted ctx =>
    simp only [step, upon, providerStarted]
    split
    · exact reported _ rfl rfl
    · split_ifs <;> exact reported _ rfl rfl
  | providerSynthesisEnded ctx =>
    simp only [step, upon, providerSynthesisEnded, synthesisEnded]
    split
    · exact reported _ rfl rfl
    · split <;> exact reported _ rfl rfl
  | providerDeliveryCompleted ctx =>
    simp only [step, upon, providerDeliveryCompleted]
    split
    · exact reported _ rfl rfl
    · exact (inOrder_deliver p.scheduler _ _ _).trans (inOrder_of_eq rfl rfl silent_nil)
  | providerDeliveryUnknown ctx =>
    simp only [step, upon, providerDeliveryUnknown]
    split
    · exact reported _ rfl rfl
    · exact (inOrder_deliver p.scheduler _ _ _).trans (inOrder_of_eq rfl rfl silent_nil)
  | synthesisEnded u =>
    simp only [step, upon, synthesisEnded]
    split <;> exact reported _ rfl rfl
  | deliveryCompleted u => exact inOrder_deliver p.scheduler _ _ u
  | deliveryUnknown u => exact inOrder_deliver p.scheduler _ _ u
  | interrupt epoch reconnect fullStop => exact inOrder_interrupt p.scheduler epoch reconnect fullStop
  | pause key => exact inOrder_pause p.scheduler key
  | resume target => exact inOrder_resume p.scheduler target
  | cancel key => exact inOrder_cancel p.scheduler key
  | discardQueuedNotice key =>
    exact (inOrder_keep p.scheduler key _).trans (inOrder_of_eq rfl rfl silent_nil)
  | discardQueuedAck ackId => exact inOrder_keep p.scheduler ackId _
  | deactivate epoch reconnect => exact inOrder_interrupt p.scheduler epoch reconnect true
  | replaced epoch reconnect =>
    have hmoved := reported { p.scheduler with
      state := { p.scheduler.state with activeEpoch := epoch } } rfl rfl
    exact hmoved.trans (inOrder_interrupt _ p.scheduler.state.activeEpoch reconnect true)
  | signal sig =>
    rcases sig with _ | _ | _ | _ | _ | _ | _ | _ | _ | _ | _ | _ | _ | ⟨id, ok⟩
    case dispatchDone =>
      rw [step]
      split_ifs
      · exact inOrder_of_eq rfl rfl silent_nil
      · exact hreceive _
    all_goals exact hreceive _

theorem inOrder_run (cfg : LifecycleConfig) (p : ConnectionPipeline) (es : List Event) :
    InOrder p.scheduler ((run (fun p e => (step cfg p e).1) p es).scheduler, outputs (step cfg) p es) := by
  induction es generalizing p with
  | nil => exact inOrder_of_eq rfl rfl silent_nil
  | cons e es ih => exact (inOrder_step cfg p e).trans (ih _)

/-- **A work item is spoken in the order it was filed.**  Whatever happens on a connection — utterances fail, are paused
and replayed, cancelled, discarded, swept — the utterances of a work item that have been handed to `speak`, followed by
those that are still queued, are a part of those that were filed for it, in the order they were filed; and no utterance
is filed twice, so that none is spoken twice. -/
theorem spoken_in_order (cfg : LifecycleConfig) (epoch : Option ℤ) (es : List Event) :
    (∀ key, List.Sublist
        (noticed Notice.uttered key (notices cfg epoch es) ++ (after cfg epoch es).scheduler.queues.lane key)
        (noticed Notice.filed key (notices cfg epoch es))) ∧
      ((notices cfg epoch es).filterMap Notice.filed).Pairwise (·.utteranceId < ·.utteranceId) ∧
      ((notices cfg epoch es).filterMap Notice.uttered).Nodup := by
  have hrun := inOrder_run cfg (opened epoch) es
  have hlanes : ∀ key, List.Sublist
      (noticed Notice.uttered key (notices cfg epoch es) ++ (after cfg epoch es).scheduler.queues.lane key)
      (noticed Notice.filed key (notices cfg epoch es)) := hrun.lanes
  refine ⟨hlanes, hrun.sorted, List.nodup_iff_count_le_one.mpr fun item => ?_⟩
  -- an item that is spoken twice is spoken twice for its own work item
  have hown : ((notices cfg epoch es).filterMap Notice.uttered).count item
      = (noticed Notice.uttered item.workItemId (notices cfg epoch es)).count item :=
    (List.count_filter (by simp)).symm
  have hfiled : (noticed Notice.filed item.workItemId (notices cfg epoch es)).Nodup :=
    (hrun.sorted.imp fun hlt heq => (ne_of_lt hlt) (congrArg _ heq)).filter _
  have hspoken := (List.sublist_append_left _ _).trans (hlanes item.workItemId)
  rw [hown]
  exact List.nodup_iff_count_le_one.mp (hspoken.nodup hfiled) item

end ConnectionPipeline

end SubagentsLab

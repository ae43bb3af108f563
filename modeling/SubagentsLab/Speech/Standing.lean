import SubagentsLab.Speech.Flow

/-!
# Speech/Standing — what stands under a key

Queues and paused items are filed by key, and the lease has the key of its item.  An item changes its place
only within its key: `start_next` takes it from its queue to the lease, `pause` from the lease to the paused
ones, and `resume` files it anew.  So whatever holds of every item under its key keeps holding of them,
as long as it holds of what is filed (`stands_step`).  A cancellation takes what stands under one key, or
under any (`cancel_some`, `cancel_none`).
-/

namespace SubagentsLab

open Machinery

namespace SpeechScheduler

variable {cfg : LifecycleConfig} {s s' : SpeechScheduler} {P : String → SpeechItem → Prop}

/-- Everything that is queued, leased or paused stands under its key as `P` has it. -/
structure Stands (P : String → SpeechItem → Prop) (s : SpeechScheduler) : Prop where
  queued : ∀ item ∈ s.queues.items, P item.workItemId item
  leased : ∀ lease, s.active = some lease → P lease.item.workItemId lease.item
  paused : ∀ key item, s.paused.get? key = some item → P key item

/-- Items leave, and none comes. -/
theorem Stands.mono (h : Stands P s) (hqueued : ∀ item ∈ s'.queues.items, item ∈ s.queues.items)
    (hleased : ∀ lease, s'.active = some lease → s.active = some lease)
    (hpaused : ∀ key item, s'.paused.get? key = some item → s.paused.get? key = some item) : Stands P s' where
  queued := fun item hi => h.queued item (hqueued item hi)
  leased := fun lease hl => h.leased lease (hleased lease hl)
  paused := fun key item hget => h.paused key item (hpaused key item hget)

theorem Stands.frame (h : Stands P s) (hqueues : s'.queues = s.queues) (hactive : s'.active = s.active)
    (hpaused : s'.paused = s.paused) : Stands P s' :=
  h.mono (fun _ hi => hqueues ▸ hi) (fun _ hl => hactive ▸ hl) fun _ _ hget => hpaused ▸ hget

/-- The lease is given up. -/
theorem Stands.idle (h : Stands P s) (hqueues : s'.queues = s.queues) (hactive : s'.active = none)
    (hpaused : s'.paused = s.paused) : Stands P s' :=
  h.mono (fun _ hi => hqueues ▸ hi) (fun _ hl => by rw [hactive] at hl; cases hl) fun _ _ hget => hpaused ▸ hget

/-- Queued items are dropped. -/
theorem Stands.dequeue (h : Stands P s) {D : List SpeechItem}
    (hitems : (D ++ s'.queues.items).Perm s.queues.items) (hactive : s'.active = s.active)
    (hpaused : s'.paused = s.paused) : Stands P s' :=
  h.mono (fun _ hi => hitems.subset (List.mem_append_right _ hi)) (fun _ hl => hactive ▸ hl)
    fun _ _ hget => hpaused ▸ hget

theorem Stands.finish (h : Stands P s) (caller : Caller) (ok : Bool) : Stands P (s.finish cfg caller ok) := by
  rcases caller with _ | _ | _ | _ <;> exact h.frame rfl rfl rfl

theorem Stands.release (h : Stands P s) (u : UtteranceId) : Stands P (s.release u) := by
  rw [SpeechScheduler.release]
  split
  · exact h
  · split_ifs
    · exact h.idle rfl rfl rfl
    · exact h

theorem Stands.enqueue (h : Stands P s) {r : SpeechRequest}
    (hfiled : ∀ item, (s.enqueue r).2 = some item → P item.workItemId item) : Stands P (s.enqueue r).1 := by
  rcases hitem : r.item? s.nextUtterance with _ | item
  · rw [SpeechScheduler.enqueue, hitem]
    exact h
  · simp only [SpeechScheduler.enqueue, hitem] at hfiled ⊢
    have hnew := hfiled item rfl
    refine ⟨fun x hx => ?_, h.leased, h.paused⟩
    rcases List.mem_cons.mp ((s.queues.items_push_perm item).subset hx) with rfl | hx
    · exact hnew
    · exact h.queued x hx

theorem Stands.startNext (h : Stands P s) (acceptable : Bool) (key : Option String) (caller : Caller) :
    Stands P (s.startNext cfg acceptable key caller).1 := by
  have hstart := startNext_cases cfg s acceptable key caller
  generalize s.startNext cfg acceptable key caller = r at hstart
  rcases hstart with _ | ⟨s', ns, D, hshed, -, -, -⟩ | ⟨s', ns, D, rest, item, hshed, -, -, -, -, -, hlane⟩
  · exact h.finish caller true
  · exact (h.dequeue hshed.items hshed.active (by rw [hshed.frame]; rfl)).finish caller true
  · have hs' : Stands P s' := h.dequeue hshed.items hshed.active (by rw [hshed.frame]; rfl)
    have hitems := s'.queues.items_dropHead_perm hlane
    -- the item goes from its queue to the lease
    refine ⟨fun x hx => hs'.queued x (hitems.subset (List.mem_cons_of_mem _ hx)), fun lease hl => ?_, hs'.paused⟩
    cases hl
    exact hs'.queued item (hitems.subset List.mem_cons_self)

theorem Stands.speakReturns (h : Stands P s) (id : ℕ) : Stands P (s.speakReturns cfg id).1 := by
  rw [SpeechScheduler.speakReturns]
  split
  · exact h
  · rename_i sub _
    split_ifs
    · exact h
    · have hended : Stands P { s with submissions := s.submissions.erase sub } := h.frame rfl rfl rfl
      exact hended.finish sub.caller true

theorem Stands.speakRaises (h : Stands P s) (id : ℕ) : Stands P (s.speakRaises id) := by
  rw [SpeechScheduler.speakRaises]
  split
  · exact h
  · split_ifs
    · exact h
    · exact h.frame rfl rfl rfl

theorem Stands.scheduleQueueAdvance (h : Stands P s) (exclude : String) :
    Stands P (s.scheduleQueueAdvance exclude) := by
  rw [SpeechScheduler.scheduleQueueAdvance]
  split_ifs
  · exact h
  · exact h.frame rfl rfl rfl

theorem Stands.submissionFails (h : Stands P s) (id : ℕ) : Stands P (s.submissionFails cfg id).1 := by
  rw [SpeechScheduler.submissionFails]
  split
  · exact h
  · rename_i sub _
    dsimp only
    split_ifs
    · exact h
    · have hfreed : Stands P { s with
          submissions := s.submissions.erase sub
          lifecycle := s.lifecycle.releaseGeneration cfg sub.lease.token false .deliveryUnknown } :=
        h.frame rfl rfl rfl
      exact ((hfreed.release _).scheduleQueueAdvance _).finish sub.caller false

theorem Stands.runAdvance (h : Stands P s) (acceptable : Bool) (id : ℕ) :
    Stands P (s.runAdvance cfg acceptable id).1 := by
  rw [SpeechScheduler.runAdvance]
  split
  · exact h
  · rename_i task _
    have hdone : Stands P { s with advances := s.advances.erase task } := h.frame rfl rfl rfl
    dsimp only
    split
    · exact hdone
    · exact hdone.startNext acceptable _ .advance

theorem Stands.deliver (h : Stands P s) (d : DeliveryState) (disposition : DeliveryDisposition)
    (u : UtteranceId) : Stands P (s.deliver cfg d disposition u) := by
  rcases hl : s.activeLease u with _ | lease
  · rw [SpeechScheduler.deliver, hl]
    exact h
  · obtain ⟨hactive, rfl⟩ := activeLease_eq_some.mp hl
    rw [deliver_of_active hactive]
    exact h.idle rfl rfl rfl

theorem Stands.interruptActive (h : Stands P s) {lease : UtteranceLease} (hactive : s.active = some lease)
    (d : DeliveryState) (pause stale : Bool) (epoch : Option ℤ) :
    Stands P (s.interruptActive cfg lease d pause stale epoch) := by
  rw [interruptActive_of_active hactive]
  exact h.idle rfl rfl rfl

theorem Stands.sweep (h : Stands P s) (d : DeliveryState) (epoch : Option ℤ) : Stands P (s.sweep d epoch).1 where
  queued := fun _ hi => absurd hi List.not_mem_nil
  leased := h.leased
  paused := fun _ _ hget => nomatch hget

theorem Stands.interrupt (h : Stands P s) (epoch : Option ℤ) (reconnect fullStop : Bool) :
    Stands P (s.interrupt cfg epoch reconnect fullStop).1 := by
  rcases hactive : s.active with _ | lease <;> rcases hdiscarding : (reconnect || fullStop) with _ | _ <;>
    simp only [SpeechScheduler.interrupt, hactive, hdiscarding, Bool.false_eq_true, if_false, if_true]
  · exact h
  · exact h.sweep _ epoch
  · exact h.interruptActive hactive _ _ _ epoch
  · exact (h.interruptActive hactive _ _ _ epoch).sweep _ epoch

theorem Stands.pause (h : Stands P s) (key : String) : Stands P (s.pause cfg key).1 := by
  rcases pause_cases cfg s key with heq | ⟨lease, hactive, hkey, heq⟩
  · rw [heq]
    exact h
  · rw [heq]
    refine ⟨h.queued, nofun, fun key' item hget => ?_⟩
    change (s.paused.set key lease.item).get? key' = some item at hget
    rw [Dict.get?_set] at hget
    split_ifs at hget with hk
    · -- the lease becomes the paused item of its key
      cases hget
      rw [hk, ← hkey]
      exact h.leased lease hactive
    · exact h.paused key' item hget

theorem Stands.unpause (h : Stands P s) (item : SpeechItem) : Stands P (s.unpause item) := by
  rw [SpeechScheduler.unpause]
  split_ifs
  · exact h.mono (fun _ hi => hi) (fun _ hl => hl) fun _ _ hget => get?_of_pop hget
  · exact h

/-- An item is filed anew. -/
theorem Stands.replay (h : Stands P s) {item : SpeechItem}
    (hfiled : ∀ x, .enqueued x ∈ (match s.enqueue item.replay with
      | (s', none) => (s', [])
      | (s', some replay) => (s'.emitProgress replay .resumed, [Notice.enqueued replay])).2 → P x.workItemId x) :
    Stands P (match s.enqueue item.replay with
      | (s', none) => (s', [])
      | (s', some replay) => (s'.emitProgress replay .resumed, [Notice.enqueued replay])).1 := by
  have hqueued := h.enqueue (r := item.replay)
  generalize s.enqueue item.replay = r at hqueued hfiled ⊢
  obtain ⟨s', _ | replay⟩ := r
  · exact hqueued fun _ hnone => absurd hnone nofun
  · have hs' : Stands P s' := hqueued fun x hx => hfiled x (by
      cases hx
      exact List.mem_singleton_self _)
    exact hs'.frame rfl rfl rfl

theorem Stands.resume (h : Stands P s) {target : Target}
    (hfiled : ∀ item, .enqueued item ∈ (s.resume target).2 → P item.workItemId item) :
    Stands P (s.resume target).1 := by
  rw [SpeechScheduler.resume] at hfiled ⊢
  split
  · exact h
  rename_i item hitem
  rw [hitem] at hfiled
  dsimp only at hfiled ⊢
  split_ifs at hfiled ⊢ with hack hpaused
  · exact h.unpause item
  · have hs' : Stands P ((s.unpause item).emitProgress item .interrupted) := (h.unpause item).frame rfl rfl rfl
    exact hs'.replay hfiled
  · exact (h.unpause item).replay hfiled

theorem Stands.cancelLane (h : Stands P s) (key : String) : Stands P (s.cancelLane key) :=
  h.dequeue (List.perm_append_comm.trans (s.queues.items_pop_perm key)) rfl rfl

theorem Stands.cancelPaused (h : Stands P s) (key : String) : Stands P (s.cancelPaused key) :=
  h.mono (fun _ hi => hi) (fun _ hl => hl) fun _ _ hget => get?_of_pop hget

theorem Stands.cancel (h : Stands P s) (key : Option String) : Stands P (s.cancel cfg key).1 := by
  have hrest : ∀ s' : SpeechScheduler, Stands P s' → ∀ keys keys' : List String,
      Stands P (keys'.foldl SpeechScheduler.cancelPaused (keys.foldl SpeechScheduler.cancelLane s')) :=
    fun s' hs' keys keys' => run_invariant_of_step (I := Stands P) (fun _ key h => h.cancelPaused key)
      (run_invariant_of_step (I := Stands P) (fun _ key h => h.cancelLane key) hs' keys) keys'
  rw [SpeechScheduler.cancel]
  rcases hactive : s.active with _ | lease
  · exact hrest s h _ _
  · dsimp only
    split_ifs
    · exact hrest _ (h.interruptActive hactive _ _ _ none) _ _
    · exact hrest s h _ _

theorem Stands.keep (h : Stands P s) (key : String) (p : SpeechItem → Bool) :
    Stands P { s with queues := s.queues.keep key p } :=
  h.dequeue (List.perm_append_comm.trans (s.queues.items_keep_perm key p)) rfl rfl

/-! ## What a cancellation takes -/

/-- **Cancelling one key** takes what stands under it, and nothing else. -/
theorem cancel_some (cfg : LifecycleConfig) (s : SpeechScheduler) (key : String) :
    (s.cancel cfg (some key)).1.queues = s.queues.pop key ∧
      (s.cancel cfg (some key)).1.paused = s.paused.pop key ∧
      (s.cancel cfg (some key)).1.active = s.active.filter fun lease => lease.item.workItemId ≠ key := by
  rw [cancel]
  rcases hactive : s.active with _ | lease
  · exact ⟨rfl, rfl, hactive⟩
  · by_cases hkey : key = lease.item.workItemId
    · simp only [Option.all_some, hkey, decide_true, if_true, interruptActive_of_active hactive]
      exact ⟨rfl, rfl, by simp [Option.filter, cancelLane, cancelPaused, emitAll]⟩
    · have hkey' : lease.item.workItemId ≠ key := Ne.symm hkey
      simp only [Option.all_some, hkey, decide_false, Bool.false_eq_true, if_false]
      exact ⟨rfl, rfl, by simp [Option.filter, hkey', cancelLane, cancelPaused, emitAll, hactive]⟩

theorem lane_foldl_cancelLane (keys : List String) (s : SpeechScheduler) (key : String) :
    (keys.foldl cancelLane s).queues.lane key = if key ∈ keys then [] else s.queues.lane key := by
  induction keys generalizing s with
  | nil => simp
  | cons k keys ih =>
    rw [List.foldl_cons, ih]
    change (if key ∈ keys then [] else (s.queues.pop k).lane key) = _
    rw [Lanes.lane_pop]
    by_cases hk : key = k <;> simp [hk]

theorem foldl_cancelLane_frame (keys : List String) (s : SpeechScheduler) :
    (keys.foldl cancelLane s).active = s.active ∧ (keys.foldl cancelLane s).paused = s.paused := by
  induction keys generalizing s with
  | nil => exact ⟨rfl, rfl⟩
  | cons k keys ih => exact ih (s.cancelLane k)

theorem foldl_cancelPaused_frame (keys : List String) (s : SpeechScheduler) :
    (keys.foldl cancelPaused s).active = s.active ∧ (keys.foldl cancelPaused s).queues = s.queues ∧
      (keys.foldl cancelPaused s).paused = keys.foldl Dict.pop s.paused := by
  induction keys generalizing s with
  | nil => exact ⟨rfl, rfl, rfl⟩
  | cons k keys ih => exact ih (s.cancelPaused k)

/-- **Cancelling all** leaves nothing under any key. -/
theorem cancel_none (cfg : LifecycleConfig) (s : SpeechScheduler) (key : String) :
    (s.cancel cfg none).1.queues.lane key = [] ∧ (s.cancel cfg none).1.paused.get? key = none ∧
      (s.cancel cfg none).1.active = none := by
  have hrest : ∀ s' : SpeechScheduler, s'.active = none → 
      ∀ keys', keys' = (s'.queues.keys.foldl cancelLane s').paused.keys →
      (keys'.foldl cancelPaused (s'.queues.keys.foldl cancelLane s')).queues.lane key = [] ∧
        (keys'.foldl cancelPaused (s'.queues.keys.foldl cancelLane s')).paused.get? key = none ∧
        (keys'.foldl cancelPaused (s'.queues.keys.foldl cancelLane s')).active = none := by
    rintro s' hidle keys' rfl
    obtain ⟨hactive, hpaused⟩ := foldl_cancelLane_frame s'.queues.keys s'
    obtain ⟨hactive', hqueues', hpaused'⟩ :=
      foldl_cancelPaused_frame (s'.queues.keys.foldl cancelLane s').paused.keys (s'.queues.keys.foldl cancelLane s')
    refine ⟨?_, ?_, ?_⟩
    · rw [hqueues', lane_foldl_cancelLane]
      split_ifs with hmem
      · rfl
      · exact not_not.mp fun hlane => hmem (Lanes.mem_keys.mpr hlane)
    · rw [hpaused', Dict.get?_foldl_pop]
      split_ifs with hmem
      · rfl
      · exact Option.not_isSome_iff_eq_none.mp fun hsome => hmem (Dict.mem_keys.mpr hsome)
    · rw [hactive', hactive, hidle]
  rw [cancel]
  rcases hactive : s.active with _ | lease
  · exact hrest s hactive _ rfl
  · simp only [Option.all_none, if_true, interruptActive_of_active hactive]
    exact hrest _ rfl _ rfl

/-- **What a cancellation tells**: a stop of the lease, and the acknowledgements it sweeps. -/
theorem cancel_tells (cfg : LifecycleConfig) (s : SpeechScheduler) (key : Option String) :
    ∃ (stops : List Notice) (swept : List SpeechItem), (s.cancel cfg key).2 = stops ++ swept.flatMap (ackSwept .cancelled) ∧
      (∀ n ∈ stops, ∃ item, n = Notice.stop item) ∧
      ∀ k, key = some k → ∀ item ∈ swept, item ∈ s.queues.lane k ∨ s.paused.get? k = some item := by
  have hunder : ∀ s' : SpeechScheduler, s'.queues = s.queues → s'.paused = s.paused → ∀ keys k, key = some k →
      ∀ item ∈ (key.elim s'.queues.keys fun key => [key]).flatMap s'.queues.lane ++
        (key.elim keys fun key => [key]).flatMap (fun key => (s'.paused.get? key).toList),
      item ∈ s.queues.lane k ∨ s.paused.get? k = some item := by
    rintro s' hqueues hpaused keys k rfl item hi
    rw [hqueues, hpaused] at hi
    simpa using hi
  rw [cancel]
  rcases hactive : s.active with _ | lease
  · exact ⟨[], _, rfl, fun _ hn => absurd hn List.not_mem_nil, hunder s rfl rfl _⟩
  · by_cases hkey : key.all (· = lease.item.workItemId) = true
    · simp only [if_pos hkey, interruptActive_of_active hactive]
      exact ⟨_, _, rfl, fun n hn => ⟨_, List.mem_singleton.mp hn⟩, hunder _ rfl rfl _⟩
    · simp only [if_neg hkey]
      exact ⟨[], _, rfl, fun _ hn => absurd hn List.not_mem_nil, hunder s rfl rfl _⟩

end SpeechScheduler

namespace ConnectionPipeline

open SpeechScheduler

variable {cfg : LifecycleConfig} {p : ConnectionPipeline} {P : String → SpeechItem → Prop}

theorem stands_onLifecycleTerminal (h : Stands P p.scheduler) (id : ℕ) (identity : GenerationIdentity)
    (disposition : DeliveryDisposition) :
    Stands P (p.onLifecycleTerminal cfg id identity disposition).1.scheduler := by
  have hreport : Stands P (p.report cfg identity disposition) := by
    rw [report]
    split_ifs
    · exact h.deliver _ _ _
    · exact h
  rw [onLifecycleTerminal]
  split_ifs
  · exact h.finish (.terminal id) true
  · exact hreport.startNext p.acceptable none (.terminal id)
  · exact hreport.finish (.terminal id) true

theorem stands_react (h : Stands P p.scheduler) (effects : List Effect) :
    Stands P (p.react cfg effects).1.scheduler := by
  induction effects generalizing p with
  | nil => exact h
  | cons effect effects ih =>
    rcases effect with _ | _ | ⟨id, token, identity, disposition⟩ <;> rw [react]
    · exact ih h
    · exact ih (p := { p with active := false }) h
    · exact ih (stands_onLifecycleTerminal h id identity disposition)

theorem stands_receive (h : Stands P p.scheduler) (sig : Signal) :
    Stands P (p.receive cfg sig).1.scheduler :=
  stands_react (p := { p with scheduler := { p.scheduler with
    lifecycle := (p.scheduler.lifecycle.step cfg sig.event).1 } }) (h.frame rfl rfl rfl) _

/-- **What holds of every item under its key, a step keeps**, if it holds of what the step files. -/
theorem stands_step (cfg : LifecycleConfig) (h : Stands P p.scheduler) {e : Event}
    (hfiled : ∀ item, .enqueued item ∈ (p.step cfg e).2 → P item.workItemId item) :
    Stands P (p.step cfg e).1.scheduler := by
  cases e with
  | enqueue r =>
    refine h.enqueue fun item hitem => hfiled item ?_
    change Notice.enqueued item ∈ ((p.scheduler.enqueue r).2.map Notice.enqueued).toList
    rw [hitem]
    exact List.mem_singleton_self _
  | startNext key => exact h.startNext p.acceptable key .owner
  | startAck id key => exact h.startNext p.acceptable (some key) (.admission id)
  | speakReturns id => exact h.speakReturns id
  | speakRaises id => exact h.speakRaises id
  | submissionFails id => exact h.submissionFails id
  | runAdvance id => exact h.runAdvance p.acceptable id
  | providerStarted ctx =>
    simp only [step, upon, providerStarted]
    split
    · exact h
    · split_ifs
      · exact h
      · exact h.frame rfl rfl rfl
  | providerSynthesisEnded ctx =>
    simp only [step, upon, providerSynthesisEnded, synthesisEnded]
    split
    · exact h
    · split
      · exact h
      · exact h.frame rfl rfl rfl
  | providerDeliveryCompleted ctx =>
    simp only [step, upon, providerDeliveryCompleted]
    split
    · exact h
    · exact (h.deliver _ _ _).frame rfl rfl rfl
  | providerDeliveryUnknown ctx =>
    simp only [step, upon, providerDeliveryUnknown]
    split
    · exact h
    · exact (h.deliver _ _ _).frame rfl rfl rfl
  | synthesisEnded u =>
    simp only [step, upon, synthesisEnded]
    split
    · exact h
    · exact h.frame rfl rfl rfl
  | deliveryCompleted u => exact h.deliver _ _ u
  | deliveryUnknown u => exact h.deliver _ _ u
  | interrupt epoch reconnect fullStop => exact h.interrupt epoch reconnect fullStop
  | pause key => exact h.pause key
  | resume target => exact h.resume hfiled
  | cancel key => exact h.cancel key
  | discardQueuedNotice key => exact (h.keep key _).frame rfl rfl rfl
  | discardQueuedAck ackId => exact h.keep ackId _
  | deactivate epoch reconnect => exact h.interrupt epoch reconnect true
  | replaced epoch reconnect =>
    have hmoved : Stands P { p.scheduler with state := { p.scheduler.state with activeEpoch := epoch } } :=
      h.frame rfl rfl rfl
    exact hmoved.interrupt p.scheduler.state.activeEpoch reconnect true
  | signal sig =>
    rcases sig with _ | _ | _ | _ | _ | _ | _ | _ | _ | _ | _ | _ | _ | ⟨id, ok⟩
    case dispatchDone =>
      rw [step]
      split_ifs
      · exact h
      · exact stands_receive h _
    all_goals exact stands_receive h _

end ConnectionPipeline

end SubagentsLab

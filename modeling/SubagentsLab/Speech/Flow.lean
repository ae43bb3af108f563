import SubagentsLab.Speech.Kept
import SubagentsLab.Speech.Lease

/-!
# Speech/Flow — an item is spoken or fails at most once

An item is **afloat** while it is queued or its submission is under way.  A step of the connection sets
items afloat only by filing them, and an item that is handed to `speak` for good (`start_next` returns
it) or fails (`start_next` raises) is afloat no longer; it passes from its queue to its submission in the
step that hands it to `speak` (`flow_step`).
-/

namespace SubagentsLab

open Machinery

/-- The item a `start_next` call ends with: it is returned, or its submission raises. -/
def Notice.ended : Notice → Option SpeechItem
  | .returned _ item => item
  | .raised _ item => some item
  | _ => none

/-- The `start_next` call that is over. -/
def Notice.answered : Notice → Option Caller
  | .returned caller _ => some caller
  | .raised caller _ => some caller
  | _ => none

/-- The item that is filed. -/
def Notice.filed : Notice → Option SpeechItem
  | .enqueued item => some item
  | _ => none

/-- The item that is handed to `speak`. -/
def Notice.uttered : Notice → Option SpeechItem
  | .speak item => some item
  | _ => none

/-- The turn whose acknowledgement is swept. -/
def Notice.sweptTurn : Notice → Option String
  | .ackTerminal identity _ => identity.turnId
  | _ => none

namespace SpeechScheduler

variable {cfg : LifecycleConfig} {s s' : SpeechScheduler} {ns : List Notice}

/-- What is being submitted. -/
def submitting (s : SpeechScheduler) : List SpeechItem := s.submissions.map (·.lease.item)

/-- What is queued or being submitted. -/
def afloat (s : SpeechScheduler) : List SpeechItem := s.queues.items ++ s.submitting

theorem countP_submitting_le (s : SpeechScheduler) (q : SpeechItem → Bool) :
    s.submitting.countP q ≤ s.afloat.countP q := by
  rw [afloat, List.countP_append]
  exact Nat.le_add_left _ _

/-- **What is set afloat is filed, and what is submitted is handed to `speak`**, however items are told
apart. -/
structure Flow (s : SpeechScheduler) (r : SpeechScheduler × List Notice) : Prop where
  afloat : ∀ q : SpeechItem → Bool, r.1.afloat.countP q + (r.2.filterMap Notice.ended).countP q
    ≤ s.afloat.countP q + (r.2.filterMap Notice.filed).countP q
  submitting : ∀ q : SpeechItem → Bool, r.1.submitting.countP q + (r.2.filterMap Notice.ended).countP q
    ≤ s.submitting.countP q + (r.2.filterMap Notice.uttered).countP q

/-- Neither notice counts. -/
def Still (ns : List Notice) : Prop :=
  ns.filterMap Notice.ended = [] ∧ ns.filterMap Notice.filed = []

theorem still_nil : Still [] := ⟨rfl, rfl⟩

theorem Still.append {ns' : List Notice} (h : Still ns) (h' : Still ns') : Still (ns ++ ns') := by
  rw [Still, List.filterMap_append, List.filterMap_append, h.1, h.2, h'.1, h'.2]
  exact ⟨rfl, rfl⟩

theorem still_ackSwept (reason : PreAdmissionTerminalReason) (items : List SpeechItem) :
    Still (items.flatMap (ackSwept reason)) := by
  induction items with
  | nil => exact still_nil
  | cons item items ih =>
    rw [List.flatMap_cons]
    refine Still.append ?_ ih
    rw [ackSwept]
    split_ifs <;> exact ⟨rfl, rfl⟩

theorem OnlyAcks.still (h : OnlyAcks ns) : Still ns := by
  refine ⟨List.filterMap_eq_nil_iff.mpr fun n hn => ?_, List.filterMap_eq_nil_iff.mpr fun n hn => ?_⟩
  all_goals
    obtain ⟨identity, reason, rfl⟩ := h n hn
    rfl

/-- What follows keeps to it as well. -/
theorem Flow.trans {ns' : List Notice} {s'' : SpeechScheduler} (h : Flow s (s', ns))
    (h' : Flow s' (s'', ns')) : Flow s (s'', ns ++ ns') := by
  refine ⟨fun q => ?_, fun q => ?_⟩
  · have hq := h.afloat q
    have hq' := h'.afloat q
    simp only [List.filterMap_append, List.countP_append] at hq hq' ⊢
    omega
  · have hq := h.submitting q
    have hq' := h'.submitting q
    simp only [List.filterMap_append, List.countP_append] at hq hq' ⊢
    omega

theorem Flow.mem (h : Flow s (s', ns)) {item : SpeechItem} (hi : item ∈ s'.afloat) :
    item ∈ s.afloat ∨ item ∈ ns.filterMap Notice.filed := by
  have hcount := h.afloat fun x => decide (x = item)
  have hpos : 0 < s'.afloat.countP fun x => decide (x = item) :=
    List.countP_pos_iff.mpr ⟨item, hi, by simp⟩
  by_contra hno
  push Not at hno
  have hzero : ∀ l : List SpeechItem, item ∉ l → l.countP (fun x => decide (x = item)) = 0 := by
    intro l hl
    rw [List.countP_eq_zero]
    rintro x hx heq
    exact hl (of_decide_eq_true heq ▸ hx)
  rw [hzero _ hno.1, hzero _ hno.2] at hcount
  dsimp only at hcount
  omega

/-- Nothing is set afloat, and nothing submitted. -/
theorem flow_of_le (h : ∀ q, s'.afloat.countP q ≤ s.afloat.countP q) (hsubs : s'.submitting = s.submitting)
    (hns : Still ns) : Flow s (s', ns) := by
  refine ⟨fun q => ?_, fun q => ?_⟩
  · rw [hns.1, hns.2]
    exact h q
  · rw [hns.1, hsubs]
    exact Nat.le_add_right _ _

theorem flow_of_eq (hqueues : s'.queues = s.queues) (hsubs : s'.submissions = s.submissions)
    (hns : Still ns) : Flow s (s', ns) := by
  have hsubmitting : s'.submitting = s.submitting := by rw [submitting, submitting, hsubs]
  exact flow_of_le (fun q => by rw [SpeechScheduler.afloat, SpeechScheduler.afloat, hqueues, hsubmitting])
    hsubmitting hns

/-- Queued items are dropped. -/
theorem flow_of_perm {D : List SpeechItem} (hitems : (D ++ s'.queues.items).Perm s.queues.items)
    (hsubs : s'.submissions = s.submissions) (hns : Still ns) : Flow s (s', ns) := by
  have hsubmitting : s'.submitting = s.submitting := by rw [submitting, submitting, hsubs]
  refine flow_of_le (fun q => ?_) hsubmitting hns
  have hcount := hitems.countP_eq q
  rw [List.countP_append] at hcount
  rw [SpeechScheduler.afloat, SpeechScheduler.afloat, hsubmitting, List.countP_append, List.countP_append]
  omega

theorem flow_finish (s : SpeechScheduler) (caller : Caller) (ok : Bool) (hns : Still ns) :
    Flow s (s.finish cfg caller ok, ns) := by
  rcases caller with _ | _ | _ | _ <;> exact flow_of_eq rfl rfl hns

theorem flow_enqueue (s : SpeechScheduler) (r : SpeechRequest) :
    Flow s ((s.enqueue r).1, ((s.enqueue r).2.map Notice.enqueued).toList) := by
  rcases hitem : r.item? s.nextUtterance with _ | item
  · simp only [enqueue, hitem]
    exact flow_of_eq rfl rfl still_nil
  · simp only [enqueue, hitem]
    refine ⟨fun q => ?_, fun q => Nat.le_refl _⟩
    have hcount := (s.queues.items_push_perm item).countP_eq q
    change ((s.queues.push item).items ++ s.submitting).countP q + 0 ≤ s.afloat.countP q + [item].countP q
    rw [List.countP_append, hcount, SpeechScheduler.afloat, List.countP_append, List.countP_cons,
      List.countP_singleton]
    omega

/-- **What is told of was afloat**, and is no longer. -/
structure Sweeping (s : SpeechScheduler) (r : SpeechScheduler × List Notice) : Prop extends Flow s r where
  swept : ∀ identity reason, .ackTerminal identity reason ∈ r.2 → ∃ item : SpeechItem,
    item.identity = identity ∧ item.isAck = true ∧ ∀ q : SpeechItem → Bool, q item = true →
      r.1.afloat.countP q + (r.2.filterMap Notice.ended).countP q + 1
        ≤ s.afloat.countP q + (r.2.filterMap Notice.filed).countP q

/-- Nothing is told of. -/
theorem Flow.sweeping (h : Flow s (s', ns)) (hns : ∀ identity reason, .ackTerminal identity reason ∉ ns) :
    Sweeping s (s', ns) :=
  ⟨h, fun identity reason hn => absurd hn (hns identity reason)⟩

theorem Flow.sweeping_nil (h : Flow s (s', [])) : Sweeping s (s', []) := h.sweeping fun _ _ => List.not_mem_nil

theorem Sweeping.trans {ns' : List Notice} {s'' : SpeechScheduler} (h : Sweeping s (s', ns))
    (h' : Sweeping s' (s'', ns')) : Sweeping s (s'', ns ++ ns') := by
  refine ⟨h.toFlow.trans h'.toFlow, fun identity reason hn => ?_⟩
  rcases List.mem_append.mp hn with hn | hn
  · obtain ⟨item, hidentity, hack, hswept⟩ := h.swept identity reason hn
    refine ⟨item, hidentity, hack, fun q hq => ?_⟩
    have hfirst := hswept q hq
    have hthen := h'.afloat q
    simp only [List.filterMap_append, List.countP_append] at hfirst hthen ⊢
    omega
  · obtain ⟨item, hidentity, hack, hswept⟩ := h'.swept identity reason hn
    refine ⟨item, hidentity, hack, fun q hq => ?_⟩
    have hfirst := h.afloat q
    have hthen := hswept q hq
    simp only [List.filterMap_append, List.countP_append] at hfirst hthen ⊢
    omega

/-- The loop tells of what it sheds. -/
theorem Sheds.sweeping {D : List SpeechItem} (h : Sheds s s' D) (hns : TellsOf D ns) : Sweeping s (s', ns) := by
  have hflow : Flow s (s', ns) := flow_of_perm h.items (by rw [h.frame]; rfl) hns.onlyAcks.still
  refine ⟨hflow, fun identity reason hn => ?_⟩
  obtain ⟨item, hitem, reason', hswept⟩ := hns _ hn
  rw [ackSwept] at hswept
  split_ifs at hswept with hack
  · obtain ⟨rfl, rfl⟩ : identity = item.identity ∧ reason = reason' := by simpa using hswept
    refine ⟨item, rfl, hack, fun q hq => ?_⟩
    have hcount := h.items.countP_eq q
    have hpos : 0 < D.countP q := List.countP_pos_iff.mpr ⟨item, hitem, hq⟩
    have hsubs : s'.submitting = s.submitting := by rw [SpeechScheduler.submitting, SpeechScheduler.submitting, h.submissions]
    rw [hns.onlyAcks.still.1, hns.onlyAcks.still.2]
    rw [List.countP_append] at hcount
    simp only [SpeechScheduler.afloat, hsubs, List.countP_append, List.countP_nil]
    omega
  · exact absurd hswept List.not_mem_nil

theorem sweeping_startNext (s : SpeechScheduler) (acceptable : Bool) (key : Option String) (caller : Caller) :
    Sweeping s (s.startNext cfg acceptable key caller) := by
  have hstart := startNext_cases cfg s acceptable key caller
  generalize s.startNext cfg acceptable key caller = r at hstart
  have hover : ∀ s', Sweeping s' (s'.finish cfg caller true, [.returned caller none]) := fun s' =>
    (flow_finish s' caller true ⟨rfl, rfl⟩).sweeping fun _ _ hn => by simp at hn
  rcases hstart with _ | ⟨s', ns, D, hshed, hns, -, -⟩ | ⟨s', ns, D, rest, item, hshed, hns, -, -, -, -, hlane⟩
  · exact hover s
  · exact (hshed.sweeping hns).trans (hover s')
  · refine (hshed.sweeping hns).trans (Flow.sweeping ⟨fun q => ?_, fun q => ?_⟩ fun _ _ hn => by simp at hn)
    -- The item passes from its queue to its submission.
    · have hcount := (s'.queues.items_dropHead_perm hlane).countP_eq q
      rw [List.countP_cons] at hcount
      simp only [SpeechScheduler.afloat, SpeechScheduler.submitting, submit, emitProgress, List.map_append,
        List.countP_append, List.map_cons, List.map_nil, List.countP_singleton, List.filterMap_cons,
        List.filterMap_nil, Notice.ended, Notice.filed, List.countP_nil]
      omega
    · simp only [SpeechScheduler.submitting, submit, emitProgress, List.map_append, List.countP_append,
        List.map_cons, List.map_nil, List.filterMap_cons, List.filterMap_nil, Notice.ended, Notice.uttered,
        List.countP_nil]
      exact le_refl _

/-- A submission ends, with its item. -/
theorem flow_of_end {sub : Submission} {n : Notice} (h : sub ∈ s.submissions)
    (hqueues : s'.queues = s.queues) (hsubs : s'.submissions = s.submissions.erase sub)
    (hended : n.ended = some sub.lease.item) (hfiled : n.filed = none) (huttered : n.uttered = none) :
    Flow s (s', [n]) := by
  have hcount := fun q => ((List.perm_cons_erase h).map (·.lease.item)).countP_eq q
  simp only [List.map_cons, List.countP_cons] at hcount
  refine ⟨fun q => ?_, fun q => ?_⟩
  all_goals
    have hq := hcount q
    simp only [SpeechScheduler.afloat, SpeechScheduler.submitting, hqueues, hsubs, List.countP_append,
      List.filterMap_cons, hended, hfiled, huttered, List.filterMap_nil, List.countP_singleton, List.countP_nil]
    omega

theorem finish_fields (cfg : LifecycleConfig) (s : SpeechScheduler) (caller : Caller) (ok : Bool) :
    (s.finish cfg caller ok).queues = s.queues ∧ (s.finish cfg caller ok).submissions = s.submissions := by
  rcases caller with _ | _ | _ | _ <;> exact ⟨rfl, rfl⟩

theorem flow_speakReturns (s : SpeechScheduler) (id : ℕ) : Flow s (s.speakReturns cfg id) := by
  rw [speakReturns]
  split
  · exact flow_of_eq rfl rfl still_nil
  · rename_i sub hsub
    split_ifs
    · exact flow_of_eq rfl rfl still_nil
    · obtain ⟨hqueues, hsubs⟩ :=
        finish_fields cfg { s with submissions := s.submissions.erase sub } sub.caller true
      exact flow_of_end (submission?_mem hsub).1 hqueues hsubs rfl rfl rfl

theorem flow_speakRaises (s : SpeechScheduler) (id : ℕ) : Flow s (s.speakRaises id, []) := by
  rw [speakRaises]
  split
  · exact flow_of_eq rfl rfl still_nil
  · rename_i sub hsub
    split_ifs
    · exact flow_of_eq rfl rfl still_nil
    · have hitems : (s.markFailing sub s.lifecycle.nextTransition).map (·.lease.item) = s.submitting := by
        rw [markFailing, List.map_map]
        refine List.map_congr_left fun t _ => ?_
        dsimp only [Function.comp]
        split_ifs <;> rfl
      refine flow_of_le (fun q => le_of_eq ?_) hitems still_nil
      change (s.queues.items ++ (s.markFailing sub s.lifecycle.nextTransition).map (·.lease.item)).countP q
        = s.afloat.countP q
      rw [hitems, SpeechScheduler.afloat]

theorem flow_submissionFails (s : SpeechScheduler) (id : ℕ) : Flow s (s.submissionFails cfg id) := by
  rw [submissionFails]
  split
  · exact flow_of_eq rfl rfl still_nil
  · rename_i sub hsub
    dsimp only
    split_ifs
    · exact flow_of_eq rfl rfl still_nil
    · rw [release_update]
      obtain ⟨hqueues, hsubs⟩ := finish_fields cfg
        (scheduleQueueAdvance { s.release sub.lease.item.utteranceId with
          submissions := s.submissions.erase sub
          lifecycle := s.lifecycle.releaseGeneration cfg sub.lease.token false .deliveryUnknown }
          sub.lease.item.workItemId) sub.caller false
      have hrelease : (s.release sub.lease.item.utteranceId).queues = s.queues := by
        rw [release]
        split
        · rfl
        · split_ifs <;> rfl
      refine flow_of_end (submission?_mem hsub).1 (hqueues.trans ?_) (hsubs.trans ?_) rfl rfl rfl
      all_goals
        rw [scheduleQueueAdvance]
        split_ifs
      · exact hrelease
      · exact hrelease
      · rfl
      · rfl

theorem sweeping_runAdvance (s : SpeechScheduler) (acceptable : Bool) (id : ℕ) :
    Sweeping s (s.runAdvance cfg acceptable id) := by
  rw [runAdvance]
  split
  · exact (flow_of_eq rfl rfl still_nil).sweeping_nil
  · rename_i task _
    have hdone : Sweeping s ({ s with advances := s.advances.erase task }, []) :=
      Flow.sweeping_nil (flow_of_eq rfl rfl still_nil)
    dsimp only
    split
    · exact hdone
    · exact hdone.trans (sweeping_startNext _ acceptable _ .advance)

theorem flow_deliver (s : SpeechScheduler) (d : DeliveryState) (disposition : DeliveryDisposition)
    (u : UtteranceId) : Flow s (s.deliver cfg d disposition u, []) := by
  rcases hl : s.activeLease u with _ | lease
  · rw [deliver, hl]
    exact flow_of_eq rfl rfl still_nil
  · obtain ⟨hactive, rfl⟩ := activeLease_eq_some.mp hl
    rw [deliver_of_active hactive]
    exact flow_of_eq rfl rfl still_nil

theorem flow_interruptActive {lease : UtteranceLease} (hactive : s.active = some lease) (d : DeliveryState)
    (pause stale : Bool) (epoch : Option ℤ) (hns : Still ns) :
    Flow s (s.interruptActive cfg lease d pause stale epoch, ns) := by
  rw [interruptActive_of_active hactive]
  exact flow_of_eq rfl rfl hns

theorem flow_sweep (s : SpeechScheduler) (d : DeliveryState) (epoch : Option ℤ) :
    Flow s (s.sweep d epoch) := by
  refine flow_of_perm (D := s.queues.items) ?_ rfl (still_ackSwept .connectionClosed _)
  change (s.queues.items ++ (∅ : Lanes SpeechItem.workItemId).items).Perm s.queues.items
  rw [Lanes.items_empty, List.append_nil]

theorem flow_interrupt (s : SpeechScheduler) (epoch : Option ℤ) (reconnect fullStop : Bool) :
    Flow s (s.interrupt cfg epoch reconnect fullStop) := by
  rcases hactive : s.active with _ | lease <;> rcases hdiscarding : (reconnect || fullStop) with _ | _ <;>
    simp only [interrupt, hactive, hdiscarding, Bool.false_eq_true, if_false, if_true]
  · exact flow_of_eq rfl rfl still_nil
  · exact flow_sweep s _ epoch
  · exact flow_interruptActive hactive _ _ _ epoch ⟨rfl, rfl⟩
  · exact (flow_interruptActive hactive _ _ _ epoch ⟨rfl, rfl⟩).trans (flow_sweep _ _ epoch)

theorem flow_pause (s : SpeechScheduler) (key : String) : Flow s (s.pause cfg key) := by
  rcases pause_cases cfg s key with heq | ⟨lease, -, -, heq⟩ <;> rw [heq] <;>
    exact flow_of_eq rfl rfl ⟨rfl, rfl⟩

theorem flow_enqueueReplay (s : SpeechScheduler) (item : SpeechItem) : Flow s (s.enqueueReplay item) := by
  have h := flow_enqueue s item.replay
  rw [enqueueReplay]
  rcases heq : s.enqueue item.replay with ⟨s', _ | replay⟩ <;> rw [heq] at h
  · exact h
  · have hreported : Flow s' (s'.emitProgress replay .resumed, []) := flow_of_eq rfl rfl still_nil
    exact h.trans hreported

theorem flow_resume (s : SpeechScheduler) (target : Target) : Flow s (s.resume target) := by
  rw [resume]
  split
  · exact flow_of_eq rfl rfl still_nil
  rename_i item _
  have hun : Flow s (s.unpause item, []) := by
    rw [unpause]
    split_ifs <;> exact flow_of_eq rfl rfl still_nil
  have hreported : ∀ s', Flow s' (s'.emitProgress item .interrupted, []) := fun s' =>
    flow_of_eq rfl rfl still_nil
  dsimp only
  split_ifs
  · exact hun.trans (flow_of_eq rfl rfl ⟨rfl, rfl⟩)
  · exact hun.trans ((hreported _).trans (flow_enqueueReplay _ item))
  · exact hun.trans (flow_enqueueReplay _ item)

theorem flow_cancel (s : SpeechScheduler) (key : Option String) : Flow s (s.cancel cfg key) := by
  have hlane : ∀ (s' : SpeechScheduler) (key : String), Flow s (s', []) → Flow s (s'.cancelLane key, []) := by
    intro s' key h
    refine Flow.trans h (flow_of_perm (D := s'.queues.lane key) ?_ rfl still_nil)
    exact List.perm_append_comm.trans (s'.queues.items_pop_perm key)
  have hpaused : ∀ (s' : SpeechScheduler) (key : String), Flow s (s', []) →
      Flow s (s'.cancelPaused key, []) := fun s' key h => h.trans (flow_of_eq rfl rfl still_nil)
  have hrest : ∀ s' : SpeechScheduler, Flow s (s', []) → ∀ (keys keys' : List String) (ns : List Notice),
      Still ns → Flow s (keys'.foldl cancelPaused (keys.foldl cancelLane s'), ns) := by
    intro s' h' keys keys' ns hns
    have hall : Flow s (keys'.foldl cancelPaused (keys.foldl cancelLane s'), []) :=
      run_invariant_of_step (I := fun s' => Flow s (s', [])) hpaused
        (run_invariant_of_step (I := fun s' => Flow s (s', [])) hlane h' keys) keys'
    exact hall.trans (flow_of_eq rfl rfl hns)
  rw [cancel]
  rcases hactive : s.active with _ | lease
  · exact hrest s (flow_of_eq rfl rfl still_nil) _ _ _ (still_ackSwept .cancelled _)
  dsimp only
  split_ifs
  · exact hrest _ (flow_interruptActive hactive _ _ _ none still_nil) _ _ _
      (Still.append ⟨rfl, rfl⟩ (still_ackSwept .cancelled _))
  · exact hrest s (flow_of_eq rfl rfl still_nil) _ _ _ (still_ackSwept .cancelled _)

theorem flow_keep (s : SpeechScheduler) (key : String) (p : SpeechItem → Bool) :
    Flow s ({ s with queues := s.queues.keep key p }, []) :=
  flow_of_perm (List.perm_append_comm.trans (s.queues.items_keep_perm key p)) rfl still_nil

/-! ## Who submits -/

theorem mem_of_scanLane {acceptable : Bool} {item : SpeechItem} {token : Token} :
    ∀ {items : List SpeechItem} {s : SpeechScheduler},
      (scanLane cfg acceptable s items).2.2 = .admitted item token → item ∈ items
  | [], _, h => nomatch h
  | candidate :: rest, s, h => by
    rw [scanLane] at h
    split at h
    · exact List.mem_cons_of_mem candidate (mem_of_scanLane h)
    · cases h
    · cases h
      exact List.mem_cons_self

/-- The item that is admitted comes from one of the queues that are looked at. -/
theorem key_of_scanKeys {acceptable : Bool} {item : SpeechItem} {token : Token} :
    ∀ {keys : List String} {s : SpeechScheduler},
      (scanKeys cfg acceptable s keys).2.2 = .admitted item token → item.workItemId ∈ keys
  | [], _, h => nomatch h
  | key :: keys, s, h => by
    rw [scanKeys] at h
    rcases hscan : scanLane cfg acceptable s (s.queues.lane key) with ⟨s', ns, _ | _ | ⟨item', token'⟩⟩ <;>
      rw [hscan] at h
    · exact List.mem_cons_of_mem key (key_of_scanKeys h)
    · cases h
    · have hadm : (scanLane cfg acceptable s (s.queues.lane key)).2.2 = .admitted item token := by
        rw [hscan]
        exact h
      rw [Lanes.key_of_mem_lane (mem_of_scanLane hadm)]
      exact List.mem_cons_self

/-- Every submission was there before, or is a new one as `fresh` says. -/
def Heirs (s s' : SpeechScheduler) (fresh : Submission → Prop) : Prop :=
  ∀ sub ∈ s'.submissions,
    (∃ t ∈ s.submissions, t.caller = sub.caller ∧ t.lease = sub.lease) ∨ fresh sub

theorem heirs_of_subset {fresh : Submission → Prop} (h : ∀ sub ∈ s'.submissions, sub ∈ s.submissions) :
    Heirs s s' fresh := fun sub hsub => Or.inl ⟨sub, h sub hsub, rfl, rfl⟩

theorem heirs_startNext (s : SpeechScheduler) (acceptable : Bool) (key : Option String) (caller : Caller) :
    Heirs s (s.startNext cfg acceptable key caller).1 fun sub =>
      sub.caller = caller ∧ key.all (· = sub.lease.item.workItemId) = true := by
  rw [startNext]
  split_ifs
  · exact heirs_of_subset (by rw [(finish_fields cfg s caller true).2]; exact fun _ h => h)
  · rename_i hbusy
    obtain ⟨-, hfree⟩ : s.active = none ∧ s.lifecycle.slotToken = none := by simpa using hbusy
    have hscan := scanKeys_scanned cfg acceptable (key.elim s.queues.keys fun key => [key]) hfree
    have hkey : ∀ item token, (s.scanKeys cfg acceptable (key.elim s.queues.keys fun key => [key])).2.2
        = .admitted item token → key.all (· = item.workItemId) = true := by
      intro item token hadm
      have hmem := key_of_scanKeys hadm
      rcases key with _ | k
      · rfl
      · simpa [eq_comm] using hmem
    generalize s.scanKeys cfg acceptable (key.elim s.queues.keys fun key => [key]) = r at hscan hkey
    rcases hscan with ⟨s', ns, D, hshed, -⟩ | ⟨s', ns, D, rest, item, hshed, -, -, -, -⟩
    · refine heirs_of_subset ?_
      dsimp only
      rw [(finish_fields cfg s' caller true).2, hshed.frame]
      exact fun _ h => h
    · intro sub hsub
      rcases List.mem_append.mp hsub with hold | hnew
      · refine Or.inl ⟨sub, ?_, rfl, rfl⟩
        change sub ∈ s'.submissions at hold
        rw [hshed.frame] at hold
        exact hold
      · obtain rfl := List.mem_singleton.mp hnew
        exact Or.inr ⟨rfl, hkey item _ rfl⟩

theorem heirs_runAdvance (s : SpeechScheduler) (acceptable : Bool) (id : ℕ) :
    Heirs s (s.runAdvance cfg acceptable id).1 fun sub => sub.caller = .advance := by
  rw [runAdvance]
  split
  · exact heirs_of_subset fun _ h => h
  · rename_i task _
    dsimp only
    split
    · exact heirs_of_subset fun _ h => h
    · exact fun sub hsub => (heirs_startNext { s with advances := s.advances.erase task } acceptable _ .advance
        sub hsub).imp_right And.left

theorem submissions_deliver (s : SpeechScheduler) (d : DeliveryState) (disposition : DeliveryDisposition)
    (u : UtteranceId) : (s.deliver cfg d disposition u).submissions = s.submissions := by
  rcases hl : s.activeLease u with _ | lease
  · rw [deliver, hl]
  · obtain ⟨hactive, rfl⟩ := activeLease_eq_some.mp hl
    rw [deliver_of_active hactive]

theorem submissions_interrupt (s : SpeechScheduler) (epoch : Option ℤ) (reconnect fullStop : Bool) :
    (s.interrupt cfg epoch reconnect fullStop).1.submissions = s.submissions := by
  rcases hactive : s.active with _ | lease <;> rcases hdiscarding : (reconnect || fullStop) with _ | _ <;>
    simp only [interrupt, hactive, hdiscarding, Bool.false_eq_true, if_false, if_true]
  · rfl
  · rw [interruptActive_of_active hactive]
  · rw [interruptActive_of_active hactive]
    rfl

theorem submissions_cancel (s : SpeechScheduler) (key : Option String) :
    (s.cancel cfg key).1.submissions = s.submissions := by
  have hlane : ∀ (s' : SpeechScheduler) (key : String), s'.submissions = s.submissions →
      (s'.cancelLane key).submissions = s.submissions := fun _ _ h => h
  have hpaused : ∀ (s' : SpeechScheduler) (key : String), s'.submissions = s.submissions →
      (s'.cancelPaused key).submissions = s.submissions := fun _ _ h => h
  have hrest : ∀ s' : SpeechScheduler, s'.submissions = s.submissions → ∀ keys keys' : List String,
      (keys'.foldl cancelPaused (keys.foldl cancelLane s')).submissions = s.submissions :=
    fun s' h' keys keys' => run_invariant_of_step hpaused (run_invariant_of_step hlane h' keys) keys'
  rw [cancel]
  rcases hactive : s.active with _ | lease
  · exact hrest s rfl _ _
  dsimp only
  split_ifs
  · exact hrest _ (by rw [interruptActive_of_active hactive]) _ _
  · exact hrest s rfl _ _

/-- `start_next` has no part in these notices: no call of it speaks or is over. -/
def Apart (ns : List Notice) : Prop := ∀ n ∈ ns, n.answered = none ∧ n.uttered = none

theorem apart_nil : Apart [] := fun _ hn => absurd hn List.not_mem_nil

theorem Apart.append {ns' : List Notice} (h : Apart ns) (h' : Apart ns') :
    Apart (ns ++ ns') := fun n hn => (List.mem_append.mp hn).elim (h n) (h' n)

theorem OnlyAcks.apart (h : OnlyAcks ns) : Apart ns := fun n hn => by
  obtain ⟨_, _, rfl⟩ := h n hn
  exact ⟨rfl, rfl⟩

theorem Apart.unuttered (h : Apart ns) : ns.filterMap Notice.uttered = [] :=
  List.filterMap_eq_nil_iff.mpr fun n hn => (h n hn).2

/-- `start_next` answers its own caller, with no item, and speaks nothing then. -/
theorem answered_startNext {acceptable : Bool} {key : Option String} {caller : Caller} {n : Notice}
    (hn : n ∈ (s.startNext cfg acceptable key caller).2) : n.answered = none ∨ (n = .returned caller none ∧
      (s.startNext cfg acceptable key caller).2.filterMap Notice.uttered = []) := by
  have hstart := startNext_cases cfg s acceptable key caller
  generalize s.startNext cfg acceptable key caller = r at hstart hn
  rcases hstart with _ | ⟨_, ns, _, _, hns⟩ | ⟨_, _, _, _, _, _, hns⟩
  · exact Or.inr ⟨List.mem_singleton.mp hn, rfl⟩
  · refine (List.mem_append.mp hn).imp (fun hack => (hns.onlyAcks.apart n hack).1) fun hnone => ?_
    refine ⟨List.mem_singleton.mp hnone, ?_⟩
    rw [List.filterMap_append, hns.onlyAcks.apart.unuttered]
    rfl
  · refine Or.inl ((List.mem_append.mp hn).elim (fun hack => (hns.onlyAcks.apart n hack).1) fun hspeak => ?_)
    rw [List.mem_singleton.mp hspeak]
    rfl

theorem apart_interrupt (s : SpeechScheduler) (epoch : Option ℤ) (reconnect fullStop : Bool) :
    Apart (s.interrupt cfg epoch reconnect fullStop).2 := by
  have hsweep : ∀ (s : SpeechScheduler) d, Apart (s.sweep d epoch).2 := fun s d =>
    (onlyAcks_sweep .connectionClosed _).apart
  rcases hactive : s.active with _ | lease <;> rcases hdiscarding : (reconnect || fullStop) with _ | _ <;>
    simp only [interrupt, hactive, hdiscarding, Bool.false_eq_true, if_false, if_true]
  · exact apart_nil
  · exact apart_nil.append (hsweep _ _)
  · simp [Apart, Notice.answered, Notice.uttered]
  · exact Apart.append (by simp [Apart, Notice.answered, Notice.uttered]) (hsweep _ _)

theorem apart_pause (s : SpeechScheduler) (key : String) : Apart (s.pause cfg key).2 := by
  rcases pause_cases cfg s key with heq | ⟨lease, -, -, heq⟩ <;> simp [heq, Apart, Notice.answered, Notice.uttered]

theorem apart_cancel (s : SpeechScheduler) (key : Option String) : Apart (s.cancel cfg key).2 := by
  rw [cancel]
  refine Apart.append ?_ (onlyAcks_sweep .cancelled _).apart
  split
  · exact apart_nil
  · split_ifs
    · simp [Apart, Notice.answered, Notice.uttered]
    · exact apart_nil

theorem apart_enqueueReplay (s : SpeechScheduler) (item : SpeechItem) : Apart (s.enqueueReplay item).2 := by
  rw [enqueueReplay]
  split <;> simp [Apart, Notice.answered, Notice.uttered]

theorem apart_resume (s : SpeechScheduler) (target : Target) : Apart (s.resume target).2 := by
  rw [resume]
  split
  · exact apart_nil
  · dsimp only
    split_ifs
    · simp [Apart, Notice.answered, Notice.uttered]
    · exact apart_enqueueReplay _ _
    · exact apart_enqueueReplay _ _

/-- No submission fails with these notices. -/
def Unraised (ns : List Notice) : Prop := ∀ caller item, .raised caller item ∉ ns

theorem unraised_nil : Unraised [] := fun _ _ => List.not_mem_nil

theorem Unraised.append {ns' : List Notice} (h : Unraised ns) (h' : Unraised ns') :
    Unraised (ns ++ ns') := fun caller item hn =>
  (List.mem_append.mp hn).elim (h caller item) (h' caller item)

theorem Apart.unraised (h : Apart ns) : Unraised ns := fun caller _ hn =>
  Option.some_ne_none caller (h _ hn).1

theorem unraised_startNext (s : SpeechScheduler) (acceptable : Bool) (key : Option String)
    (caller : Caller) : Unraised (s.startNext cfg acceptable key caller).2 := fun _ _ hn => by
  rcases answered_startNext hn with h | ⟨h, -⟩
  · cases h
  · cases h

/-- What returns was being submitted. -/
theorem speakReturns_tells (cfg : LifecycleConfig) (s : SpeechScheduler) (id : ℕ) : (s.speakReturns cfg id).2 = [] ∨
    ∃ sub ∈ s.submissions, (s.speakReturns cfg id).2 = [.returned sub.caller (some sub.lease.item)] := by
  rw [speakReturns]
  split
  · exact Or.inl rfl
  · rename_i sub hsub
    split_ifs
    · exact Or.inl rfl
    · exact Or.inr ⟨sub, (submission?_mem hsub).1, rfl⟩

/-- What fails was being submitted. -/
theorem submissionFails_tells (cfg : LifecycleConfig) (s : SpeechScheduler) (id : ℕ) :
    (s.submissionFails cfg id).2 = [] ∨
      ∃ sub ∈ s.submissions, (s.submissionFails cfg id).2 = [.raised sub.caller sub.lease.item] := by
  rw [submissionFails]
  split
  · exact Or.inl rfl
  · rename_i sub hsub
    dsimp only
    split_ifs
    · exact Or.inl rfl
    · exact Or.inr ⟨sub, (submission?_mem hsub).1, rfl⟩

end SpeechScheduler

namespace ConnectionPipeline

open SpeechScheduler

variable {cfg : LifecycleConfig}

theorem sweeping_onLifecycleTerminal (p : ConnectionPipeline) (id : ℕ) (identity : GenerationIdentity)
    (disposition : DeliveryDisposition) :
    Sweeping p.scheduler ((p.onLifecycleTerminal cfg id identity disposition).1.scheduler,
      (p.onLifecycleTerminal cfg id identity disposition).2) := by
  have hreport : Sweeping p.scheduler (p.report cfg identity disposition, []) := by
    refine Flow.sweeping_nil ?_
    rw [report]
    split_ifs
    · exact flow_deliver p.scheduler _ _ _
    · exact flow_of_eq rfl rfl still_nil
  rw [onLifecycleTerminal]
  split_ifs
  · exact (flow_finish p.scheduler (.terminal id) true still_nil).sweeping_nil
  · exact hreport.trans (sweeping_startNext _ p.acceptable none (.terminal id))
  · exact hreport.trans (flow_finish _ (.terminal id) true still_nil).sweeping_nil

theorem sweeping_react (p : ConnectionPipeline) (effects : List Effect) :
    Sweeping p.scheduler ((p.react cfg effects).1.scheduler, (p.react cfg effects).2) := by
  induction effects generalizing p with
  | nil => exact (flow_of_eq rfl rfl still_nil).sweeping_nil
  | cons effect effects ih =>
    rcases effect with _ | _ | ⟨id, token, identity, disposition⟩ <;> rw [react]
    · exact ih p
    · exact ih { p with active := false }
    · exact (sweeping_onLifecycleTerminal p id identity disposition).trans (ih _)

theorem sweeping_receive (p : ConnectionPipeline) (sig : Signal) :
    Sweeping p.scheduler ((p.receive cfg sig).1.scheduler, (p.receive cfg sig).2) := by
  set s' : SpeechScheduler := { p.scheduler with lifecycle := (p.scheduler.lifecycle.step cfg sig.event).1 }
  have hmoved : Sweeping p.scheduler (s', []) := Flow.sweeping_nil (flow_of_eq rfl rfl still_nil)
  exact hmoved.trans (sweeping_react { p with scheduler := s' } _)

/-- **An item is returned, or raises, at most once for each time it is filed.** -/
theorem flow_step (cfg : LifecycleConfig) (p : ConnectionPipeline) (e : Event) :
    Flow p.scheduler ((p.step cfg e).1.scheduler, (p.step cfg e).2) := by
  have reported : ∀ s', s'.queues = p.scheduler.queues → s'.submissions = p.scheduler.submissions →
      Flow p.scheduler (s', []) := fun s' hqueues hsubs => flow_of_eq hqueues hsubs still_nil
  cases e with
  | enqueue r => exact flow_enqueue p.scheduler r
  | startNext key => exact (sweeping_startNext p.scheduler p.acceptable key .owner).toFlow
  | startAck id key => exact (sweeping_startNext p.scheduler p.acceptable (some key) (.admission id)).toFlow
  | speakReturns id => exact flow_speakReturns p.scheduler id
  | speakRaises id => exact flow_speakRaises p.scheduler id
  | submissionFails id => exact flow_submissionFails p.scheduler id
  | runAdvance id => exact (sweeping_runAdvance p.scheduler p.acceptable id).toFlow
  | providerStarted ctx =>
    simp only [step, upon, providerStarted]
    split
    · exact reported _ rfl rfl
    · split_ifs <;> exact reported _ rfl rfl
  | providerSynthesisEnded ctx =>
    simp only [step, upon, providerSynthesisEnded, synthesisEnded]
    split
    · exact reported _ rfl rfl
    · split <;> exact reported _ rfl rfl
  | providerDeliveryCompleted ctx =>
    simp only [step, upon, providerDeliveryCompleted]
    split
    · exact reported _ rfl rfl
    · exact (flow_deliver p.scheduler _ _ _).trans (flow_of_eq rfl rfl still_nil)
  | providerDeliveryUnknown ctx =>
    simp only [step, upon, providerDeliveryUnknown]
    split
    · exact reported _ rfl rfl
    · exact (flow_deliver p.scheduler _ _ _).trans (flow_of_eq rfl rfl still_nil)
  | synthesisEnded u =>
    simp only [step, upon, synthesisEnded]
    split <;> exact reported _ rfl rfl
  | deliveryCompleted u => exact flow_deliver p.scheduler _ _ u
  | deliveryUnknown u => exact flow_deliver p.scheduler _ _ u
  | interrupt epoch reconnect fullStop => exact flow_interrupt p.scheduler epoch reconnect fullStop
  | pause key => exact flow_pause p.scheduler key
  | resume target => exact flow_resume p.scheduler target
  | cancel key => exact flow_cancel p.scheduler key
  | discardQueuedNotice key =>
    exact (flow_keep p.scheduler key _).trans (flow_of_eq rfl rfl still_nil)
  | discardQueuedAck ackId => exact flow_keep p.scheduler ackId _
  | deactivate epoch reconnect => exact flow_interrupt p.scheduler epoch reconnect true
  | replaced epoch reconnect =>
    have hmoved := reported { p.scheduler with
      state := { p.scheduler.state with activeEpoch := epoch } } rfl rfl
    exact hmoved.trans (flow_interrupt _ p.scheduler.state.activeEpoch reconnect true)
  | signal sig =>
    rcases sig with _ | _ | _ | _ | _ | _ | _ | _ | _ | _ | _ | _ | _ | ⟨id, ok⟩
    case dispatchDone =>
      rw [step]
      split_ifs
      · exact flow_of_eq rfl rfl still_nil
      · exact (sweeping_receive p _).toFlow
    all_goals exact (sweeping_receive p _).toFlow

/-- What the terminal callback submits, it submits itself. -/
def Own (sub : Submission) : Prop := ∀ id, sub.caller ≠ .admission id

theorem own_onLifecycleTerminal (cfg : LifecycleConfig) (p : ConnectionPipeline) (id : ℕ) (identity : GenerationIdentity)
    (disposition : DeliveryDisposition) :
    Heirs p.scheduler (p.onLifecycleTerminal cfg id identity disposition).1.scheduler Own ∧
      Unraised (p.onLifecycleTerminal cfg id identity disposition).2 := by
  have hreport : (p.report cfg identity disposition).submissions = p.scheduler.submissions := by
    rw [report]
    split_ifs
    · exact submissions_deliver p.scheduler _ _ _
    · rfl
  rw [onLifecycleTerminal]
  split_ifs
  · refine ⟨heirs_of_subset fun sub hsub => ?_, unraised_nil⟩
    change sub ∈ (p.scheduler.finish cfg (.terminal id) true).submissions at hsub
    rwa [(finish_fields cfg p.scheduler (.terminal id) true).2] at hsub
  · refine ⟨fun sub hsub => ?_, unraised_startNext _ _ _ _⟩
    rcases heirs_startNext _ _ _ _ sub hsub with hold | ⟨hcaller, -⟩
    · rw [hreport] at hold
      exact Or.inl hold
    · exact Or.inr fun id' heq => by simp [hcaller] at heq
  · refine ⟨heirs_of_subset fun sub hsub => ?_, unraised_nil⟩
    change sub ∈ ((p.report cfg identity disposition).finish cfg (.terminal id) true).submissions at hsub
    rwa [(finish_fields cfg _ (.terminal id) true).2, hreport] at hsub

theorem own_react (p : ConnectionPipeline) (effects : List Effect) :
    Heirs p.scheduler (p.react cfg effects).1.scheduler Own ∧ Unraised (p.react cfg effects).2 := by
  induction effects generalizing p with
  | nil => exact ⟨heirs_of_subset fun _ h => h, unraised_nil⟩
  | cons effect effects ih =>
    rcases effect with _ | _ | ⟨id, token, identity, disposition⟩ <;> rw [react]
    · exact ih p
    · exact ih { p with active := false }
    · obtain ⟨hheirs, hns⟩ := own_onLifecycleTerminal cfg p id identity disposition
      obtain ⟨hheirs', hns'⟩ := ih (p.onLifecycleTerminal cfg id identity disposition).1
      refine ⟨fun sub hsub => ?_, hns.append hns'⟩
      rcases hheirs' sub hsub with ⟨t, ht, hcaller, hlease⟩ | hown
      · rcases hheirs t ht with ⟨t', ht', hcaller', hlease'⟩ | hown
        · exact Or.inl ⟨t', ht', hcaller'.trans hcaller, hlease'.trans hlease⟩
        · exact Or.inr fun id' heq => hown id' (hcaller.trans heq)
      · exact Or.inr hown

/-- **The admission of an acknowledgement submits what it asks for, and only what is under way fails.** -/
theorem submits_step (p : ConnectionPipeline) (e : Event) :
    (Heirs p.scheduler (p.step cfg e).1.scheduler fun sub =>
      ∀ id, sub.caller = .admission id → e = .startAck id sub.lease.item.workItemId) ∧
    ∀ caller item, .raised caller item ∈ (p.step cfg e).2 →
      ∃ sub ∈ p.scheduler.submissions, sub.caller = caller ∧ sub.lease.item = item := by
  have own : ∀ {s' : SpeechScheduler} {ns : List Notice}, Heirs p.scheduler s' Own → Unraised ns →
      (Heirs p.scheduler s' fun sub =>
        ∀ id, sub.caller = .admission id → e = .startAck id sub.lease.item.workItemId) ∧
      ∀ caller item, .raised caller item ∈ ns →
        ∃ sub ∈ p.scheduler.submissions, sub.caller = caller ∧ sub.lease.item = item :=
    fun hheirs hns => ⟨fun sub hsub => (hheirs sub hsub).imp_right fun hown id heq => absurd heq (hown id),
      fun caller item hn => absurd hn (hns caller item)⟩
  have same : ∀ {s' : SpeechScheduler} {ns : List Notice}, s'.submissions = p.scheduler.submissions →
      Unraised ns → (Heirs p.scheduler s' fun sub =>
        ∀ id, sub.caller = .admission id → e = .startAck id sub.lease.item.workItemId) ∧
      ∀ caller item, .raised caller item ∈ ns →
        ∃ sub ∈ p.scheduler.submissions, sub.caller = caller ∧ sub.lease.item = item :=
    fun hsubs hns => own (heirs_of_subset fun sub hsub => hsubs ▸ hsub) hns
  cases e with
  | enqueue r =>
    refine same (aside_enqueue p.scheduler r).submissions ?_
    change Unraised ((p.scheduler.enqueue r).2.map Notice.enqueued).toList
    rcases (p.scheduler.enqueue r).2 with _ | item <;> simp [Unraised]
  | startNext key =>
    refine own (fun sub hsub => ?_) (unraised_startNext _ _ _ _)
    exact (heirs_startNext p.scheduler p.acceptable key .owner sub hsub).imp_right
      fun ⟨hcaller, _⟩ id heq => by simp [hcaller] at heq
  | startAck id key =>
    refine ⟨fun sub hsub => ?_, fun caller item hn => absurd hn (unraised_startNext _ _ _ _ caller item)⟩
    refine (heirs_startNext p.scheduler p.acceptable (some key) (.admission id) sub hsub).imp_right ?_
    rintro ⟨hcaller, hkey⟩ id' heq
    obtain rfl : id = id' := by simpa [hcaller] using heq
    obtain rfl : key = sub.lease.item.workItemId := by simpa using hkey
    rfl
  | speakReturns id =>
    refine own (heirs_of_subset fun sub hsub => ?_) ?_
    · simp only [step, upon, speakReturns] at hsub
      split at hsub
      · exact hsub
      · rename_i t _
        split_ifs at hsub
        · exact hsub
        · rw [(finish_fields cfg _ t.caller true).2] at hsub
          exact List.mem_of_mem_erase hsub
    · simp only [step, upon, speakReturns]
      split
      · exact unraised_nil
      · split_ifs <;> simp [Unraised]
  | speakRaises id =>
    refine own (fun sub hsub => ?_) unraised_nil
    simp only [step, upon, speakRaises] at hsub
    split at hsub
    · exact Or.inl ⟨sub, hsub, rfl, rfl⟩
    · split_ifs at hsub
      · exact Or.inl ⟨sub, hsub, rfl, rfl⟩
      · obtain ⟨t, ht, rfl⟩ := List.mem_map.mp hsub
        refine Or.inl ⟨t, ht, ?_⟩
        split_ifs <;> exact ⟨rfl, rfl⟩
  | submissionFails id =>
    refine ⟨heirs_of_subset fun sub hsub => ?_, fun caller item hn => ?_⟩
    swap
    · change _ ∈ (p.scheduler.submissionFails cfg id).2 at hn
      rcases submissionFails_tells cfg p.scheduler id with hns | ⟨sub, hsub, hns⟩
      · exact absurd hn (hns ▸ List.not_mem_nil)
      · rw [hns, List.mem_singleton] at hn
        cases hn
        exact ⟨sub, hsub, rfl, rfl⟩
    simp only [step, upon, submissionFails] at hsub
    split at hsub
    · exact hsub
    · rename_i t _
      split_ifs at hsub
      · exact hsub
      · rw [(finish_fields cfg _ t.caller false).2, release_update, scheduleQueueAdvance] at hsub
        split_ifs at hsub <;> exact List.mem_of_mem_erase hsub
  | runAdvance id =>
    refine own (fun sub hsub => ?_) ?_
    · exact (heirs_runAdvance p.scheduler p.acceptable id sub hsub).imp_right
        fun hcaller id' heq => by simp [hcaller] at heq
    · simp only [step, upon, runAdvance]
      split
      · exact unraised_nil
      · split
        · exact unraised_nil
        · exact unraised_startNext _ _ _ _
  | providerStarted ctx => exact same (aside_providerStarted p.scheduler ctx).submissions unraised_nil
  | providerSynthesisEnded ctx =>
    exact same (aside_providerSynthesisEnded p.scheduler ctx).submissions unraised_nil
  | providerDeliveryCompleted ctx =>
    simp only [step, upon, providerDeliveryCompleted]
    split
    · exact same rfl unraised_nil
    · exact same (submissions_deliver p.scheduler _ _ _) unraised_nil
  | providerDeliveryUnknown ctx =>
    simp only [step, upon, providerDeliveryUnknown]
    split
    · exact same rfl unraised_nil
    · exact same (submissions_deliver p.scheduler _ _ _) unraised_nil
  | synthesisEnded u => exact same (aside_synthesisEnded p.scheduler u).submissions unraised_nil
  | deliveryCompleted u => exact same (submissions_deliver p.scheduler _ _ u) unraised_nil
  | deliveryUnknown u => exact same (submissions_deliver p.scheduler _ _ u) unraised_nil
  | interrupt epoch reconnect fullStop =>
    exact same (submissions_interrupt p.scheduler epoch reconnect fullStop) (apart_interrupt _ _ _ _).unraised
  | pause key =>
    refine same ?_ (apart_pause _ key).unraised
    rcases pause_cases cfg p.scheduler key with heq | ⟨lease, -, -, heq⟩ <;> simp [step, upon, heq]
  | resume target => exact same (aside_resume p.scheduler target).submissions (apart_resume _ target).unraised
  | cancel key => exact same (submissions_cancel p.scheduler key) (apart_cancel _ key).unraised
  | discardQueuedNotice key => exact same rfl unraised_nil
  | discardQueuedAck ackId => exact same rfl unraised_nil
  | deactivate epoch reconnect =>
    exact same (submissions_interrupt p.scheduler epoch reconnect true) (apart_interrupt _ _ _ _).unraised
  | replaced epoch reconnect =>
    exact same (submissions_interrupt _ p.scheduler.state.activeEpoch reconnect true)
      (apart_interrupt _ _ _ _).unraised
  | signal sig =>
    have hreceive : ∀ sig, Heirs p.scheduler (p.receive cfg sig).1.scheduler Own ∧
        Unraised (p.receive cfg sig).2 := fun sig =>
      own_react { p with scheduler := { p.scheduler with
        lifecycle := (p.scheduler.lifecycle.step cfg sig.event).1 } } _
    rcases sig with _ | _ | _ | _ | _ | _ | _ | _ | _ | _ | _ | _ | _ | ⟨id, ok⟩
    case dispatchDone =>
      by_cases hrep : p.reporting id = true
      · rw [show p.step cfg (.signal (.dispatchDone id ok)) = (p, []) from if_pos hrep]
        exact same rfl unraised_nil
      · rw [show p.step cfg (.signal (.dispatchDone id ok)) = p.receive cfg _ from if_neg hrep]
        exact own (hreceive _).1 (hreceive _).2
    all_goals exact own (hreceive _).1 (hreceive _).2

/-! ## Who is answered -/

/-- No admission is over with these notices. -/
def NoAdmission (ns : List Notice) : Prop := ∀ n ∈ ns, ∀ id, n.answered ≠ some (.admission id)

theorem noAdmission_of_apart {ns : List Notice} (h : Apart ns) : NoAdmission ns := fun n hn _ heq =>
  Option.some_ne_none _ (heq.symm.trans (h n hn).1)

theorem noAdmission_startNext (s : SpeechScheduler) (acceptable : Bool) (key : Option String) {caller : Caller}
    (hcaller : ∀ id, caller ≠ .admission id) : NoAdmission (s.startNext cfg acceptable key caller).2 := by
  intro n hn id heq
  rcases answered_startNext hn with hnone | ⟨rfl, -⟩
  · exact Option.some_ne_none _ (heq.symm.trans hnone)
  · exact hcaller id (Option.some.inj heq)

theorem noAdmission_react (p : ConnectionPipeline) (effects : List Effect) : NoAdmission (p.react cfg effects).2 := by
  induction effects generalizing p with
  | nil => exact noAdmission_of_apart apart_nil
  | cons effect effects ih =>
    rcases effect with _ | _ | ⟨id, token, identity, disposition⟩ <;> rw [react]
    · exact ih p
    · exact ih { p with active := false }
    · have hfirst : NoAdmission (p.onLifecycleTerminal cfg id identity disposition).2 := by
        rw [onLifecycleTerminal]
        split_ifs
        · exact noAdmission_of_apart apart_nil
        · exact noAdmission_startNext _ _ _ fun _ heq => by cases heq
        · exact noAdmission_of_apart apart_nil
      exact fun n hn => (List.mem_append.mp hn).elim (hfirst n) (ih _ n)

/-- **An admission that is over was being submitted**, or has just called `start_next`; nothing is spoken
in the step that it ends with. -/
theorem answered_step (p : ConnectionPipeline) (e : Event) {n : Notice} (hn : n ∈ (p.step cfg e).2) {id : ℕ}
    (hid : n.answered = some (.admission id)) :
    ((∃ sub ∈ p.scheduler.submissions, sub.caller = .admission id) ∨ ∃ key, e = .startAck id key) ∧
      (p.step cfg e).2.filterMap Notice.uttered = [] := by
  have never : ∀ {ns : List Notice}, n ∈ ns → NoAdmission ns →
      ((∃ sub ∈ p.scheduler.submissions, sub.caller = .admission id) ∨ ∃ key, e = .startAck id key) ∧
        ns.filterMap Notice.uttered = [] :=
    fun hmem hnone => absurd hid (hnone n hmem id)
  have ends : ∀ {ns : List Notice} {f : Submission → Notice}, (∀ sub, (f sub).answered = some sub.caller) →
      (∀ sub, (f sub).uttered = none) → (ns = [] ∨ ∃ sub ∈ p.scheduler.submissions, ns = [f sub]) → n ∈ ns →
      ((∃ sub ∈ p.scheduler.submissions, sub.caller = .admission id) ∨ ∃ key, e = .startAck id key) ∧
        ns.filterMap Notice.uttered = [] := by
    rintro _ f hanswered huttered (rfl | ⟨sub, hsub, rfl⟩) hmem
    · exact absurd hmem List.not_mem_nil
    · rw [List.mem_singleton.mp hmem, hanswered, Option.some.injEq] at hid
      exact ⟨Or.inl ⟨sub, hsub, hid⟩, by simp [huttered]⟩
  cases e with
  | enqueue r =>
    refine never hn (noAdmission_of_apart ?_)
    simp only [step, upon]
    rcases (p.scheduler.enqueue r).2 with _ | item <;> simp [Apart, Notice.answered, Notice.uttered]
  | startNext key => exact never hn (noAdmission_startNext _ _ _ fun _ heq => by cases heq)
  | startAck id' key =>
    rcases answered_startNext hn with hnone | ⟨rfl, huttered⟩
    · exact absurd (hid.symm.trans hnone) (Option.some_ne_none _)
    · obtain rfl : id' = id := by simpa [Notice.answered] using hid
      exact ⟨Or.inr ⟨key, rfl⟩, huttered⟩
  | speakReturns id' =>
    exact ends (fun _ => rfl) (fun _ => rfl) (speakReturns_tells cfg p.scheduler id') hn
  | submissionFails id' =>
    exact ends (fun _ => rfl) (fun _ => rfl) (submissionFails_tells cfg p.scheduler id') hn
  | runAdvance id' =>
    refine never hn ?_
    simp only [step, upon, runAdvance]
    split
    · exact noAdmission_of_apart apart_nil
    · split
      · exact noAdmission_of_apart apart_nil
      · exact noAdmission_startNext _ _ _ fun _ heq => by cases heq
  | interrupt epoch reconnect fullStop => exact never hn (noAdmission_of_apart (apart_interrupt _ _ _ _))
  | pause key => exact never hn (noAdmission_of_apart (apart_pause _ key))
  | resume target => exact never hn (noAdmission_of_apart (apart_resume _ target))
  | cancel key => exact never hn (noAdmission_of_apart (apart_cancel _ key))
  | deactivate epoch reconnect => exact never hn (noAdmission_of_apart (apart_interrupt _ _ _ _))
  | replaced epoch reconnect => exact never hn (noAdmission_of_apart (apart_interrupt _ _ _ _))
  | signal sig =>
    rcases sig with _ | _ | _ | _ | _ | _ | _ | _ | _ | _ | _ | _ | _ | ⟨id', ok⟩
    case dispatchDone =>
      by_cases hrep : p.reporting id' = true
      · rw [show p.step cfg (.signal (.dispatchDone id' ok)) = (p, []) from if_pos hrep] at hn
        exact absurd hn List.not_mem_nil
      · rw [show p.step cfg (.signal (.dispatchDone id' ok)) = p.receive cfg _ from if_neg hrep] at hn ⊢
        exact never hn (noAdmission_react _ _)
    all_goals exact never hn (noAdmission_react _ _)
  | _ => exact absurd hn List.not_mem_nil

/-- **A step in which something is spoken tells of what is afloat no longer.** -/
theorem unuttered_or_sweeping (cfg : LifecycleConfig) (p : ConnectionPipeline) (e : Event) :
    (p.step cfg e).2.filterMap Notice.uttered = [] ∨
      Sweeping p.scheduler ((p.step cfg e).1.scheduler, (p.step cfg e).2) := by
  cases e with
  | enqueue r =>
    left
    simp only [step, upon]
    rcases (p.scheduler.enqueue r).2 with _ | item <;> rfl
  | startNext key => exact Or.inr (sweeping_startNext p.scheduler p.acceptable key .owner)
  | startAck id key => exact Or.inr (sweeping_startNext p.scheduler p.acceptable (some key) (.admission id))
  | speakReturns id =>
    left
    rcases speakReturns_tells cfg p.scheduler id with hns | ⟨sub, -, hns⟩ <;> simp [step, upon, hns, Notice.uttered]
  | submissionFails id =>
    left
    rcases submissionFails_tells cfg p.scheduler id with hns | ⟨sub, -, hns⟩ <;> simp [step, upon, hns, Notice.uttered]
  | runAdvance id => exact Or.inr (sweeping_runAdvance p.scheduler p.acceptable id)
  | interrupt epoch reconnect fullStop => exact Or.inl (apart_interrupt _ _ _ _).unuttered
  | pause key => exact Or.inl (apart_pause _ key).unuttered
  | resume target => exact Or.inl (apart_resume _ target).unuttered
  | cancel key => exact Or.inl (apart_cancel _ key).unuttered
  | deactivate epoch reconnect => exact Or.inl (apart_interrupt _ _ _ _).unuttered
  | replaced epoch reconnect => exact Or.inl (apart_interrupt _ _ _ _).unuttered
  | signal sig =>
    rcases sig with _ | _ | _ | _ | _ | _ | _ | _ | _ | _ | _ | _ | _ | ⟨id, ok⟩
    case dispatchDone =>
      rw [step]
      split_ifs
      · exact Or.inl rfl
      · exact Or.inr (sweeping_receive p _)
    all_goals exact Or.inr (sweeping_receive p _)
  | _ => exact Or.inl rfl

/-! ## Who files -/

theorem unfiled_react (cfg : LifecycleConfig) (p : ConnectionPipeline) (effects : List Effect) :
    Unfiled (p.react cfg effects).2 := by
  induction effects generalizing p with
  | nil => exact unfiled_nil
  | cons effect effects ih =>
    rcases effect with _ | _ | ⟨id, token, identity, disposition⟩ <;> rw [react]
    · exact ih p
    · exact ih { p with active := false }
    · refine Unfiled.append ?_ (ih _)
      rw [onLifecycleTerminal]
      split_ifs
      · exact unfiled_nil
      · exact unfiled_startNext _ p.acceptable none (.terminal id)
      · exact unfiled_nil

/-- What a step files, other than `enqueue` and `resume`: nothing. -/
theorem unfiled_step (cfg : LifecycleConfig) (p : ConnectionPipeline) {e : Event} (henqueue : ∀ r, e ≠ .enqueue r)
    (hresume : ∀ target, e ≠ .resume target) : Unfiled (p.step cfg e).2 := by
  cases e with
  | enqueue r => exact absurd rfl (henqueue r)
  | resume target => exact absurd rfl (hresume target)
  | startNext key => exact unfiled_startNext _ _ key .owner
  | startAck id key => exact unfiled_startNext _ _ (some key) (.admission id)
  | speakReturns id => exact unfiled_speakReturns _ id
  | submissionFails id => exact unfiled_submissionFails _ id
  | runAdvance id =>
    simp only [step, upon, runAdvance]
    split
    · exact unfiled_nil
    · split
      · exact unfiled_nil
      · exact unfiled_startNext _ _ _ .advance
  | interrupt epoch reconnect fullStop => exact unfiled_interrupt _ epoch reconnect fullStop
  | pause key => exact unfiled_pause _ key
  | cancel key => exact unfiled_cancel _ key
  | deactivate epoch reconnect => exact unfiled_interrupt _ epoch reconnect true
  | replaced epoch reconnect => exact unfiled_interrupt _ p.scheduler.state.activeEpoch reconnect true
  | signal sig =>
    rcases sig with _ | _ | _ | _ | _ | _ | _ | _ | _ | _ | _ | _ | _ | ⟨id, ok⟩
    case dispatchDone =>
      rw [step]
      split_ifs
      · exact unfiled_nil
      · exact unfiled_react cfg _ _
    all_goals exact unfiled_react cfg _ _
  | _ => exact unfiled_nil

theorem workItemId_of_item? {r : SpeechRequest} {u : UtteranceId} {item : SpeechItem}
    (h : r.item? u = some item) : item.workItemId = r.workItemId := by
  simp only [SpeechRequest.item?] at h
  split_ifs at h <;>
  · cases h
    rfl

/-- What `enqueueReplay` files is the replay of its item. -/
theorem filed_enqueueReplay {s : SpeechScheduler} {item replay : SpeechItem}
    (h : .enqueued replay ∈ (s.enqueueReplay item).2) : ∃ u, item.replay.item? u = some replay := by
  rw [enqueueReplay] at h
  split at h
  · simp at h
  · rename_i s' x heq
    obtain rfl : replay = x := by simpa using h
    rw [enqueue] at heq
    split at heq
    · cases heq
    · rename_i x' hx'
      cases heq
      exact ⟨_, hx'⟩

/-- What `resume` files is the replay of what it stands for, which is no acknowledgement. -/
theorem filed_resume {s : SpeechScheduler} {target : Target} {replay : SpeechItem}
    (h : .enqueued replay ∈ (s.resume target).2) :
    ∃ item, s.resumable target = some item ∧ item.isAck = false ∧ replay.role = item.role ∧
      replay.workItemId = item.workItemId := by
  rw [resume] at h
  rcases hres : s.resumable target with _ | item
  · simp [hres] at h
  rw [hres] at h
  rcases hack : item.isAck with _ | _
  · refine ⟨item, rfl, hack, ?_⟩
    simp only [hack, Bool.false_eq_true, if_false] at h
    obtain ⟨u, hu⟩ := filed_enqueueReplay h
    exact ⟨(item?_eq_some hu).2.2, workItemId_of_item? hu⟩
  · simp [hack] at h

end ConnectionPipeline

end SubagentsLab

import SubagentsLab.Speech.Admission
import SubagentsLab.Speech.Outcome
import SubagentsLab.Speech.Terminal

/-!
# Speech/Lease — the scheduler's lease and the lifecycle's slot

Scheduler and lifecycle each keep a notion of the current utterance.  They **agree**: a leased item
has its generation in the slot, with no outcome recorded yet.  Whoever interrupts or releases the
generation on the scheduler's side gives up the lease in the same step; and when the lifecycle reaps
it, the terminal callback it invokes at once does (`leased_run`).
-/

namespace SubagentsLab

open Machinery

namespace SpeechScheduler

open SpeechLifecycleCoordinator SlotStore

variable {cfg : LifecycleConfig} {s s' : SpeechScheduler} {lease : UtteranceLease}

/-! ## Agreement -/

/-- The generation is that of the utterance. -/
def Owns (u : UtteranceId) (g : SpeechGeneration) : Prop := g.identity.utteranceId = u

/-- **Lease and slot agree.** -/
structure Agreed (s : SpeechScheduler) : Prop where
  accountable : s.lifecycle.Accountable
  unclosed : s.lifecycle.connectionClosed = false
  leased : ∀ lease, s.active = some lease → ∃ g, s.lifecycle.generations lease.token = some g ∧
    g.identity = lease.item.identity ∧ g.outcome = .deliveryUnknown
  submitted : ∀ sub ∈ s.submissions,
    Holds (Owns sub.lease.item.utteranceId) sub.lease.token s.lifecycle.toSlotStore

theorem holds_owns_step {c : SpeechLifecycleCoordinator} {u : UtteranceId} {token : Token}
    (hwf : c.toSlotStore.Wellformed) (h : Holds (Owns u) token c.toSlotStore)
    (e : SpeechLifecycleCoordinator.Event) :
    Holds (Owns u) token (c.step cfg e).1.toSlotStore := by
  refine h.move hwf (fun g g' hown hev => ?_) (fun g hown _ => hown) (step_move cfg c e)
  rw [Owns, hev.identity]
  exact hown

/-- The lifecycle takes a step.  A lease that is kept has its generation kept, uninterrupted. -/
theorem Agreed.move (cfg : LifecycleConfig) (h : s.Agreed) (e : SpeechLifecycleCoordinator.Event)
    (hclose : e ≠ .connectionClosed) (hlife : s'.lifecycle = (s.lifecycle.step cfg e).1)
    (hactive : ∀ lease, s'.active = some lease → s.active = some lease ∧
      s'.lifecycle.generations lease.token ≠ none ∧ ∀ pause, e ≠ .recordInterruption lease.token pause)
    (hsubs : ∀ sub ∈ s'.submissions, ∃ t ∈ s.submissions, sub.lease = t.lease) : s'.Agreed := by
  have hwf := h.accountable.wellformed
  refine ⟨hlife ▸ h.accountable.step cfg e, ?_, fun lease hl => ?_, fun sub hsub => ?_⟩
  · rw [hlife, (step_move cfg s.lifecycle e).connectionClosed hclose]
    exact h.unclosed
  · obtain ⟨hold, hstored, hplain⟩ := hactive lease hl
    obtain ⟨g, hg, hid, hout⟩ := h.leased lease hold
    obtain ⟨g', hg'⟩ := Option.ne_none_iff_exists'.mp hstored
    rw [hlife] at hg'
    have hm := step_move cfg s.lifecycle e
    refine ⟨g', hlife ▸ hg', (hm.identity hwf hg hg').trans hid, ?_⟩
    rcases hm.outcome hwf hg hg' with heq | ⟨-, pause, he⟩
    · exact heq.trans hout
    · exact absurd he (hplain pause)
  · obtain ⟨t, ht, heq⟩ := hsubs sub hsub
    rw [hlife, heq]
    exact holds_owns_step hwf (h.submitted t ht) e

/-- The lease is given up. -/
theorem Agreed.idle (cfg : LifecycleConfig) (h : s.Agreed) (e : SpeechLifecycleCoordinator.Event)
    (hclose : e ≠ .connectionClosed) (hlife : s'.lifecycle = (s.lifecycle.step cfg e).1) (hnone : s'.active = none)
    (hsubs : s'.submissions = s.submissions) : s'.Agreed := by
  refine h.move cfg e hclose hlife (fun lease hl => ?_) (fun sub hsub => ⟨sub, hsubs ▸ hsub, rfl⟩)
  rw [hnone] at hl
  cases hl

/-- The store stays as it is. -/
theorem Agreed.frame (h : s.Agreed) (hstore : s'.lifecycle.toSlotStore = s.lifecycle.toSlotStore)
    (htrans : ∀ t ∈ s'.lifecycle.transitions, t ∈ s.lifecycle.transitions)
    (hactive : ∀ lease, s'.active = some lease → s.active = some lease)
    (hsubs : ∀ sub ∈ s'.submissions, sub ∈ s.submissions) : s'.Agreed where
  accountable := h.accountable.fewer hstore htrans
  unclosed := by rw [hstore, h.unclosed]
  leased := fun lease hl => by
    rw [hstore]
    exact h.leased lease (hactive lease hl)
  submitted := fun sub hsub => hstore ▸ h.submitted sub (hsubs sub hsub)

/-- The lease's token is in the slot. -/
theorem Agreed.slotToken (h : s.Agreed) (hl : s.active = some lease) :
    s.lifecycle.slotToken = some lease.token := by
  obtain ⟨g, hg, -⟩ := h.leased lease hl
  exact h.accountable.wellformed.occupant _ g hg

theorem Agreed.finish (h : s.Agreed) (caller : Caller) (ok : Bool) : (s.finish cfg caller ok).Agreed := by
  rcases caller with _ | id | _ | _
  · exact h
  · obtain ⟨hstore, htrans⟩ := s.lifecycle.terminalReported_toSlotStore cfg id ok
    exact h.frame hstore htrans (fun _ hl => hl) fun _ hsub => hsub
  · exact h
  · exact h

/-! ## The operations -/

theorem Agreed.deliver (h : s.Agreed) (d : DeliveryState) (disposition : DeliveryDisposition)
    (u : UtteranceId) : (s.deliver cfg d disposition u).Agreed := by
  rcases hl : s.activeLease u with _ | lease
  · rw [SpeechScheduler.deliver, hl]
    exact h
  · obtain ⟨hactive, rfl⟩ := activeLease_eq_some.mp hl
    rw [deliver_of_active hactive]
    exact h.idle cfg (.releaseGeneration lease.token true disposition) (by simp) rfl rfl rfl

theorem Agreed.interruptActive (h : s.Agreed) (hactive : s.active = some lease) (d : DeliveryState)
    (pause stale : Bool) (epoch : Option ℤ) :
    (s.interruptActive cfg lease d pause stale epoch).Agreed := by
  rw [interruptActive_of_active hactive]
  exact h.idle cfg (.recordInterruption lease.token pause) (by simp) rfl rfl rfl

/-- A fresh generation, handed to TTS. -/
theorem generations_handed (cfg : LifecycleConfig) (c : SpeechLifecycleCoordinator) (identity : GenerationIdentity) :
    ((c.upon (c.enter identity)).markHandedToTts cfg c.nextToken).generations c.nextToken
      = some { identity, phase := .handedToTts } := by
  have hlive : (c.upon (c.enter identity)).live c.nextToken = some { identity } := by
    simp [SlotStore.live, SlotStore.enter]
  simp only [markHandedToTts, hlive]
  simp [SlotStore.enter, SlotStore.modify]

/-- The head of a queue takes the free slot, and the lease. -/
theorem Agreed.submit (h : s.Agreed) (hfree : s.lifecycle.slotToken = none) (item : SpeechItem)
    (caller : Caller)
    (hlife : s'.lifecycle = s.lifecycle.upon (s.lifecycle.enter item.identity))
    (hsubs : s'.submissions = s.submissions) :
    (s'.submit cfg item s.lifecycle.nextToken caller).Agreed := by
  have hentered : s.lifecycle.upon (s.lifecycle.enter item.identity)
      = (s.lifecycle.step cfg (.tryAdmit item.identity)).1 := by
    simp [SpeechLifecycleCoordinator.step, tryAdmit, h.unclosed, hfree]
  have hgen := generations_handed cfg s.lifecycle item.identity
  rw [hentered] at hlife hgen
  have hentered := h.accountable.step cfg (.tryAdmit item.identity)
  have hmarked := hentered.step cfg (.markHandedToTts s.lifecycle.nextToken)
  have hlife' : (s'.submit cfg item s.lifecycle.nextToken caller).lifecycle
      = (SpeechLifecycleCoordinator.step cfg (s.lifecycle.step cfg (.tryAdmit item.identity)).1
        (.markHandedToTts s.lifecycle.nextToken)).1 := by
    simp only [SpeechScheduler.submit, emitProgress, hlife]
    rfl
  refine ⟨hlife' ▸ hmarked, ?_, fun lease hl => ?_, fun sub hsub => ?_⟩
  · rw [hlife', (step_move cfg _ _).connectionClosed (by simp), (step_move cfg _ _).connectionClosed (by simp)]
    exact h.unclosed
  · obtain rfl : lease = ⟨item, s.lifecycle.nextToken⟩ := by
      simpa [SpeechScheduler.submit, emitProgress, eq_comm] using hl
    refine ⟨{ identity := item.identity, phase := .handedToTts }, ?_, rfl, rfl⟩
    rw [hlife']
    exact hgen
  · rw [hlife']
    rcases List.mem_append.mp hsub with hold | hnew
    · exact holds_owns_step hentered.wellformed (holds_owns_step h.accountable.wellformed
        (h.submitted sub (hsubs ▸ hold)) _) _
    · obtain rfl := List.mem_singleton.mp hnew
      refine ⟨hmarked.wellformed.issued _ (hmarked.wellformed.occupant _ _ hgen), fun g hg => ?_⟩
      obtain rfl := Option.some.inj (hgen.symm.trans hg)
      rfl

theorem Agreed.startNext (h : s.Agreed) (acceptable : Bool) (key : Option String) (caller : Caller) :
    (s.startNext cfg acceptable key caller).1.Agreed := by
  have hstart := startNext_cases cfg s acceptable key caller
  generalize s.startNext cfg acceptable key caller = r at hstart
  rcases hstart with _ | ⟨s', ns, D, hshed, -, -, -⟩ |
    ⟨s', ns, D, rest, item, hshed, -, -, hfree, -, -, -⟩
  · exact h.finish caller true
  · have hsame : s'.Agreed := h.frame (by rw [hshed.lifecycle]) (by simp [hshed.lifecycle])
      (by simp [hshed.active]) (by simp [hshed.submissions])
    exact hsame.finish caller true
  · exact h.submit hfree item caller rfl hshed.submissions

theorem Agreed.speakReturns (h : s.Agreed) (id : ℕ) : (s.speakReturns cfg id).1.Agreed := by
  rw [SpeechScheduler.speakReturns]
  split
  · exact h
  · split_ifs
    · exact h
    · rename_i sub _ _
      have hdone : Agreed { s with submissions := s.submissions.erase sub } :=
        h.frame rfl (fun _ ht => ht) (fun _ hl => hl) fun _ => List.mem_of_mem_erase
      exact hdone.finish sub.caller true

/-- A lease keeps its generation at any event that frees no slot of its. -/
theorem Agreed.stored (cfg : LifecycleConfig) (h : s.Agreed) (e : SpeechLifecycleCoordinator.Event)
    (hl : s.active = some lease) (hfrees : ∀ g, ¬s.lifecycle.Frees lease.token g e)
    (hclose : e ≠ .connectionClosed) :
    (s.lifecycle.step cfg e).1.generations lease.token ≠ none := by
  intro hnone
  obtain ⟨g, hg, -⟩ := h.leased lease hl
  rcases (step_move cfg s.lifecycle e).left h.accountable.wellformed hg hnone with hR | he
  · exact hfrees g hR
  · exact hclose he

theorem Agreed.speakRaises (h : s.Agreed) (id : ℕ) : (s.speakRaises id).Agreed := by
  rw [SpeechScheduler.speakRaises]
  split
  · exact h
  · rename_i sub _
    split_ifs
    · exact h
    · refine h.move {} (.providerError sub.lease.token) (by simp) rfl
        (fun lease hl => ⟨hl, ?_, by simp⟩) ?_
      · exact h.stored {} (.providerError sub.lease.token) hl (fun g hR => hR) (by simp)
      · intro t ht
        obtain ⟨t', ht', rfl⟩ := List.mem_map.mp ht
        refine ⟨t', ht', ?_⟩
        split_ifs <;> rfl

theorem Agreed.scheduleQueueAdvance (h : s.Agreed) (exclude : String) :
    (s.scheduleQueueAdvance exclude).Agreed := by
  rw [SpeechScheduler.scheduleQueueAdvance]
  split_ifs
  · exact h
  · exact h.frame rfl (fun _ ht => ht) (fun _ hl => hl) fun _ hsub => hsub

theorem Agreed.submissionFails (h : s.Agreed) (id : ℕ) : (s.submissionFails cfg id).1.Agreed := by
  rw [SpeechScheduler.submissionFails]
  split
  · exact h
  rename_i sub hfind
  dsimp only
  split_ifs
  · exact h
  have hsub : sub ∈ s.submissions := List.mem_of_find?_eq_some hfind
  refine Agreed.finish (Agreed.scheduleQueueAdvance ?_ _) _ false
  rw [release_update]
  rcases hal : s.activeLease sub.lease.item.utteranceId with _ | lease
  · rw [release_of_ne hal]
    refine h.move cfg (.releaseGeneration sub.lease.token false .deliveryUnknown) (by simp) rfl
      (fun lease hl => ⟨hl, ?_, by simp⟩) fun t ht => ⟨t, List.mem_of_mem_erase ht, rfl⟩
    refine h.stored cfg (.releaseGeneration sub.lease.token false .deliveryUnknown) hl
      (fun g hR => ?_) (by simp)
    obtain ⟨g', hg', hid, -⟩ := h.leased lease hl
    have hown := (h.submitted sub hsub).2
    rw [show sub.lease.token = lease.token from hR] at hown
    have hu : lease.item.utteranceId = sub.lease.item.utteranceId := by
      rw [← hown g' hg', hid]
      rfl
    have hsome : s.activeLease sub.lease.item.utteranceId = some lease :=
      activeLease_eq_some.mpr ⟨hl, hu⟩
    rw [hsome] at hal
    cases hal
  · obtain ⟨hactive, hid⟩ := activeLease_eq_some.mp hal
    rw [← hid, release_of_active hactive]
    refine h.move cfg (.releaseGeneration sub.lease.token false .deliveryUnknown) (by simp) rfl
      (fun lease hl => ?_) fun t ht => ⟨t, List.mem_of_mem_erase ht, rfl⟩
    cases hl

theorem Agreed.runAdvance (h : s.Agreed) (acceptable : Bool) (id : ℕ) :
    (s.runAdvance cfg acceptable id).1.Agreed := by
  rw [SpeechScheduler.runAdvance]
  split
  · exact h
  · rename_i task _
    have hdone : Agreed { s with advances := s.advances.erase task } :=
      h.frame rfl (fun _ ht => ht) (fun _ hl => hl) fun _ hsub => hsub
    dsimp only
    split
    · exact hdone
    · exact hdone.startNext acceptable _ .advance

/-! ## What leaves the lease alone -/

/-- Queues, records and paused items may change, the lease does not. -/
structure Aside (s s' : SpeechScheduler) : Prop where
  lifecycle : s'.lifecycle = s.lifecycle
  active : s'.active = s.active
  submissions : s'.submissions = s.submissions

theorem Agreed.aside (h : s.Agreed) (ha : Aside s s') : s'.Agreed :=
  h.frame (by rw [ha.lifecycle]) (by simp [ha.lifecycle]) (by simp [ha.active]) (by simp [ha.submissions])

theorem aside_enqueue (s : SpeechScheduler) (r : SpeechRequest) : Aside s (s.enqueue r).1 := by
  rw [enqueue]
  split <;> exact ⟨rfl, rfl, rfl⟩

theorem aside_unpause (s : SpeechScheduler) (item : SpeechItem) : Aside s (s.unpause item) := by
  rw [unpause]
  split_ifs <;> exact ⟨rfl, rfl, rfl⟩

theorem Aside.trans {s'' : SpeechScheduler} (h : Aside s s') (h' : Aside s' s'') : Aside s s'' :=
  ⟨h'.lifecycle.trans h.lifecycle, h'.active.trans h.active, h'.submissions.trans h.submissions⟩

theorem aside_replay (s : SpeechScheduler) (item : SpeechItem) :
    let r : SpeechScheduler × List Notice := match s.enqueue item.replay with
      | (s', none) => (s', [])
      | (s', some replay) => (s'.emitProgress replay .resumed, [.enqueued replay])
    Aside s r.1 := by
  have h := aside_enqueue s item.replay
  rcases heq : s.enqueue item.replay with ⟨s', _ | replay⟩
  all_goals
    rw [heq] at h
    exact ⟨h.lifecycle, h.active, h.submissions⟩

theorem aside_resume (s : SpeechScheduler) (target : Target) : Aside s (s.resume target).1 := by
  rw [resume]
  split
  · exact ⟨rfl, rfl, rfl⟩
  rename_i item _
  have hun := aside_unpause s item
  have hreport : Aside s ((s.unpause item).emitProgress item .interrupted) :=
    ⟨hun.lifecycle, hun.active, hun.submissions⟩
  dsimp only
  split_ifs
  · exact hun
  · exact hreport.trans (aside_replay _ item)
  · exact hun.trans (aside_replay _ item)

theorem Agreed.cancel (h : s.Agreed) (key : Option String) : (s.cancel cfg key).1.Agreed := by
  have hlane : ∀ (s' : SpeechScheduler) (key : String), s'.Agreed → (s'.cancelLane key).Agreed :=
    fun _ _ h => h.aside ⟨rfl, rfl, rfl⟩
  have hpaused : ∀ (s' : SpeechScheduler) (key : String), s'.Agreed → (s'.cancelPaused key).Agreed :=
    fun _ _ h => h.aside ⟨rfl, rfl, rfl⟩
  have hrest : ∀ s' : SpeechScheduler, s'.Agreed → ∀ keys keys' : List String,
      (keys'.foldl cancelPaused (keys.foldl cancelLane s')).Agreed := fun s' h' keys keys' =>
    run_invariant_of_step hpaused (run_invariant_of_step hlane h' keys) keys'
  rw [SpeechScheduler.cancel]
  rcases hactive : s.active with _ | lease
  · exact hrest s h _ _
  dsimp only
  split_ifs
  · exact hrest _ (h.interruptActive hactive .interrupted false false none) _ _
  · exact hrest s h _ _

theorem Agreed.interrupt (h : s.Agreed) (epoch : Option ℤ) (reconnect fullStop : Bool) :
    (s.interrupt cfg epoch reconnect fullStop).1.Agreed := by
  have hsweep : ∀ (s' : SpeechScheduler) (d : DeliveryState), s'.Agreed → (s'.sweep d epoch).1.Agreed :=
    fun s' d h' => h'.aside ⟨rfl, rfl, rfl⟩
  rcases hactive : s.active with _ | lease <;> rcases hdiscarding : (reconnect || fullStop) with _ | _ <;>
    simp only [SpeechScheduler.interrupt, hactive, hdiscarding, Bool.false_eq_true, if_false, if_true]
  · exact h
  · exact hsweep s _ h
  · exact h.interruptActive hactive _ false false epoch
  · exact hsweep _ _ (h.interruptActive hactive _ false true epoch)

theorem Agreed.pause (h : s.Agreed) (key : String) : (s.pause cfg key).1.Agreed := by
  rcases pause_cases cfg s key with heq | ⟨lease, -, -, heq⟩
  · rw [heq]
    exact h
  · rw [heq]
    exact h.idle cfg (.recordInterruption lease.token true) (by simp) rfl rfl rfl

theorem aside_providerStarted (s : SpeechScheduler) (ctx : UtteranceId) :
    Aside s (s.providerStarted ctx) := by
  rw [providerStarted]
  split
  · exact ⟨rfl, rfl, rfl⟩
  · split_ifs <;> exact ⟨rfl, rfl, rfl⟩

theorem aside_synthesisEnded (s : SpeechScheduler) (u : UtteranceId) : Aside s (s.synthesisEnded u) := by
  rw [synthesisEnded]
  split <;> exact ⟨rfl, rfl, rfl⟩

theorem aside_providerSynthesisEnded (s : SpeechScheduler) (ctx : UtteranceId) :
    Aside s (s.providerSynthesisEnded ctx) := by
  rw [providerSynthesisEnded]
  split
  · exact ⟨rfl, rfl, rfl⟩
  · exact aside_synthesisEnded s _

theorem Agreed.providerDelivery (h : s.Agreed) (d : DeliveryState) (disposition : DeliveryDisposition)
    (ctx : UtteranceId) : (match s.providerLease ctx with
      | none => s
      | some lease =>
        (s.deliver cfg d disposition lease.item.utteranceId).forgetContext ctx).Agreed := by
  split
  · exact h
  · exact (h.deliver d disposition _).aside ⟨rfl, rfl, rfl⟩

end SpeechScheduler

end SubagentsLab

import SubagentsLab.Speech.Probe

/-!
# Speech/Advance — what a step does for the queues

On a live connection `start_next` takes the slot or finds the queues it looks at empty
(`startNext_of_live`).  An operation of the scheduler therefore **hands a queue over**: it takes the
slot, leaves the queue empty, or keeps every probe of it and, where it frees the slot, sees to one.  The
one exception is deliberate: a failed submission frees the slot without a probe of its own work item
(`handled_submissionFails`).
-/

namespace SubagentsLab

open Machinery

/-- The work item that speech was filed under. -/
def Notice.filedKey : Notice → Option String
  | .enqueued item => some item.workItemId
  | _ => none

namespace SpeechScheduler

open SpeechLifecycleCoordinator

variable {cfg : LifecycleConfig} {s s' s'' : SpeechScheduler} {key : String}

/-! ## `start_next` on a live connection -/

theorem scanLane_of_live (htts : cfg.ttsAvailable = true) (h : s.Agreed) (hfree : s.lifecycle.slotToken = none) (item : SpeechItem)
    (rest : List SpeechItem) :
    scanLane cfg true s (item :: rest) = ({ s with
      lifecycle := s.lifecycle.upon (s.lifecycle.enter item.identity) }, [],
        .admitted item s.lifecycle.nextToken) := by
  rw [scanLane, preAdmissionDisposition_of_live hfree htts h.unclosed]

/-- The first queue that is not empty is served. -/
theorem scanKeys_of_live (htts : cfg.ttsAvailable = true) (h : s.Agreed)
    (hfree : s.lifecycle.slotToken = none) (keys : List String) :
    (∃ item, scanKeys cfg true s keys = ({ s with
      lifecycle := s.lifecycle.upon (s.lifecycle.enter item.identity) }, [],
        .admitted item s.lifecycle.nextToken)) ∨
      ((∀ key ∈ keys, s.queues.lane key = []) ∧ scanKeys cfg true s keys = (s, [], .exhausted)) := by
  induction keys with
  | nil => exact Or.inr ⟨by simp, rfl⟩
  | cons key keys ih =>
    rcases hlane : s.queues.lane key with _ | ⟨item, rest⟩
    · simp only [scanKeys, hlane, scanLane, List.nil_append]
      rcases ih with ⟨item, ih⟩ | ⟨hempty, ih⟩
      · exact Or.inl ⟨item, by rw [ih]⟩
      · exact Or.inr ⟨by simpa [hlane] using hempty, by rw [ih]⟩
    · refine Or.inl ⟨item, ?_⟩
      rw [scanKeys, hlane, scanLane_of_live htts h hfree]

/-! ## What a step does for the queues -/

/-- Someone will look at the queue of `key` again. -/
def Probed (s : SpeechScheduler) (key : String) : Prop :=
  (∃ t ∈ s.lifecycle.transitions, t.point.calls = true) ∨ ∃ task ∈ s.advances, task.exclude ≠ key

/-- **A step hands the queue of `key` over**: the slot is taken, the queue is empty, or it was not
empty before, its probes are still coming, and if the slot was freed then one is; `failed` is the work
item whose submission failed. -/
def Handled (s s' : SpeechScheduler) (failed : Option String) (key : String) : Prop :=
  s'.lifecycle.slotToken.isSome = true ∨ s'.queues.lane key = [] ∨
    (s.queues.lane key ≠ [] ∧ (s.Probed key → s'.Probed key) ∧
      (s.lifecycle.slotToken.isSome = true → s'.Probed key ∨ failed = some key))

/-- Slot and probes are as they were, and no queue fills. -/
structure Unmoved (s s' : SpeechScheduler) : Prop where
  lifecycle : Steady s.lifecycle s'.lifecycle
  advances : ∀ task ∈ s.advances, task ∈ s'.advances
  lane : ∀ key, s'.queues.lane key ≠ [] → s.queues.lane key ≠ []
  discarded : s'.discarded = s.discarded

theorem Unmoved.refl (s : SpeechScheduler) : Unmoved s s := ⟨.refl _, fun _ h => h, fun _ h => h, rfl⟩

theorem Unmoved.trans (h : Unmoved s s') (h' : Unmoved s' s'') : Unmoved s s'' :=
  ⟨h.lifecycle.trans h'.lifecycle, fun task ht => h'.advances task (h.advances task ht),
    fun key hne => h.lane key (h'.lane key hne), h'.discarded.trans h.discarded⟩

theorem Unmoved.probed (h : Unmoved s s') (hp : s.Probed key) : s'.Probed key := by
  rcases hp with ⟨t, ht, hcalls⟩ | ⟨task, ht, hne⟩
  · exact Or.inl ⟨t, h.lifecycle.calls t ht hcalls, hcalls⟩
  · exact Or.inr ⟨task, h.advances task ht, hne⟩

/-- What does not fill a queue and frees no slot hands it over. -/
theorem handled_of_probed (hslot : s'.lifecycle.slotToken = s.lifecycle.slotToken)
    (hprobed : s.Probed key → s'.Probed key) (hlane : s'.queues.lane key ≠ [] → s.queues.lane key ≠ [])
    (failed : Option String) : Handled s s' failed key := by
  rcases hfree : s'.lifecycle.slotToken with _ | token
  · by_cases hempty : s'.queues.lane key = []
    · exact Or.inr (Or.inl hempty)
    · refine Or.inr (Or.inr ⟨hlane hempty, hprobed, fun hsome => ?_⟩)
      rw [← hslot, hfree] at hsome
      cases hsome
  · exact Or.inl (by rw [hfree]; rfl)

theorem Unmoved.handled (h : Unmoved s s') (failed : Option String) (key : String) :
    Handled s s' failed key :=
  handled_of_probed h.lifecycle.slotToken h.probed (h.lane key) failed

theorem unmoved_finish (cfg : LifecycleConfig) (s : SpeechScheduler) (caller : Caller) (ok : Bool) :
    Unmoved s (s.finish cfg caller ok) := by
  rcases caller with _ | id | _ | _
  · exact .refl s
  · exact ⟨steady_terminalReported s.lifecycle id ok, fun _ h => h, fun _ h => h, rfl⟩
  · exact .refl s
  · exact .refl s

/-- What follows a handover does not matter, if it moves nothing. -/
theorem Handled.andThen {failed : Option String} (h : Handled s s' failed key) (h' : Unmoved s' s'') :
    Handled s s'' failed key := by
  by_cases hlane : s''.queues.lane key = []
  · exact Or.inr (Or.inl hlane)
  rcases h with hslot | hempty | ⟨hold, hprobed, hfreed⟩
  · exact Or.inl (by rw [h'.lifecycle.slotToken, hslot])
  · exact absurd hempty (h'.lane key hlane)
  · exact Or.inr (Or.inr ⟨hold, fun hp => h'.probed (hprobed hp),
      fun hsome => (hfreed hsome).imp_left h'.probed⟩)

/-- **`start_next` on a live connection** takes the slot, or finds the queues it looks at empty. -/
theorem startNext_of_live (htts : cfg.ttsAvailable = true) (ha : s.Agreed) (key : Option String) (caller : Caller) :
    (s.startNext cfg true key caller).1.lifecycle.slotToken.isSome = true ∨
      ((∀ k ∈ key.elim s.queues.keys fun key => [key], s.queues.lane k = []) ∧
        Unmoved s (s.startNext cfg true key caller).1) := by
  have hagreed : (s.startNext cfg true key caller).1.Agreed := ha.startNext true key caller
  rw [startNext] at hagreed ⊢
  by_cases hbusy : (s.active.isSome || s.lifecycle.slotToken.isSome) = true
  · rw [if_pos hbusy]
    refine Or.inl ?_
    rw [(unmoved_finish cfg s caller true).lifecycle.slotToken]
    rcases Bool.or_eq_true_iff.mp hbusy with hactive | hslot
    · obtain ⟨lease, hl⟩ := Option.isSome_iff_exists.mp hactive
      rw [ha.slotToken hl]
      rfl
    · exact hslot
  · obtain ⟨-, hfree⟩ : s.active = none ∧ s.lifecycle.slotToken = none := by simpa using hbusy
    rw [if_neg hbusy] at hagreed ⊢
    rcases scanKeys_of_live htts ha hfree (key.elim s.queues.keys fun key => [key]) with
      ⟨item, hscan⟩ | ⟨hempty, hscan⟩
    · rw [hscan] at hagreed ⊢
      exact Or.inl (by rw [hagreed.slotToken rfl]; rfl)
    · rw [hscan]
      exact Or.inr ⟨hempty, unmoved_finish cfg s caller true⟩

/-- Looking at every queue leaves none to wait. -/
theorem startNext_none_of_live (htts : cfg.ttsAvailable = true) (ha : s.Agreed) (caller : Caller) :
    (s.startNext cfg true none caller).1.lifecycle.slotToken.isSome = true ∨
      ∀ k, (s.startNext cfg true none caller).1.queues.lane k = [] := by
  rcases startNext_of_live htts ha none caller with hslot | ⟨hempty, hmoved⟩
  · exact Or.inl hslot
  · refine Or.inr fun k => ?_
    by_contra hne
    have hold := hmoved.lane k hne
    exact hold (hempty k (Lanes.mem_keys.mpr hold))

theorem discarded_startNext (s : SpeechScheduler) (acceptable : Bool) (key : Option String)
    (caller : Caller) : (s.startNext cfg acceptable key caller).1.discarded = s.discarded := by
  have hstart := startNext_cases cfg s acceptable key caller
  generalize s.startNext cfg acceptable key caller = r at hstart
  rcases hstart with _ | ⟨s', _, _, hshed, -, -, -⟩ | ⟨s', _, _, _, _, hshed, -, -, -, -, -, -⟩
  · exact (unmoved_finish cfg s caller true).discarded
  · rw [(unmoved_finish cfg s' caller true).discarded, hshed.frame]
    rfl
  · change s'.discarded = s.discarded
    rw [hshed.frame]
    rfl

/-! ## The operations -/

/-- Speech is filed under some work items; nothing else comes of it. -/
structure Files (s s' : SpeechScheduler) (keys : List String) : Prop where
  lifecycle : s'.lifecycle = s.lifecycle
  advances : s'.advances = s.advances
  discarded : s'.discarded = s.discarded
  lane : ∀ key, key ∉ keys → s'.queues.lane key = s.queues.lane key

theorem Files.probed {keys : List String} (h : Files s s' keys) (hp : s.Probed key) : s'.Probed key := by
  rw [Probed, h.lifecycle, h.advances]
  exact hp

theorem Files.handled {keys : List String} (h : Files s s' keys) (failed : Option String) (key : String) :
    key ∈ keys ∨ Handled s s' failed key := by
  by_cases hkey : key ∈ keys
  · exact Or.inl hkey
  · refine Or.inr (handled_of_probed (by rw [h.lifecycle]) h.probed ?_ failed)
    rw [h.lane key hkey]
    exact id

/-- What an operation that only rewrites reports does before speech is filed. -/
theorem Files.after {keys : List String} (h : Files s' s'' keys) (hlifecycle : s'.lifecycle = s.lifecycle)
    (hadvances : s'.advances = s.advances) (hdiscarded : s'.discarded = s.discarded)
    (hqueues : s'.queues = s.queues) : Files s s'' keys :=
  ⟨h.lifecycle.trans hlifecycle, h.advances.trans hadvances, h.discarded.trans hdiscarded,
    fun key hkey => (h.lane key hkey).trans (by rw [hqueues])⟩

theorem files_enqueue (s : SpeechScheduler) (r : SpeechRequest) :
    Files s (s.enqueue r).1 (((s.enqueue r).2.map Notice.enqueued).toList.filterMap Notice.filedKey) := by
  rcases hitem : r.item? s.nextUtterance with _ | item
  · simp only [enqueue, hitem]
    exact ⟨rfl, rfl, rfl, fun _ _ => rfl⟩
  · simp only [enqueue, hitem]
    refine ⟨rfl, rfl, rfl, fun key hkey => ?_⟩
    have hne : key ≠ item.workItemId := by simpa [Notice.filedKey] using hkey
    change (s.queues.push item).lane key = s.queues.lane key
    rw [Lanes.lane_push, if_neg hne]

theorem files_resume (s : SpeechScheduler) (target : Target) :
    Files s (s.resume target).1 ((s.resume target).2.filterMap Notice.filedKey) := by
  rw [resume]
  split
  · exact ⟨rfl, rfl, rfl, fun _ _ => rfl⟩
  rename_i item _
  have hun : ∀ {s' keys}, Files (s.unpause item) s' keys → Files s s' keys := by
    intro s' keys h
    rw [unpause] at h
    split_ifs at h <;> exact h.after rfl rfl rfl rfl
  have hreplay : ∀ s' : SpeechScheduler,
      Files s' (s'.enqueueReplay item).1 ((s'.enqueueReplay item).2.filterMap Notice.filedKey) := by
    intro s'
    have h := files_enqueue s' item.replay
    rw [enqueueReplay]
    rcases heq : s'.enqueue item.replay with ⟨s'', _ | replay⟩
    all_goals
      rw [heq] at h
      exact ⟨h.lifecycle, h.advances, h.discarded, h.lane⟩
  dsimp only
  split_ifs
  · exact hun ⟨rfl, rfl, rfl, fun _ _ => rfl⟩
  · exact hun ((hreplay _).after rfl rfl rfl rfl)
  · exact hun (hreplay _)

theorem unmoved_speakReturns (s : SpeechScheduler) (id : ℕ) : Unmoved s (s.speakReturns cfg id).1 := by
  rw [speakReturns]
  split
  · exact .refl s
  · rename_i sub _
    split_ifs
    · exact .refl s
    · have hdone : Unmoved s { s with submissions := s.submissions.erase sub } :=
        ⟨.refl _, fun _ h => h, fun _ h => h, rfl⟩
      exact hdone.trans (unmoved_finish cfg _ sub.caller true)

theorem unmoved_speakRaises (s : SpeechScheduler) (id : ℕ) : Unmoved s (s.speakRaises id) := by
  rw [speakRaises]
  split
  · exact .refl s
  · rename_i sub _
    split_ifs
    · exact .refl s
    · exact ⟨(quiet_providerError s.lifecycle sub.lease.token).steady, fun _ h => h, fun _ h => h, rfl⟩

theorem unmoved_interruptActive {lease : UtteranceLease} (hactive : s.active = some lease)
    (d : DeliveryState) (pause stale : Bool) (epoch : Option ℤ) :
    Unmoved s (s.interruptActive cfg lease d pause stale epoch) := by
  rw [interruptActive_of_active hactive]
  exact ⟨steady_recordInterruption s.lifecycle lease.token pause, fun _ h => h, fun _ h => h, rfl⟩

theorem unmoved_pause (s : SpeechScheduler) (key : String) : Unmoved s (s.pause cfg key).1 := by
  rcases pause_cases cfg s key with heq | ⟨lease, -, -, heq⟩
  · rw [heq]
    exact .refl s
  · rw [heq]
    exact ⟨steady_recordInterruption s.lifecycle lease.token true, fun _ h => h, fun _ h => h, rfl⟩

/-- A plain interruption. -/
theorem unmoved_interrupt (s : SpeechScheduler) (epoch : Option ℤ) :
    Unmoved s (s.interrupt cfg epoch false false).1 := by
  rcases hactive : s.active with _ | lease
  · simp only [interrupt, hactive]
    exact .refl s
  · simp only [interrupt, hactive]
    exact unmoved_interruptActive hactive .interrupted false false epoch

theorem unmoved_keep (s : SpeechScheduler) (key : String) (p : SpeechItem → Bool) :
    Unmoved s { s with queues := s.queues.keep key p } := by
  refine ⟨.refl _, fun _ h => h, fun k hne => ?_, rfl⟩
  rw [Lanes.lane_keep] at hne
  split_ifs at hne with heq
  · rw [heq]
    intro hempty
    rw [hempty] at hne
    exact hne rfl
  · exact hne

theorem unmoved_discardQueuedNotice (s : SpeechScheduler) (key : String) :
    Unmoved s (s.discardQueuedNotice key) := by
  refine (unmoved_keep s key fun item => !decide (item.role = .timeoutNotice)).trans ?_
  exact ⟨.refl _, fun _ h => h, fun _ h => h, rfl⟩

theorem unmoved_cancel (s : SpeechScheduler) (key : Option String) : Unmoved s (s.cancel cfg key).1 := by
  have hlane : ∀ (s' : SpeechScheduler) (key : String), Unmoved s s' → Unmoved s (s'.cancelLane key) := by
    refine fun s' key h => ⟨h.lifecycle, h.advances, fun k hne => h.lane k ?_, h.discarded⟩
    change (s'.queues.pop key).lane k ≠ [] at hne
    rw [Lanes.lane_pop] at hne
    split_ifs at hne with heq
    · exact absurd rfl hne
    · exact hne
  have hpaused : ∀ (s' : SpeechScheduler) (key : String), Unmoved s s' →
      Unmoved s (s'.cancelPaused key) := fun s' key h => ⟨h.lifecycle, h.advances, h.lane, h.discarded⟩
  have hrest : ∀ s' : SpeechScheduler, Unmoved s s' → ∀ keys keys' : List String,
      Unmoved s (keys'.foldl cancelPaused (keys.foldl cancelLane s')) := fun s' h' keys keys' =>
    run_invariant_of_step hpaused (run_invariant_of_step hlane h' keys) keys'
  rw [cancel]
  rcases hactive : s.active with _ | lease
  · exact hrest s (.refl s) _ _
  dsimp only
  split_ifs
  · exact hrest _ (unmoved_interruptActive hactive .interrupted false false none) _ _
  · exact hrest s (.refl s) _ _

/-- A delivery that is over has the terminal callback scheduled. -/
theorem handled_deliver (s : SpeechScheduler) (d : DeliveryState) (disposition : DeliveryDisposition)
    (u : UtteranceId) (failed : Option String) (key : String) :
    Handled s (s.deliver cfg d disposition u) failed key := by
  rcases hl : s.activeLease u with _ | lease
  · rw [deliver, hl]
    exact (Unmoved.refl s).handled failed key
  obtain ⟨hactive, rfl⟩ := activeLease_eq_some.mp hl
  rw [deliver_of_active hactive]
  rcases hlive : s.lifecycle.live lease.token with _ | g
  · rw [releaseGeneration_of_none hlive]
    exact Unmoved.handled ⟨.refl _, fun _ h => h, fun _ h => h, rfl⟩ failed key
  · rw [releaseGeneration_of_some hlive, if_pos rfl]
    by_cases hlane : s.queues.lane key = []
    · exact Or.inr (Or.inl hlane)
    have hcall : Probed { s with
        state := s.state.emit d false none lease.item
        lifecycle := ((s.lifecycle.cancelTimer lease.token).upon (s.lifecycle.reap cfg lease.token g)).schedule
          (.callOnTerminal lease.token g.identity (g.disposition.getD disposition))
        active := none
        providerContexts := s.contextsWithout lease.token } key :=
      Or.inl ⟨_, List.mem_append_right _ (List.mem_singleton_self _), rfl⟩
    exact Or.inr (Or.inr ⟨hlane, fun _ => hcall, fun _ => Or.inl hcall⟩)

theorem discarded_deliver (s : SpeechScheduler) (d : DeliveryState) (disposition : DeliveryDisposition)
    (u : UtteranceId) : (s.deliver cfg d disposition u).discarded = s.discarded := by
  rcases hl : s.activeLease u with _ | lease
  · rw [deliver, hl]
  · obtain ⟨hactive, rfl⟩ := activeLease_eq_some.mp hl
    rw [deliver_of_active hactive]

theorem release_fields (s : SpeechScheduler) (u : UtteranceId) : (s.release u).queues = s.queues ∧
    (s.release u).advances = s.advances ∧ (s.release u).discarded = s.discarded := by
  rw [release]
  split
  · exact ⟨rfl, rfl, rfl⟩
  · split_ifs <;> exact ⟨rfl, rfl, rfl⟩

theorem discarded_submissionFails (s : SpeechScheduler) (id : ℕ) :
    (s.submissionFails cfg id).1.discarded = s.discarded := by
  rw [submissionFails]
  split
  · rfl
  rename_i sub _
  dsimp only
  split_ifs
  · rfl
  · rw [(unmoved_finish cfg _ sub.caller false).discarded, scheduleQueueAdvance, release_update]
    split_ifs <;> exact (s.release_fields _).2.2

/-- Forgetting a context moves nothing. -/
theorem unmoved_forgetContext (s : SpeechScheduler) (ctx : UtteranceId) : Unmoved s (s.forgetContext ctx) :=
  ⟨.refl _, fun _ ht => ht, fun _ hne => hne, rfl⟩

theorem unmoved_emitProgress (s : SpeechScheduler) (item : SpeechItem) (d : DeliveryState) :
    Unmoved s (s.emitProgress item d) := ⟨.refl _, fun _ ht => ht, fun _ hne => hne, rfl⟩

theorem unmoved_synthesisEnded (s : SpeechScheduler) (u : UtteranceId) :
    Unmoved s (s.synthesisEnded u) := by
  rw [synthesisEnded]
  split
  · exact .refl s
  · exact unmoved_emitProgress s _ _

theorem unmoved_providerSynthesisEnded (s : SpeechScheduler) (ctx : UtteranceId) :
    Unmoved s (s.providerSynthesisEnded ctx) := by
  rw [providerSynthesisEnded]
  split
  · exact .refl s
  · exact unmoved_synthesisEnded s _

theorem unmoved_providerStarted (s : SpeechScheduler) (ctx : UtteranceId) :
    Unmoved s (s.providerStarted ctx) := by
  rw [providerStarted]
  split
  · exact .refl s
  · split_ifs
    · exact .refl s
    · exact ⟨.refl _, fun _ ht => ht, fun _ hne => hne, rfl⟩

/-- A failed submission that does not hold the slot leaves it alone. -/
theorem slotToken_releaseGeneration_of_ne {c : SpeechLifecycleCoordinator} {token : Token}
    (hne : c.slotToken ≠ some token) (d : DeliveryDisposition) :
    (c.releaseGeneration cfg token false d).slotToken = c.slotToken := by
  rcases hlive : c.live token with _ | g
  · rw [releaseGeneration_of_none hlive]
  · rw [releaseGeneration_of_some hlive]
    exact if_neg hne

/-- A failed submission frees the slot for every other work item. -/
theorem handled_submissionFails (hkeep : s.discarded = false) (id : ℕ) (key : String) :
    Handled s (s.submissionFails cfg id).1
      ((s.slotHolder? id).map (·.lease.item.workItemId)) key := by
  rw [submissionFails, slotHolder?]
  rcases hsub : s.submission? id with _ | sub
  · exact (Unmoved.refl s).handled _ key
  dsimp only
  split_ifs
  · exact (Unmoved.refl s).handled _ key
  refine Handled.andThen ?_ (unmoved_finish cfg _ sub.caller false)
  rw [release_update]
  obtain ⟨hqueues, hadvances, hdiscarded⟩ := s.release_fields sub.lease.item.utteranceId
  rw [scheduleQueueAdvance, if_neg (by simp [hdiscarded, hkeep])]
  have htrans : (s.lifecycle.releaseGeneration cfg sub.lease.token false .deliveryUnknown).transitions
      = s.lifecycle.transitions := by
    rcases hlive : s.lifecycle.live sub.lease.token with _ | g
    · rw [releaseGeneration_of_none hlive]
    · rw [releaseGeneration_of_some hlive]
      rfl
  have hprobed : ∀ queued : Advance, s.Probed key →
      (∃ t ∈ (s.lifecycle.releaseGeneration cfg sub.lease.token false .deliveryUnknown).transitions,
        t.point.calls = true) ∨
      ∃ task ∈ (s.release sub.lease.item.utteranceId).advances ++ [queued], task.exclude ≠ key := by
    rintro queued (⟨t, ht, hcalls⟩ | ⟨task, ht, hne⟩)
    · exact Or.inl ⟨t, htrans ▸ ht, hcalls⟩
    · exact Or.inr ⟨task, List.mem_append_left _ (hadvances ▸ ht), hne⟩
  by_cases hholds : s.lifecycle.slotToken = some sub.lease.token
  · by_cases hlane : s.queues.lane key = []
    · exact Or.inr (Or.inl (by rw [← hlane, ← hqueues]))
    refine Or.inr (Or.inr ⟨hlane, hprobed _, fun _ => ?_⟩)
    rcases eq_or_ne sub.lease.item.workItemId key with rfl | hne
    · exact Or.inr (by simp [hholds])
    · exact Or.inl (Or.inr ⟨_, List.mem_append_right _ (List.mem_singleton_self _), hne⟩)
  · refine handled_of_probed (slotToken_releaseGeneration_of_ne hholds _) (hprobed _) (fun hne => ?_) _
    rwa [← hqueues]

theorem discarded_runAdvance (s : SpeechScheduler) (acceptable : Bool) (id : ℕ) :
    (s.runAdvance cfg acceptable id).1.discarded = s.discarded := by
  rw [runAdvance]
  split
  · rfl
  · dsimp only
    split
    · rfl
    · exact discarded_startNext _ acceptable _ .advance

/-- A queue-advance task looks at the first queue that is not its own. -/
theorem handled_runAdvance (htts : cfg.ttsAvailable = true) (ha : s.Agreed) (id : ℕ) (key : String) :
    Handled s (s.runAdvance cfg true id).1 none key := by
  rw [runAdvance]
  split
  · exact (Unmoved.refl s).handled none key
  rename_i task htask
  set s₁ : SpeechScheduler := { s with advances := s.advances.erase task } with hs₁
  have hagreed : s₁.Agreed := ha.frame rfl (fun _ ht => ht) (fun _ hl => hl) fun _ hsub => hsub
  dsimp only
  split
  · rename_i hnone
    rcases hslot : s.lifecycle.slotToken with _ | token
    · by_cases hlane : s.queues.lane key = []
      · exact Or.inr (Or.inl hlane)
      -- No queue but the task's own is left, so this task was no probe of it.
      have hkey : task.exclude = key := by
        have := List.find?_eq_none.mp hnone key (Lanes.mem_keys.mpr hlane)
        simp only [ne_eq, decide_not, Bool.not_eq_true', decide_eq_false_iff_not, not_not] at this
        exact this.symm
      refine Or.inr (Or.inr ⟨hlane, fun hp => ?_, fun hsome => ?_⟩)
      · rcases hp with hcalls | ⟨task', ht', hne⟩
        · exact Or.inl hcalls
        · refine Or.inr ⟨task', (List.mem_erase_of_ne ?_).mpr ht', hne⟩
          rintro rfl
          exact hne hkey
      · rw [hslot] at hsome
        cases hsome
    · exact Or.inl (by change s.lifecycle.slotToken.isSome = true; rw [hslot]; rfl)
  · rename_i other hother
    rcases startNext_of_live htts hagreed (some other) .advance with hslot | ⟨hempty, -⟩
    · exact Or.inl hslot
    · exact absurd (hempty other (by simp))
        (Lanes.mem_keys.mp (List.mem_of_find?_eq_some hother))

end SpeechScheduler

end SubagentsLab

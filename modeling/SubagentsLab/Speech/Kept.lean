import SubagentsLab.Speech.Custody

/-!
# Speech/Kept — conservation over whole runs

Each utterance filed is held in exactly one place while its record is open, and nowhere once it is
closed: in any run of a connection whose steps are `careful`, the only exception is the interval in
which a failed `start_next` has reported the utterance and not yet released it (`speech_conserved`).
Without care two orders of events break this (`pause_strands_item`).
-/

namespace SubagentsLab

open Machinery

namespace SpeechScheduler

variable {s : SpeechScheduler} {cfg : LifecycleConfig}

/-- **The utterance is accounted for**: held once while its record is open, nowhere once it is
closed. -/
def Kept (s : SpeechScheduler) (item : SpeechItem) : Prop :=
  (s.state.standing item.utteranceId = some false ∧ item ∈ s.held ∧ s.places item.utteranceId = 1) ∨
    (s.state.standing item.utteranceId = some true ∧ s.places item.utteranceId = 0)

instance (s : SpeechScheduler) (item : SpeechItem) : Decidable (s.Kept item) :=
  inferInstanceAs (Decidable (_ ∨ _))

theorem Conserved.places_eq_one (hc : s.Conserved) {item : SpeechItem} (hi : item ∈ s.held) :
    s.places item.utteranceId = 1 := by
  rw [places, List.countP_eq_length_filter, List.length_eq_one_iff]
  refine ⟨item, ?_⟩
  have hnodup : s.held.Nodup := hc.nodup.of_map _
  have hfilter : (s.held.filter fun x => x.utteranceId = item.utteranceId)
      = s.held.filter fun x => x = item := by
    refine List.filter_congr fun x hx => ?_
    exact decide_eq_decide.mpr ⟨fun h => hc.eq_of_utteranceId hx hi h, fun h => h ▸ rfl⟩
  rw [hfilter, List.filter_eq, List.count_eq_one_of_mem hnodup hi]
  rfl

/-- **A sound scheduler keeps every utterance on record, but those that are failing.** -/
theorem Sound.kept_iff (hs : s.Sound) {item : SpeechItem} (hack : item.isAck = false)
    (hrecord : s.state.standing item.utteranceId ≠ none)
    (hsame : ∀ x ∈ s.held, x.utteranceId = item.utteranceId → x = item) :
    s.Kept item ↔ ¬s.Failing item.utteranceId := by
  have hc := hs.conserved
  constructor
  · rintro (⟨hopen, -, -⟩ | ⟨hclosed, hnone⟩) ⟨⟨lease, hlease, hid⟩, sub, hsub, hfail, hsid⟩
    · have hmem := mem_held_of_active hlease
      have heq := hc.identified sub hsub lease.item hmem (hid.trans hsid.symm)
      have hack' : sub.lease.item.isAck = false := by rw [← heq, hsame _ hmem hid, hack]
      exact hc.failed sub hsub hfail hack' (hsid ▸ hopen)
    · rw [← hid, hc.places_eq_one (mem_held_of_active hlease)] at hnone
      cases hnone
  · intro hfail
    rcases hst : s.state.standing item.utteranceId with _ | _ | _
    · exact absurd hst hrecord
    · obtain ⟨x, hx, -, hid⟩ := mem_voiced.mp (hc.reachable _ hst)
      obtain rfl := hsame x hx hid
      exact Or.inl ⟨hst, hx, hc.places_eq_one hx⟩
    · refine Or.inr ⟨hst, List.countP_eq_zero.mpr fun x hx hid => hfail ?_⟩
      obtain rfl := hsame x hx (of_decide_eq_true hid)
      rcases hc.accounted x hx hack with hopen | ⟨-, h⟩
      · rw [hst] at hopen
        cases hopen
      · exact h

/-! ## What files an utterance -/

/-- No utterance is filed. -/
def Unfiled (ns : List Notice) : Prop := ∀ item, .enqueued item ∉ ns

theorem unfiled_nil : Unfiled [] := fun _ => List.not_mem_nil

theorem Unfiled.append {ns ns' : List Notice} (h : Unfiled ns) (h' : Unfiled ns') :
    Unfiled (ns ++ ns') := fun item hn => (List.mem_append.mp hn).elim (h item) (h' item)

theorem OnlyAcks.unfiled {ns : List Notice} (h : OnlyAcks ns) : Unfiled ns := fun item hn => by
  obtain ⟨_, _, heq⟩ := h _ hn
  cases heq

theorem unfiled_startNext (s : SpeechScheduler) (acceptable : Bool) (key : Option String)
    (caller : Caller) : Unfiled (s.startNext cfg acceptable key caller).2 := by
  have hstart := startNext_cases cfg s acceptable key caller
  generalize s.startNext cfg acceptable key caller = r at hstart
  rcases hstart with _ | ⟨_, _, _, _, hns⟩ | ⟨_, _, _, _, _, _, hns⟩
  · simp [Unfiled]
  · exact hns.onlyAcks.unfiled.append (by simp [Unfiled])
  · exact hns.onlyAcks.unfiled.append (by simp [Unfiled])

theorem unfiled_interrupt (s : SpeechScheduler) (epoch : Option ℤ) (reconnect fullStop : Bool) :
    Unfiled (s.interrupt cfg epoch reconnect fullStop).2 := by
  have hsweep : ∀ (s : SpeechScheduler) d, Unfiled (s.sweep d epoch).2 := fun s d =>
    (onlyAcks_sweep .connectionClosed _).unfiled
  rcases hactive : s.active with _ | lease <;> rcases hdiscarding : (reconnect || fullStop) with _ | _ <;>
    simp only [interrupt, hactive, hdiscarding, Bool.false_eq_true, if_false, if_true]
  · exact unfiled_nil
  · exact unfiled_nil.append (hsweep _ _)
  · simp [Unfiled]
  · exact Unfiled.append (by simp [Unfiled]) (hsweep _ _)

theorem unfiled_cancel (s : SpeechScheduler) (key : Option String) : Unfiled (s.cancel cfg key).2 := by
  rw [cancel]
  refine Unfiled.append ?_ (onlyAcks_sweep .cancelled _).unfiled
  split
  · exact unfiled_nil
  · split_ifs
    · simp [Unfiled]
    · exact unfiled_nil

theorem unfiled_speakReturns (s : SpeechScheduler) (id : ℕ) : Unfiled (s.speakReturns cfg id).2 := by
  rw [speakReturns]
  split
  · exact unfiled_nil
  · split_ifs
    · exact unfiled_nil
    · simp [Unfiled]

theorem unfiled_submissionFails (s : SpeechScheduler) (id : ℕ) :
    Unfiled (s.submissionFails cfg id).2 := by
  rw [submissionFails]
  split
  · exact unfiled_nil
  · dsimp only
    split_ifs
    · exact unfiled_nil
    · simp [Unfiled]

theorem unfiled_pause (s : SpeechScheduler) (key : String) : Unfiled (s.pause cfg key).2 := by
  rcases pause_cases cfg s key with h | ⟨lease, -, -, h⟩ <;> simp [h, Unfiled]

theorem carries_runAdvance (hs : s.Sound) (acceptable : Bool) (id : ℕ) :
    Carries s (s.runAdvance cfg acceptable id).1 ∧ Unfiled (s.runAdvance cfg acceptable id).2 := by
  rw [runAdvance]
  split
  · exact ⟨.refl hs, unfiled_nil⟩
  rename_i task _
  have hdone : Carries s { s with advances := s.advances.erase task } :=
    Shift.carries (D := []) ⟨by simp [held], fun _ hi => hi, fun _ _ => Or.inl, fun _ hl _ => Or.inl hl,
      fun _ => by simp, fun _ _ hq _ => hq, rfl, rfl, rfl⟩ hs
  dsimp only
  split
  · exact ⟨hdone, unfiled_nil⟩
  · exact ⟨hdone.trans (carries_startNext hdone.sound _ _ _), unfiled_startNext _ _ _ _⟩

end SpeechScheduler

/-! ## One step -/

namespace ConnectionPipeline

open SpeechScheduler

variable {cfg : LifecycleConfig} {p : ConnectionPipeline}

theorem carries_report (cfg : LifecycleConfig) (hs : p.scheduler.Sound) (identity : GenerationIdentity)
    (disposition : DeliveryDisposition) : Carries p.scheduler (p.report cfg identity disposition) := by
  rw [report]
  split_ifs
  · exact carries_of_shift (shift_deliver cfg hs.timely rfl _ _) hs
  · exact .refl hs

/-- The terminal callback conserves speech and files none. -/
theorem carries_onLifecycleTerminal (cfg : LifecycleConfig) (hs : p.scheduler.Sound) (id : ℕ)
    (identity : GenerationIdentity) (disposition : DeliveryDisposition) :
    Carries p.scheduler (p.onLifecycleTerminal cfg id identity disposition).1.scheduler ∧
      Unfiled (p.onLifecycleTerminal cfg id identity disposition).2 := by
  have hreport := carries_report cfg hs identity disposition
  rw [onLifecycleTerminal]
  split_ifs
  · exact ⟨carries_finish hs (.terminal id) true, unfiled_nil⟩
  · exact ⟨hreport.trans (carries_startNext hreport.sound p.acceptable none (.terminal id)),
      unfiled_startNext _ p.acceptable none (.terminal id)⟩
  · exact ⟨hreport.trans (carries_finish hreport.sound (.terminal id) true), unfiled_nil⟩

/-- So do the callbacks of one step of the lifecycle. -/
theorem carries_react (cfg : LifecycleConfig) (effects : List Effect) (hs : p.scheduler.Sound) :
    Carries p.scheduler (p.react cfg effects).1.scheduler ∧ Unfiled (p.react cfg effects).2 := by
  induction effects generalizing p with
  | nil => exact ⟨.refl hs, unfiled_nil⟩
  | cons effect effects ih =>
    rcases effect with _ | _ | ⟨id, token, identity, disposition⟩
    · rw [react]
      exact ih hs
    · rw [react]
      exact ih (p := { p with active := false }) hs
    · obtain ⟨hcall, hns⟩ := carries_onLifecycleTerminal cfg hs id identity disposition
      obtain ⟨hrest, hns'⟩ := ih hcall.sound
      rw [react]
      exact ⟨hcall.trans hrest, hns.append hns'⟩

theorem carries_receive (cfg : LifecycleConfig) (hs : p.scheduler.Sound) (sig : Signal) :
    Carries p.scheduler (p.receive cfg sig).1.scheduler ∧ Unfiled (p.receive cfg sig).2 := by
  have hmoved := ((Shift.refl p.scheduler).lifecycle
    (p.scheduler.lifecycle.step cfg sig.event).1).carries hs
  rw [receive]
  obtain ⟨hrest, hns⟩ := carries_react cfg
    (p := { p with scheduler := { p.scheduler with lifecycle := (p.scheduler.lifecycle.step cfg sig.event).1 } })
    (p.scheduler.lifecycle.step cfg sig.event).2 hmoved.sound
  exact ⟨hmoved.trans hrest, hns⟩

/-- The step loses no utterance: what it files is of the active epoch, a plain interruption is heard,
a pause overwrites none, and no submission fails for an item that is paused. -/
def careful (p : ConnectionPipeline) : Event → Bool
  | .enqueue r => r.role = .ack || r.originEpoch = p.scheduler.state.activeEpoch
  | .resume target => p.scheduler.resumes target
  | .interrupt epoch reconnect fullStop =>
    reconnect || fullStop || epoch.isNone || epoch = p.scheduler.state.activeEpoch
  | .pause key => p.scheduler.pausable key
  | .speakRaises id => (p.scheduler.submission? id).all fun sub =>
    sub.lease.item.isAck || decide (sub.lease.item ∉ p.scheduler.paused.values)
  | _ => true

/-- **A careful step conserves speech, and holds what it files.** -/
theorem carries_step (cfg : LifecycleConfig) (hs : p.scheduler.Sound) {e : Event} (he : p.careful e = true) :
    Carries p.scheduler (p.step cfg e).1.scheduler ∧
      ∀ item, .enqueued item ∈ (p.step cfg e).2 → item ∈ (p.step cfg e).1.scheduler.held := by
  have quiet : ∀ {r : ConnectionPipeline × List Notice}, Carries p.scheduler r.1.scheduler →
      Unfiled r.2 → Carries p.scheduler r.1.scheduler ∧
        ∀ item, .enqueued item ∈ r.2 → item ∈ r.1.scheduler.held :=
    fun hcarry hns => ⟨hcarry, fun item hitem => absurd hitem (hns item)⟩
  have shifted : ∀ {s'}, (∃ D, Shift p.scheduler s' D) → Carries p.scheduler s' := fun h =>
    carries_of_shift h hs
  cases e with
  | enqueue r =>
    obtain ⟨hcarry, hnew⟩ := carries_enqueue (r := r) hs fun hrole => by
      simpa [careful, hrole] using he
    exact ⟨hcarry, fun item hitem => hnew item (by simpa [step, upon] using hitem)⟩
  | startNext key => exact quiet (carries_startNext hs _ key .owner) (unfiled_startNext _ _ key .owner)
  | startAck id key =>
    exact quiet (carries_startNext hs _ (some key) (.admission id)) (unfiled_startNext _ _ _ _)
  | speakReturns id => exact quiet (carries_speakReturns hs id) (unfiled_speakReturns _ id)
  | speakRaises id =>
    refine quiet (carries_speakRaises hs fun sub hsub hack => ?_) unfiled_nil
    simpa [careful, hsub, hack] using he
  | submissionFails id => exact quiet (carries_submissionFails hs id) (unfiled_submissionFails _ id)
  | runAdvance id => exact quiet (carries_runAdvance hs _ id).1 (carries_runAdvance hs _ id).2
  | providerStarted ctx => exact quiet (shifted ⟨[], shift_providerStarted _ ctx⟩) unfiled_nil
  | providerSynthesisEnded ctx => exact quiet (carries_providerSynthesisEnded hs ctx) unfiled_nil
  | providerDeliveryCompleted ctx =>
    exact quiet (shifted (shift_providerDelivery hs.timely rfl _ ctx)) unfiled_nil
  | providerDeliveryUnknown ctx =>
    exact quiet (shifted (shift_providerDelivery hs.timely rfl _ ctx)) unfiled_nil
  | synthesisEnded u => exact quiet (carries_synthesisEnded hs u) unfiled_nil
  | deliveryCompleted u => exact quiet (shifted (shift_deliver cfg hs.timely rfl _ u)) unfiled_nil
  | deliveryUnknown u => exact quiet (shifted (shift_deliver cfg hs.timely rfl _ u)) unfiled_nil
  | interrupt epoch reconnect fullStop =>
    refine quiet ?_ (unfiled_interrupt _ epoch reconnect fullStop)
    rcases hdiscarding : (reconnect || fullStop) with _ | _
    · obtain ⟨rfl, rfl⟩ : reconnect = false ∧ fullStop = false := by simpa using hdiscarding
      exact carries_interrupt hs (by simpa [careful] using he)
    · exact carries_discard cfg _ hs.conserved hdiscarding
  | pause key => exact quiet (shifted (shift_pause hs he)) (unfiled_pause _ key)
  | resume target => exact carries_resume hs he
  | cancel key => exact quiet (carries_cancel hs key) (unfiled_cancel _ key)
  | discardQueuedNotice key => exact quiet (shifted (shift_discardQueuedNotice hs.timely key)) unfiled_nil
  | discardQueuedAck ackId => exact quiet (shifted (shift_discardQueuedAck ackId)) unfiled_nil
  | deactivate epoch reconnect =>
    exact quiet (carries_discard cfg _ hs.conserved (Bool.or_true _)) (unfiled_interrupt _ epoch reconnect true)
  | replaced epoch reconnect =>
    have hc := hs.conserved
    have hmoved : ({ p.scheduler with state := { p.scheduler.state with
        activeEpoch := epoch } } : SpeechScheduler).Conserved :=
      ⟨hc.nodup, hc.issued, hc.fresh, hc.accounted, hc.muted, hc.reachable, hc.submitted, hc.popped,
        hc.identified, hc.failed, hc.filed⟩
    have hcarry := carries_discard cfg p.scheduler.state.activeEpoch hmoved
      (Bool.or_true reconnect)
    exact quiet ⟨hcarry.sound, hcarry.final, hcarry.recorded, hcarry.issuing, hcarry.inherited⟩
      (unfiled_interrupt _ _ _ _)
  | signal sig =>
    have hreceive := carries_receive cfg hs sig
    rcases sig with _ | _ | _ | _ | _ | _ | _ | _ | _ | _ | _ | _ | _ | ⟨id, ok⟩
    case dispatchDone =>
      rw [step]
      split_ifs
      · exact quiet (.refl hs) unfiled_nil
      · exact quiet hreceive.1 hreceive.2
    all_goals exact quiet hreceive.1 hreceive.2

/-! ## Whole runs -/

/-- Every step of the run is careful. -/
def Careful (cfg : LifecycleConfig) (p : ConnectionPipeline) (es : List Event) : Prop :=
  Guarded (fun p e => (step cfg p e).1) (fun p e => p.careful e = true) p es

instance (cfg : LifecycleConfig) (p : ConnectionPipeline) (es : List Event) :
    Decidable (Careful cfg p es) := inferInstanceAs (Decidable (Guarded _ _ _ _))

/-- A careful run conserves speech. -/
theorem carries_run {es : List Event} (hs : p.scheduler.Sound) (h : Careful cfg p es) :
    Carries p.scheduler (run (fun p e => (step cfg p e).1) p es).scheduler := by
  induction es generalizing p with
  | nil => exact .refl hs
  | cons e es ih =>
    have hstep := (carries_step cfg hs h.1).1
    exact hstep.trans (ih hstep.sound h.2)

/-- What a careful run files stays on record, and nothing else is held under its id. -/
theorem filed_run {es : List Event} (hs : p.scheduler.Sound) (h : Careful cfg p es) {item : SpeechItem}
    (hitem : .enqueued item ∈ outputs (step cfg) p es) (hack : item.isAck = false) :
    let s := (run (fun p e => (step cfg p e).1) p es).scheduler
    s.state.standing item.utteranceId ≠ none ∧
      ∀ x ∈ s.held, x.utteranceId = item.utteranceId → x = item := by
  induction es generalizing p with
  | nil => cases hitem
  | cons e es ih =>
    obtain ⟨hstep, hnew⟩ := carries_step cfg hs h.1
    rcases List.mem_append.mp hitem with hnow | hlater
    · have hheld := hnew item hnow
      have hrest := carries_run hstep.sound h.2
      refine ⟨hrest.recorded _ ?_, hrest.identified hstep.sound hheld⟩
      rcases hstep.sound.conserved.accounted item hheld hack with hopen | ⟨hclosed, -⟩
      · simp [hopen]
      · simp [hclosed]
    · exact ih hstep.sound h.2 hlater

theorem conserved_opened (epoch : Option ℤ) : (opened epoch).scheduler.Conserved where
  nodup := List.nodup_nil
  issued := fun _ hi => nomatch hi
  fresh := fun _ _ => rfl
  accounted := fun _ hi => nomatch hi
  muted := fun _ hi => nomatch hi
  reachable := fun _ hu => nomatch hu
  submitted := fun _ hsub => nomatch hsub
  popped := fun _ hsub => nomatch hsub
  identified := fun _ hsub => nomatch hsub
  failed := fun _ hsub => nomatch hsub
  filed := fun _ _ hget => nomatch hget

theorem sound_opened (epoch : Option ℤ) : (opened epoch).scheduler.Sound :=
  ⟨conserved_opened epoch, fun _ hi => nomatch hi⟩

/-- **Speech is conserved.**  In a careful run each utterance filed is accounted for at any time, but
while a failed `start_next` has reported it and not yet released it; and a terminal record is final. -/
theorem speech_conserved (cfg : LifecycleConfig) (epoch : Option ℤ) (es : List Event)
    (h : Careful cfg (opened epoch) es) (item : SpeechItem)
    (hitem : .enqueued item ∈ notices cfg epoch es) (hack : item.isAck = false) :
    let p := after cfg epoch es
    (p.scheduler.Kept item ↔ ¬p.scheduler.Failing item.utteranceId) ∧
      ∀ fs, Careful cfg p fs → ∀ q, p.scheduler.state.speech item.utteranceId = some q →
        q.state.terminal = true →
        (after cfg epoch (es ++ fs)).scheduler.state.speech item.utteranceId = some q := by
  have hrun := carries_run (sound_opened epoch) h
  obtain ⟨hrecord, hsame⟩ := filed_run (sound_opened epoch) h hitem hack
  refine ⟨hrun.sound.kept_iff hack hrecord hsame, fun fs hfs q hq hterm => ?_⟩
  rw [after, run_append]
  exact (carries_run hrun.sound hfs).final _ q hq hterm

/-- A request to speak a result for one work item. -/
abbrev spoken : SpeechRequest where
  resultId := some "result"
  workItemId := "work"
  originEpoch := some 1

/-- The item it makes under an utterance id. -/
abbrev spokenItem (u : UtteranceId) : SpeechItem :=
  ⟨some "result", "work", "", "", u, some 1, .result, none, none, rfl⟩

/-- Spoken, paused, resumed under a new utterance id, and spoken again. -/
abbrev resumedOnce : List Event :=
  [.enqueue spoken, .startNext (some "work"), .speakReturns 0, .pause "work",
    .resume (.workItem "work"), .signal (.run 0), .signal (.dispatchDone 0 true),
    .startNext (some "work")]

theorem speech_conserved_resumed :
    (after {} (some 1) resumedOnce).scheduler.Kept (spokenItem 0) ∧
      (after {} (some 1) resumedOnce).scheduler.Kept (spokenItem 1) := by
  have hcareful : Careful {} (opened (some 1)) resumedOnce := by decide +kernel
  constructor
  · refine (speech_conserved {} (some 1) _ hcareful (spokenItem 0) (by decide +kernel) rfl).1.mpr ?_
    rintro ⟨-, sub, hsub, hfail, -⟩
    revert sub
    decide +kernel
  · refine (speech_conserved {} (some 1) _ hcareful (spokenItem 1) (by decide +kernel) rfl).1.mpr ?_
    rintro ⟨-, sub, hsub, hfail, -⟩
    revert sub
    decide +kernel

/-- Spoken and paused, and then the same again. -/
abbrev pausedTwice : List Event :=
  [.enqueue spoken, .startNext (some "work"), .speakReturns 0, .pause "work",
    .signal (.run 0), .signal (.dispatchDone 0 true), .enqueue spoken, .startNext (some "work"),
    .speakReturns 1, .pause "work"]

/-- Paused while `speak` is awaited, which then raises; the failed call is over. -/
abbrev failedWhilePaused : List Event :=
  [.enqueue spoken, .startNext (some "work"), .pause "work", .speakRaises 0, .signal (.run 0),
    .signal (.dispatchDone 0 true), .signal (.dispatchDone 1 true), .submissionFails 0, .runAdvance 1]

/-- **Two ways to strand an utterance.**  A second pause of its work item overwrites a paused
utterance: its record stays open and it is held nowhere.  And when `speak` raises for an utterance
that was paused meanwhile, its record is closed and it is still held. -/
theorem pause_strands_item :
    (.enqueued (spokenItem 0) ∈ notices {} (some 1) pausedTwice ∧
      (after {} (some 1) pausedTwice).scheduler.state.standing 0 = some false ∧
      (after {} (some 1) pausedTwice).scheduler.places 0 = 0) ∧
    (.enqueued (spokenItem 0) ∈ notices {} (some 1) failedWhilePaused ∧
      (after {} (some 1) failedWhilePaused).scheduler.submissions = [] ∧
      (after {} (some 1) failedWhilePaused).scheduler.state.standing 0 = some true ∧
      (after {} (some 1) failedWhilePaused).scheduler.places 0 = 1) := by
  decide +kernel

end ConnectionPipeline

end SubagentsLab

import SubagentsLab.Speech.Records

/-!
# Speech/Conservation — no speech item is lost or held twice

An item the scheduler holds is queued, leased or paused.  **Conservation** says that the items held
are exactly those whose delivery record is open, each in one place.  A step that drops items closes
their records (`Shift`); filing opens a record, and a submission moves an item from its queue to the
lease.
-/

namespace SubagentsLab

open Machinery

/-! ## What the scheduler holds -/

namespace SpeechScheduler

open SessionState

/-- Everything the scheduler holds: queued, leased, paused. -/
def held (s : SpeechScheduler) : List SpeechItem :=
  s.queues.items ++ s.active.toList.map (·.item) ++ s.paused.values

/-- In how many places the scheduler holds the utterance. -/
def places (s : SpeechScheduler) (u : UtteranceId) : ℕ := s.held.countP (·.utteranceId = u)

/-- The utterance is leased and its submission failed: `start_next` has reported it and is on its way
to releasing the lease. -/
def Failing (s : SpeechScheduler) (u : UtteranceId) : Prop :=
  (∃ lease, s.active = some lease ∧ lease.item.utteranceId = u) ∧
    ∃ sub ∈ s.submissions, sub.failing.isSome = true ∧ sub.lease.item.utteranceId = u

/-- **The conservation invariant.** -/
structure Conserved (s : SpeechScheduler) : Prop where
  nodup : (s.held.map (·.utteranceId)).Nodup
  issued : ∀ item ∈ s.held, item.utteranceId < s.nextUtterance
  fresh : ∀ u, s.nextUtterance ≤ u → s.state.standing u = none
  accounted : ∀ item ∈ s.held, item.isAck = false →
    s.state.standing item.utteranceId = some false ∨
      (s.state.standing item.utteranceId = some true ∧ s.Failing item.utteranceId)
  muted : ∀ item ∈ s.held, item.isAck = true → s.state.standing item.utteranceId = none
  reachable : ∀ u, s.state.standing u = some false → u ∈ voiced s.held
  submitted : ∀ sub ∈ s.submissions, sub.lease.item.utteranceId < s.nextUtterance
  popped : ∀ sub ∈ s.submissions, ∀ item ∈ s.queues.items,
    item.utteranceId ≠ sub.lease.item.utteranceId
  identified : ∀ sub ∈ s.submissions, ∀ item ∈ s.held,
    item.utteranceId = sub.lease.item.utteranceId → item = sub.lease.item
  failed : ∀ sub ∈ s.submissions, sub.failing.isSome = true → sub.lease.item.isAck = false →
    s.state.standing sub.lease.item.utteranceId ≠ some false
  filed : ∀ key item, s.paused.get? key = some item → item.workItemId = key

/-- What is held belongs to the active epoch. -/
def Timely (s : SpeechScheduler) : Prop :=
  ∀ item ∈ s.held, item.isAck = false → item.originEpoch = s.state.activeEpoch

/-- A discarding report is heard whatever its epoch. -/
theorem hears_stale (s : SpeechScheduler) (epoch : Option ℤ) (item : SpeechItem) :
    s.state.Hears true epoch item := fun _ => Or.inl rfl

theorem Timely.hears {s : SpeechScheduler} (h : s.Timely) {item : SpeechItem} (hitem : item ∈ s.held)
    (stale : Bool) : s.state.Hears stale none item := fun hack => Or.inr (h item hitem hack)

variable {s s' s'' : SpeechScheduler} {D D' : List SpeechItem} {u : UtteranceId}

theorem mem_held_of_active {lease : UtteranceLease} (h : s.active = some lease) :
    lease.item ∈ s.held := by
  simp [held, h]

theorem mem_held_of_queued {item : SpeechItem} (h : item ∈ s.queues.items) : item ∈ s.held := by
  simp [held, h]

theorem mem_held_of_paused {item : SpeechItem} (h : item ∈ s.paused.values) : item ∈ s.held := by
  simp [held, h]

/-- Two held items with one utterance id are one. -/
theorem Conserved.eq_of_utteranceId (h : s.Conserved) {item item' : SpeechItem} (hi : item ∈ s.held)
    (hi' : item' ∈ s.held) (hid : item.utteranceId = item'.utteranceId) : item = item' :=
  List.inj_on_of_nodup_map h.nodup hi hi' hid

/-! ## Dropping items -/

/-- `s'` holds what `s` does without the items `D`, whose records are closed. -/
structure Shift (s s' : SpeechScheduler) (D : List SpeechItem) : Prop where
  held : (s'.held ++ D).Perm s.held
  queued : ∀ item ∈ s'.queues.items, item ∈ s.queues.items
  paused : ∀ key item, s'.paused.get? key = some item →
    s.paused.get? key = some item ∨ item.workItemId = key
  leased : ∀ lease, s.active = some lease → lease.item.isAck = false →
    s'.active = some lease ∨ lease.item ∈ D ∨ s.state.standing lease.item.utteranceId ≠ some true
  standing : ∀ u, s'.state.standing u = if u ∈ voiced D then some true else s.state.standing u
  final : ∀ u q, s.state.speech u = some q → q.state.terminal = true → s'.state.speech u = some q
  activeEpoch : s'.state.activeEpoch = s.state.activeEpoch
  nextUtterance : s'.nextUtterance = s.nextUtterance
  submissions : s'.submissions = s.submissions

theorem Shift.mem_of_mem (h : Shift s s' D) {item : SpeechItem} (hi : item ∈ s'.held) :
    item ∈ s.held := h.held.subset (List.mem_append_left D hi)

/-- What stays held is not among what is dropped. -/
theorem Shift.not_mem_voiced (h : Shift s s' D) (hs : s.Conserved) {item : SpeechItem}
    (hi : item ∈ s'.held) : ∀ item' ∈ D, item'.utteranceId ≠ item.utteranceId := by
  have hnodup := (h.held.map (·.utteranceId)).nodup_iff.mpr hs.nodup
  rw [List.map_append, List.nodup_append] at hnodup
  intro item' hi' heq
  exact hnodup.2.2 item.utteranceId (List.mem_map_of_mem hi) item'.utteranceId
    (List.mem_map_of_mem hi') heq.symm

/-- **Dropping items and closing their records conserves the rest.** -/
theorem Shift.conserved (h : Shift s s' D) (hs : s.Conserved) : s'.Conserved := by
  have hsame : ∀ item ∈ s'.held, s'.state.standing item.utteranceId
      = s.state.standing item.utteranceId := by
    intro item hi
    rw [h.standing, if_neg]
    intro hu
    obtain ⟨item', hi', -, heq⟩ := mem_voiced.mp hu
    exact h.not_mem_voiced hs hi item' hi' heq
  exact {
    nodup := by
      have hnodup := (h.held.map (·.utteranceId)).nodup_iff.mpr hs.nodup
      rw [List.map_append] at hnodup
      exact hnodup.of_append_left
    issued := fun item hi => h.nextUtterance ▸ hs.issued item (h.mem_of_mem hi)
    fresh := fun u hu => by
      rw [h.nextUtterance] at hu
      rw [h.standing, if_neg, hs.fresh u hu]
      intro hv
      obtain ⟨item, hi, -, rfl⟩ := mem_voiced.mp hv
      exact absurd (hs.issued item (h.held.subset (List.mem_append_right _ hi))) (Nat.not_lt.mpr hu)
    accounted := fun item hi hack => by
      rw [hsame item hi]
      rcases hs.accounted item (h.mem_of_mem hi) hack with hopen | ⟨hclosed, ⟨lease, hlease, hid⟩, hsub⟩
      · exact Or.inl hopen
      · obtain rfl := hs.eq_of_utteranceId (mem_held_of_active hlease) (h.mem_of_mem hi) hid
        refine Or.inr ⟨hclosed, ?_, h.submissions ▸ hsub⟩
        rcases h.leased lease hlease hack with hkept | hdropped | hopen
        · exact ⟨lease, hkept, rfl⟩
        · exact absurd rfl (h.not_mem_voiced hs hi lease.item hdropped)
        · exact absurd hclosed hopen
    muted := fun item hi hack => by
      rw [hsame item hi]
      exact hs.muted item (h.mem_of_mem hi) hack
    reachable := fun u hu => by
      have hv : u ∉ voiced D := fun hv => by simp [h.standing, hv] at hu
      rw [h.standing, if_neg hv] at hu
      obtain ⟨item, hi, hack, rfl⟩ := mem_voiced.mp (hs.reachable u hu)
      rcases List.mem_append.mp (h.held.symm.subset hi) with hi | hi
      · exact mem_voiced.mpr ⟨item, hi, hack, rfl⟩
      · exact absurd (mem_voiced.mpr ⟨item, hi, hack, rfl⟩) hv
    submitted := fun sub hsub => by
      rw [h.nextUtterance]
      exact hs.submitted sub (h.submissions ▸ hsub)
    popped := fun sub hsub item hi =>
      hs.popped sub (h.submissions ▸ hsub) item (h.queued item hi)
    identified := fun sub hsub item hi =>
      hs.identified sub (h.submissions ▸ hsub) item (h.mem_of_mem hi)
    failed := fun sub hsub hfail hack => by
      rw [h.standing]
      split_ifs
      · simp
      · exact hs.failed sub (h.submissions ▸ hsub) hfail hack
    filed := fun key item hget => (h.paused key item hget).elim (hs.filed key item) id }

theorem Shift.timely (h : Shift s s' D) (hs : s.Timely) : s'.Timely := fun item hi hack => by
  rw [h.activeEpoch]
  exact hs item (h.mem_of_mem hi) hack

theorem Shift.refl (s : SpeechScheduler) : Shift s s [] where
  held := by simp
  queued := fun _ hi => hi
  paused := fun _ _ hget => Or.inl hget
  leased := fun _ hl _ => Or.inl hl
  standing := fun _ => by simp
  final := fun _ _ hq _ => hq
  activeEpoch := rfl
  nextUtterance := rfl
  submissions := rfl

/-- The lifecycle may change as it likes. -/
theorem Shift.lifecycle (h : Shift s s' D) (c : SpeechLifecycleCoordinator) :
    Shift s { s' with lifecycle := c } D :=
  ⟨h.held, h.queued, h.paused, h.leased, h.standing, h.final, h.activeEpoch, h.nextUtterance, h.submissions⟩

/-- So may the provider contexts. -/
theorem Shift.providerContexts (h : Shift s s' D) (ctxs : UtteranceId → Option Token) :
    Shift s { s' with providerContexts := ctxs } D :=
  ⟨h.held, h.queued, h.paused, h.leased, h.standing, h.final, h.activeEpoch, h.nextUtterance, h.submissions⟩

/-- And the queue-advance tasks. -/
theorem Shift.scheduleQueueAdvance (h : Shift s s' D) (exclude : String) :
    Shift s (s'.scheduleQueueAdvance exclude) D := by
  rw [SpeechScheduler.scheduleQueueAdvance]
  split_ifs
  · exact h
  · exact ⟨h.held, h.queued, h.paused, h.leased, h.standing, h.final, h.activeEpoch, h.nextUtterance,
      h.submissions⟩

theorem Shift.finish (cfg : LifecycleConfig) (h : Shift s s' D) (caller : Caller) (ok : Bool) :
    Shift s (s'.finish cfg caller ok) D := by
  rcases caller with _ | id | _ | _
  · exact h
  · exact h.lifecycle _
  · exact h
  · exact h

/-- **Items that leave, each with a terminal report.** -/
theorem Shift.of_emits (d : DeliveryState) (stale : Bool) (epoch : Option ℤ)
    (hd : d.terminal = true) (hears : ∀ item ∈ D, s.state.Hears stale epoch item)
    (hheld : (s'.held ++ D).Perm s.held) (hqueued : ∀ item ∈ s'.queues.items, item ∈ s.queues.items)
    (hpaused : ∀ key item, s'.paused.get? key = some item → s.paused.get? key = some item)
    (hleased : ∀ lease, s.active = some lease → s'.active = some lease ∨ lease.item ∈ D)
    (hstate : s'.state = s.state.emits d stale epoch D)
    (hnext : s'.nextUtterance = s.nextUtterance) (hsub : s'.submissions = s.submissions) :
    Shift s s' D where
  held := hheld
  queued := hqueued
  paused := fun key item hget => Or.inl (hpaused key item hget)
  leased := fun lease hl _ => (hleased lease hl).imp_right Or.inl
  standing := fun u => by rw [hstate, standing_emits hd hears]
  final := fun u q hq hterm => by rw [hstate]; exact emits_of_terminal hterm D hq
  activeEpoch := by rw [hstate, emits_activeEpoch]
  nextUtterance := hnext
  submissions := hsub

/-! ## The operations that drop items -/

section Drops

variable {cfg : LifecycleConfig} {lease : UtteranceLease} {d : DeliveryState} {stale : Bool}
  {epoch : Option ℤ}

/-- The leased item leaves with a terminal report. -/
theorem Shift.retire (hactive : s.active = some lease) (hd : d.terminal = true)
    (hears : s.state.Hears stale epoch lease.item) (hnone : s'.active = none)
    (hqueues : s'.queues = s.queues) (hpaused : s'.paused = s.paused)
    (hstate : s'.state = s.state.emit d stale epoch lease.item)
    (hnext : s'.nextUtterance = s.nextUtterance) (hsub : s'.submissions = s.submissions) :
    Shift s s' [lease.item] := by
  refine .of_emits d stale epoch hd (by simpa using hears) ?_ (by simp [hqueues]) (by simp [hpaused]) ?_ hstate hnext hsub
  · simp only [SpeechScheduler.held, hnone, hqueues, hpaused, hactive, Option.toList_none,
      Option.toList_some, List.map_nil, List.map_cons, List.append_nil, List.append_assoc]
    exact List.perm_append_comm.append_left _
  · intro lease' hl
    cases hactive.symm.trans hl
    exact Or.inr (List.mem_singleton_self _)

theorem shift_interruptActive (cfg : LifecycleConfig) (hactive : s.active = some lease) (hd : d.terminal = true)
    (hears : s.state.Hears stale epoch lease.item) (pause : Bool) :
    Shift s (s.interruptActive cfg lease d pause stale epoch) [lease.item] := by
  rw [interruptActive_of_active hactive]
  exact .retire hactive hd hears rfl rfl rfl rfl rfl rfl

theorem shift_deliver (cfg : LifecycleConfig) (ht : s.Timely) (hd : d.terminal = true) (disposition : DeliveryDisposition)
    (u : UtteranceId) : ∃ D, Shift s (s.deliver cfg d disposition u) D := by
  rcases hl : s.activeLease u with _ | lease
  · exact ⟨[], by rw [deliver, hl]; exact .refl s⟩
  · obtain ⟨hactive, rfl⟩ := activeLease_eq_some.mp hl
    refine ⟨[lease.item], ?_⟩
    rw [deliver_of_active hactive]
    exact .retire hactive hd (ht.hears (mem_held_of_active hactive) false) rfl rfl rfl rfl rfl rfl

/-- Queued items leave with a terminal report. -/
theorem Shift.dequeue (d : DeliveryState) (stale : Bool) (epoch : Option ℤ) (hd : d.terminal = true) (hears : ∀ item ∈ D, s.state.Hears stale epoch item)
    (hitems : (s'.queues.items ++ D).Perm s.queues.items)
    (hactive : s'.active = s.active) (hpaused : s'.paused = s.paused)
    (hstate : s'.state = s.state.emits d stale epoch D)
    (hnext : s'.nextUtterance = s.nextUtterance) (hsub : s'.submissions = s.submissions) :
    Shift s s' D := by
  refine .of_emits d stale epoch hd hears ?_ (fun item hi => hitems.subset (List.mem_append_left D hi))
    (by simp [hpaused]) ?_ hstate hnext hsub
  · simp only [SpeechScheduler.held, hactive, hpaused, List.append_assoc]
    refine List.Perm.trans ?_ (hitems.append_right _)
    rw [List.append_assoc, ← List.append_assoc _ s.paused.values D]
    exact List.perm_append_comm.append_left _
  · exact fun lease hl => Or.inl (hactive.trans hl)

/-- Paused items leave with a terminal report. -/
theorem Shift.unpause (d : DeliveryState) (stale : Bool) (epoch : Option ℤ) (hd : d.terminal = true) (hears : ∀ item ∈ D, s.state.Hears stale epoch item)
    (hvalues : (s'.paused.values ++ D).Perm s.paused.values)
    (hpaused : ∀ key item, s'.paused.get? key = some item → s.paused.get? key = some item)
    (hactive : s'.active = s.active) (hqueues : s'.queues = s.queues)
    (hstate : s'.state = s.state.emits d stale epoch D)
    (hnext : s'.nextUtterance = s.nextUtterance) (hsub : s'.submissions = s.submissions) :
    Shift s s' D := by
  refine .of_emits d stale epoch hd hears ?_ (by simp [hqueues]) hpaused ?_ hstate hnext hsub
  · simp only [SpeechScheduler.held, hactive, hqueues, List.append_assoc]
    exact (hvalues.append_left _).append_left _
  · exact fun lease hl => Or.inl (hactive.trans hl)

theorem Sheds.shift (h : Sheds s s' D) (ht : s.Timely) : Shift s s' D := by
  refine .dequeue .deliveryUnknown false none rfl ?_ ?_ h.active ?_ ?_ ?_
    h.submissions
  · intro item hi
    exact ht.hears (mem_held_of_queued (h.items.subset (List.mem_append_left _ hi))) false
  · exact List.perm_append_comm.trans h.items
  all_goals
    rw [h.frame]
    rfl

theorem shift_discardQueuedNotice (ht : s.Timely) (key : String) :
    ∃ D, Shift s (s.discardQueuedNotice key) D := by
  refine ⟨(s.queues.lane key).filter fun item => decide (item.role = .timeoutNotice), ?_⟩
  have hperm := s.queues.items_keep_perm key fun item => !decide (item.role = .timeoutNotice)
  simp only [Bool.not_not] at hperm
  refine .dequeue .interrupted false none rfl ?_ hperm rfl rfl rfl rfl rfl
  intro item hi
  exact ht.hears (mem_held_of_queued (hperm.subset (List.mem_append_right _ hi))) false

theorem shift_discardQueuedAck (ackId : String) : ∃ D, Shift s (s.discardQueuedAck ackId) D := by
  have hperm := s.queues.items_keep_perm ackId fun item => !(item.isAck && item.ackId = some ackId)
  simp only [Bool.not_not] at hperm
  set D := (s.queues.lane ackId).filter fun item => item.isAck && decide (item.ackId = some ackId) with hD
  have hack : ∀ item ∈ D, item.isAck = true := by simp +contextual [hD]
  refine ⟨D, .dequeue .interrupted true none rfl ?_ hperm rfl rfl
    (emits_of_acks hack).symm rfl rfl⟩
  exact fun item _ _ => Or.inl rfl

theorem shift_cancelLane (ht : s.Timely) (key : String) : ∃ D, Shift s (s.cancelLane key) D := by
  have hperm := s.queues.items_pop_perm key
  refine ⟨s.queues.lane key, .dequeue .interrupted false none rfl ?_ hperm
    rfl rfl rfl rfl rfl⟩
  intro item hi
  exact ht.hears (mem_held_of_queued (hperm.subset (List.mem_append_right _ hi))) false

theorem get?_of_pop {κ α : Type*} [DecidableEq κ] {d : Dict κ α} {k k' : κ} {a : α}
    (h : (d.pop k).get? k' = some a) : d.get? k' = some a := by
  rw [Dict.get?_pop] at h
  split_ifs at h
  exact h

theorem shift_cancelPaused (ht : s.Timely) (key : String) : ∃ D, Shift s (s.cancelPaused key) D := by
  have hperm := s.paused.values_pop_perm key
  refine ⟨(s.paused.get? key).toList, .unpause .interrupted false none rfl
    ?_ hperm (fun _ _ => get?_of_pop) rfl rfl rfl rfl rfl⟩
  intro item hi
  exact ht.hears (mem_held_of_paused (hperm.subset (List.mem_append_right _ hi))) false

/-- A discarding sweep drops everything that is queued or paused. -/
theorem shift_sweep (hd : d.terminal = true) (epoch : Option ℤ) :
    Shift s (s.sweep d epoch).1 (s.queues.items ++ s.paused.values) := by
  refine .of_emits d true epoch hd (fun _ _ _ => Or.inl rfl) ?_ ?_
    (fun key item hget => nomatch hget) ?_ rfl rfl rfl
  · change (([] : List SpeechItem) ++ _ ++ [] ++ _).Perm _
    simp only [SpeechScheduler.held, List.nil_append, List.append_nil, ← List.append_assoc]
    exact List.perm_append_comm.append_right _
  · intro item hi
    cases hi
  · exact fun lease hl => Or.inl hl

end Drops

/-! ## Steps in a row -/

/-- Conserved, and of the active epoch. -/
structure Sound (s : SpeechScheduler) : Prop where
  conserved : s.Conserved
  timely : s.Timely

/-- `s'` is sound, its terminal records are those of `s`, no record is lost, and what it holds was
held before or is new. -/
structure Carries (s s' : SpeechScheduler) : Prop where
  sound : s'.Sound
  final : ∀ u q, s.state.speech u = some q → q.state.terminal = true → s'.state.speech u = some q
  recorded : ∀ u, s.state.standing u ≠ none → s'.state.standing u ≠ none
  issuing : s.nextUtterance ≤ s'.nextUtterance
  inherited : ∀ item ∈ s'.held, item ∈ s.held ∨ s.nextUtterance ≤ item.utteranceId

theorem Carries.refl (h : s.Sound) : Carries s s :=
  ⟨h, fun _ _ hq _ => hq, fun _ hu => hu, le_refl _, fun _ hi => Or.inl hi⟩

theorem Carries.trans (h : Carries s s') (h' : Carries s' s'') : Carries s s'' where
  sound := h'.sound
  final := fun u q hq hterm => h'.final u q (h.final u q hq hterm) hterm
  recorded := fun u hu => h'.recorded u (h.recorded u hu)
  issuing := h.issuing.trans h'.issuing
  inherited := fun item hi => (h'.inherited item hi).elim (h.inherited item)
    fun hnew => Or.inr (h.issuing.trans hnew)

/-- What is held later under the id of a held item is that item. -/
theorem Carries.identified (h : Carries s s') (hs : s.Sound) {item : SpeechItem}
    (hitem : item ∈ s.held) : ∀ x ∈ s'.held, x.utteranceId = item.utteranceId → x = item := by
  intro x hx hid
  rcases h.inherited x hx with hx | hnew
  · exact hs.conserved.eq_of_utteranceId hx hitem hid
  · rw [hid] at hnew
    exact absurd (hs.conserved.issued item hitem) (Nat.not_lt.mpr hnew)

theorem Shift.recorded (h : Shift s s' D) (u : UtteranceId) (hu : s.state.standing u ≠ none) :
    s'.state.standing u ≠ none := by
  rw [h.standing]
  split_ifs
  · simp
  · exact hu

theorem Shift.carries (h : Shift s s' D) (hs : s.Sound) : Carries s s' :=
  ⟨⟨h.conserved hs.conserved, h.timely hs.timely⟩, h.final, h.recorded, h.nextUtterance.ge,
    fun _ hi => Or.inl (h.mem_of_mem hi)⟩

theorem carries_of_shift (h : ∃ D, Shift s s' D) (hs : s.Sound) : Carries s s' := by
  obtain ⟨D, h⟩ := h
  exact h.carries hs

theorem carries_finish {cfg : LifecycleConfig} (hs : s.Sound) (caller : Caller) (ok : Bool) :
    Carries s (s.finish cfg caller ok) := ((Shift.refl s).finish cfg caller ok).carries hs

/-! ## Filing and submitting -/

theorem item?_eq_some {r : SpeechRequest} {item : SpeechItem} (h : r.item? u = some item) :
    item.utteranceId = u ∧ item.originEpoch = r.originEpoch ∧ item.role = r.role := by
  simp only [SpeechRequest.item?] at h
  split_ifs at h <;>
  · cases h
    exact ⟨rfl, rfl, rfl⟩

/-- A fresh item is filed and its record opened. -/
theorem carries_enqueue {r : SpeechRequest} (hs : s.Sound)
    (hepoch : r.role ≠ .ack → r.originEpoch = s.state.activeEpoch) :
    Carries s (s.enqueue r).1 ∧
      ∀ item, (s.enqueue r).2 = some item → item ∈ (s.enqueue r).1.held := by
  rcases hitem : r.item? s.nextUtterance with _ | item
  · simp only [enqueue, hitem]
    exact ⟨.refl hs, by simp⟩
  obtain ⟨hu, horigin, hrole⟩ := item?_eq_some hitem
  simp only [enqueue, hitem, emitProgress]
  set s' : SpeechScheduler := { s with
    queues := s.queues.push item, nextUtterance := s.nextUtterance + 1
    state := (s.state.emit .displayed false none item).emit .queued false none item } with hs'
  have hc := hs.conserved
  have hheld : s'.held.Perm (item :: s.held) := by
    have hperm := (s.queues.items_push_perm item).append_right
      (s.active.toList.map (·.item) ++ s.paused.values)
    simpa [SpeechScheduler.held, hs', List.append_assoc] using hperm
  have hother : ∀ u, u ≠ item.utteranceId → s'.state.standing u = s.state.standing u := by
    intro u hne
    rw [hs', standing_emit_of_ne hne, standing_emit_of_ne hne]
  have hopen : item.isAck = false → s'.state.standing item.utteranceId = some false := by
    intro hack
    have hfirst : (s.state.emit .displayed false none item).standing item.utteranceId
        = some false := by
      rw [SessionState.emit, if_neg (by simp [hack])]
      refine standing_of_first (p := item.progress .displayed none) (Or.inr ?_) rfl
        (hc.fresh _ (Nat.le_of_eq hu.symm))
      refine horigin.trans (hepoch fun hrole' => ?_)
      rw [SpeechItem.isAck, hrole, hrole'] at hack
      cases hack
    rw [hs', standing_emit_progress rfl (by simp [hfirst]), hfirst]
  have hmute : item.isAck = true → s'.state.standing item.utteranceId = none := by
    intro hack
    simp only [hs', SessionState.emit, hack, if_true]
    exact hc.fresh _ (Nat.le_of_eq hu.symm)
  have hnew : ∀ x ∈ s.held, x.utteranceId ≠ item.utteranceId := fun x hx heq => by
    have hlt := hc.issued x hx
    rw [heq, hu] at hlt
    exact Nat.lt_irrefl _ hlt
  have hcases : ∀ x ∈ s'.held, x = item ∨ x ∈ s.held := fun x hx =>
    List.mem_cons.mp (hheld.subset hx)
  have hconserved : s'.Conserved := {
    nodup := by
      refine ((hheld.map (·.utteranceId)).nodup_iff).mpr (List.nodup_cons.mpr ⟨?_, hc.nodup⟩)
      intro hmem
      obtain ⟨x, hx, heq⟩ := List.mem_map.mp hmem
      exact hnew x hx heq
    issued := fun x hx => by
      rcases hcases x hx with rfl | hx
      · rw [hu]
        exact Nat.lt_succ_self _
      · exact Nat.lt_succ_of_lt (hc.issued x hx)
    fresh := fun u hle => by
      have hne : u ≠ item.utteranceId := by
        rintro rfl
        rw [hu] at hle
        exact Nat.not_succ_le_self _ hle
      rw [hother u hne]
      exact hc.fresh u (Nat.le_of_succ_le hle)
    accounted := fun x hx hack => by
      rcases hcases x hx with rfl | hx
      · exact Or.inl (hopen hack)
      · rw [hother _ (hnew x hx)]
        exact hc.accounted x hx hack
    muted := fun x hx hack => by
      rcases hcases x hx with rfl | hx
      · exact hmute hack
      · rw [hother _ (hnew x hx)]
        exact hc.muted x hx hack
    reachable := fun u hu' => by
      rcases eq_or_ne u item.utteranceId with rfl | hne
      · rcases hack : item.isAck with _ | _
        · exact mem_voiced.mpr ⟨item, hheld.symm.subset List.mem_cons_self, hack, rfl⟩
        · rw [hmute hack] at hu'
          cases hu'
      · rw [hother u hne] at hu'
        obtain ⟨x, hx, hack, rfl⟩ := mem_voiced.mp (hc.reachable u hu')
        exact mem_voiced.mpr ⟨x, hheld.symm.subset (List.mem_cons_of_mem _ hx), hack, rfl⟩
    submitted := fun sub hsub => Nat.lt_succ_of_lt (hc.submitted sub hsub)
    popped := fun sub hsub x hx => by
      have hlt := hc.submitted sub hsub
      rcases List.mem_cons.mp ((s.queues.items_push_perm item).subset hx) with rfl | hx
      · rw [hu]
        exact (Nat.ne_of_lt hlt).symm
      · exact hc.popped sub hsub x hx
    identified := fun sub hsub x hx heq => by
      rcases hcases x hx with rfl | hx
      · have hlt := hc.submitted sub hsub
        rw [← heq, hu] at hlt
        exact absurd hlt (Nat.lt_irrefl _)
      · exact hc.identified sub hsub x hx heq
    failed := fun sub hsub hfail hack => by
      have hne : sub.lease.item.utteranceId ≠ item.utteranceId := by
        rw [hu]
        exact Nat.ne_of_lt (hc.submitted sub hsub)
      rw [hother _ hne]
      exact hc.failed sub hsub hfail hack
    filed := hc.filed }
  refine ⟨⟨⟨hconserved, ?_⟩, ?_, ?_, Nat.le_succ _, ?_⟩, ?_⟩
  · intro x hx hack
    rw [hs', emit_activeEpoch, emit_activeEpoch]
    rcases hcases x hx with rfl | hx
    · refine horigin.trans (hepoch fun hrole' => ?_)
      rw [SpeechItem.isAck, hrole, hrole'] at hack
      cases hack
    · exact hs.timely x hx hack
  · exact fun u q hq hterm => emit_of_terminal (emit_of_terminal hq hterm) hterm
  · intro u hsome
    rcases eq_or_ne u item.utteranceId with rfl | hne
    · exact absurd (hc.fresh _ (Nat.le_of_eq hu.symm)) hsome
    · rwa [hother u hne]
  · intro x hx
    rcases hcases x hx with rfl | hx
    · exact Or.inr (Nat.le_of_eq hu.symm)
    · exact Or.inl hx
  · rintro x hx
    cases hx
    exact hheld.symm.subset List.mem_cons_self

/-- The head of a queue takes the free lease. -/
theorem carries_submit {cfg : LifecycleConfig} {item : SpeechItem} {rest : List SpeechItem}
    (hs : s.Sound) (hlane : s.queues.lane item.workItemId = item :: rest) (hidle : s.active = none)
    (token : Token) (caller : Caller) : Carries s (s.submit cfg item token caller) := by
  have hc := hs.conserved
  have hdrop := s.queues.items_dropHead_perm hlane
  have hmem : item ∈ s.held := mem_held_of_queued (hdrop.subset List.mem_cons_self)
  have hheld : (s.submit cfg item token caller).held.Perm s.held := by
    have hperm := hdrop.append_right s.paused.values
    simp only [submit, emitProgress, SpeechScheduler.held, hidle, Option.toList_none, Option.toList_some,
      List.map_nil, List.map_cons, List.append_nil]
    exact (List.perm_append_comm.append_right _).trans hperm
  have hstanding : ∀ u, (s.submit cfg item token caller).state.standing u = s.state.standing u := by
    intro u
    rcases eq_or_ne u item.utteranceId with rfl | hne
    · rcases hack : item.isAck with _ | _
      · refine standing_emit_progress rfl ?_
        rcases hc.accounted item hmem hack with h | ⟨h, -⟩ <;> simp [h]
      · simp [submit, emitProgress, SessionState.emit, hack]
    · exact standing_emit_of_ne hne
  have hopen : ∀ x ∈ s.held, x.isAck = false → s.state.standing x.utteranceId = some false := by
    intro x hx hack
    rcases hc.accounted x hx hack with h | ⟨-, ⟨lease, hl, -⟩, -⟩
    · exact h
    · rw [hidle] at hl
      cases hl
  have hsubs : ∀ sub ∈ (s.submit cfg item token caller).submissions,
      sub ∈ s.submissions ∨ (sub.lease.item = item ∧ sub.failing = none) := by
    intro sub hsub
    rcases List.mem_append.mp hsub with h | h
    · exact Or.inl h
    · rw [List.mem_singleton.mp h]
      exact Or.inr ⟨rfl, rfl⟩
  have hconserved : (s.submit cfg item token caller).Conserved := {
    nodup := (hheld.map (·.utteranceId)).nodup_iff.mpr hc.nodup
    issued := fun x hx => hc.issued x (hheld.subset hx)
    fresh := fun u hu => (hstanding u).trans (hc.fresh u hu)
    accounted := fun x hx hack => Or.inl ((hstanding _).trans (hopen x (hheld.subset hx) hack))
    muted := fun x hx hack => (hstanding _).trans (hc.muted x (hheld.subset hx) hack)
    reachable := fun u hu => by
      rw [hstanding] at hu
      obtain ⟨x, hx, hack, rfl⟩ := mem_voiced.mp (hc.reachable u hu)
      exact mem_voiced.mpr ⟨x, hheld.symm.subset hx, hack, rfl⟩
    submitted := fun sub hsub => by
      rcases hsubs sub hsub with h | ⟨h, -⟩
      · exact hc.submitted sub h
      · rw [h]
        exact hc.issued item hmem
    popped := fun sub hsub x hx => by
      have hx' : x ∈ s.queues.items := hdrop.subset (List.mem_cons_of_mem item hx)
      rcases hsubs sub hsub with h | ⟨h, -⟩
      · exact hc.popped sub h x hx'
      · rw [h]
        intro heq
        obtain rfl := hc.eq_of_utteranceId (mem_held_of_queued hx') hmem heq
        have hnodup : (s.queues.items.map (·.utteranceId)).Nodup := by
          have := hc.nodup
          rw [SpeechScheduler.held, List.map_append, List.map_append] at this
          exact this.of_append_left.of_append_left
        rw [← (hdrop.map (·.utteranceId)).nodup_iff, List.map_cons, List.nodup_cons] at hnodup
        exact hnodup.1 (List.mem_map_of_mem hx)
    identified := fun sub hsub x hx heq => by
      rcases hsubs sub hsub with h | ⟨h, -⟩
      · exact hc.identified sub h x (hheld.subset hx) heq
      · rw [h] at heq ⊢
        exact hc.eq_of_utteranceId (hheld.subset hx) hmem heq
    failed := fun sub hsub hfail hack => by
      rw [hstanding]
      rcases hsubs sub hsub with h | ⟨-, h⟩
      · exact hc.failed sub h hfail hack
      · rw [h] at hfail
        cases hfail
    filed := hc.filed }
  refine ⟨⟨hconserved, fun x hx hack => ?_⟩, fun u q hq hterm => emit_of_terminal hq hterm,
    fun u hu => by rwa [hstanding], le_refl _, fun x hx => Or.inl (hheld.subset hx)⟩
  exact (hs.timely x (hheld.subset hx) hack).trans emit_activeEpoch.symm

theorem carries_startNext {cfg : LifecycleConfig} (hs : s.Sound) (acceptable : Bool)
    (key : Option String) (caller : Caller) :
    Carries s (s.startNext cfg acceptable key caller).1 := by
  have hstart := startNext_cases cfg s acceptable key caller
  generalize s.startNext cfg acceptable key caller = r at hstart
  rcases hstart with _ | ⟨s', ns, D, h, -, hidle, -⟩ |
    ⟨s', ns, D, rest, item, h, -, hidle, -, -, -, hlane⟩
  · exact carries_finish hs caller true
  · exact ((h.shift hs.timely).finish cfg caller true).carries hs
  · have hshed := ((h.shift hs.timely).lifecycle
      (s.lifecycle.upon (s.lifecycle.enter item.identity))).carries hs
    exact hshed.trans (carries_submit hshed.sound hlane (h.active.trans hidle) _ caller)

end SpeechScheduler

end SubagentsLab

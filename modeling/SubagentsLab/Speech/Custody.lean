import SubagentsLab.Speech.Conservation

/-!
# Speech/Custody — conservation, operation by operation

Two operations conserve speech under a condition only: a second pause of a work item overwrites the
first (`pausable`), and a failure of `speak` closes the record of an item that may be paused by then
(`carries_speakRaises`).  Every other operation conserves it from any sound state, given that what is
filed belongs to the active epoch.
-/

namespace SubagentsLab

open Machinery

namespace SpeechScheduler

open SessionState

variable {s s' s'' : SpeechScheduler} {D D' : List SpeechItem} {u : UtteranceId}

/-! ## The end of a submission -/

section Submissions

variable {cfg : LifecycleConfig} {sub : Submission} {id : ℕ}

theorem submission?_mem (h : s.submission? id = some sub) : sub ∈ s.submissions ∧ sub.id = id :=
  ⟨List.mem_of_find?_eq_some h, by simpa using List.find?_some h⟩

/-- A submission that explains no closed record may be forgotten. -/
theorem carries_forget (sub : Submission) (hs : s.Sound)
    (hsub : ∀ item ∈ s.held, item.isAck = false → s.state.standing item.utteranceId = some true →
      item.utteranceId = sub.lease.item.utteranceId → sub.failing = none) :
    Carries s { s with submissions := s.submissions.erase sub } := by
  have hc := hs.conserved
  have hmem : ∀ t ∈ s.submissions.erase sub, t ∈ s.submissions := fun t => List.mem_of_mem_erase
  refine ⟨⟨⟨hc.nodup, hc.issued, hc.fresh, fun item hi hack => ?_, hc.muted, hc.reachable,
    fun t ht => hc.submitted t (hmem t ht), fun t ht => hc.popped t (hmem t ht),
    fun t ht => hc.identified t (hmem t ht), fun t ht => hc.failed t (hmem t ht), hc.filed⟩,
    hs.timely⟩,
    fun _ _ hq _ => hq, fun _ hu => hu, le_refl _, fun _ hi => Or.inl hi⟩
  rcases hc.accounted item hi hack with hopen | ⟨hclosed, hlease, t, ht, hfail, heq⟩
  · exact Or.inl hopen
  · refine Or.inr ⟨hclosed, hlease, t, (List.mem_erase_of_ne ?_).mpr ht, hfail, heq⟩
    rintro rfl
    rw [hsub item hi hack hclosed heq.symm] at hfail
    cases hfail

theorem carries_speakReturns (hs : s.Sound) (id : ℕ) : Carries s (s.speakReturns cfg id).1 := by
  rw [speakReturns]
  split
  · exact .refl hs
  · rename_i sub hsub
    split_ifs with hfail
    · exact .refl hs
    · have hforget := carries_forget sub hs fun _ _ _ _ _ => by simpa using hfail
      exact hforget.trans (carries_finish hforget.sound sub.caller true)

/-- The submissions, with `sub` marked as failing. -/
abbrev markFailing (s : SpeechScheduler) (sub : Submission) (coroutine : ℕ) : List Submission :=
  s.submissions.map fun t => if t = sub then { t with failing := some coroutine } else t

theorem mem_markFailing {coroutine : ℕ} {t : Submission} (h : t ∈ s.markFailing sub coroutine) :
    ∃ t' ∈ s.submissions, t.lease = t'.lease ∧ (t.failing = t'.failing ∨ t' = sub) := by
  obtain ⟨t', ht', rfl⟩ := List.mem_map.mp h
  refine ⟨t', ht', ?_⟩
  split_ifs with hsub
  · exact ⟨rfl, Or.inr hsub⟩
  · exact ⟨rfl, Or.inl rfl⟩

theorem markFailing_of_mem (sub : Submission) {t : Submission} (coroutine : ℕ) (h : t ∈ s.submissions)
    (hfail : t.failing.isSome = true ∨ t = sub) :
    ∃ t' ∈ s.markFailing sub coroutine, t'.lease = t.lease ∧ t'.failing.isSome = true := by
  refine ⟨_, List.mem_map_of_mem h, ?_⟩
  split_ifs with hsub
  · exact ⟨rfl, rfl⟩
  · exact ⟨rfl, hfail.resolve_right hsub⟩

theorem standing_emit_ne_false {d : DeliveryState} {stale : Bool} {epoch : Option ℤ} {item : SpeechItem}
    (hd : d.terminal = true) {st : SessionState} (h : st.standing u ≠ some false) :
    (st.emit d stale epoch item).standing u ≠ some false := by
  rcases hq : st.speech u with _ | q
  · rcases eq_or_ne u item.utteranceId with rfl | hne
    · rw [SessionState.emit]
      split_ifs
      · exact h
      · rw [SessionState.speechProgress]
        split_ifs
        · exact h
        · have hq' : st.speech (item.progress d epoch).utteranceId = none := hq
          rw [hq']
          simp [SessionState.standing, SpeechItem.progress, hd]
    · rwa [standing_emit_of_ne hne]
  · have hterm : q.state.terminal = true := by simpa [SessionState.standing, hq] using h
    simp [SessionState.standing, emit_of_terminal hq hterm, hterm]

/-- The item of a submission is held nowhere but in the lease, unless it is paused. -/
theorem Conserved.leased_of_submission (hc : s.Conserved) (hsub : sub ∈ s.submissions)
    (hpaused : sub.lease.item ∉ s.paused.values) (hi : sub.lease.item ∈ s.held) :
    ∃ lease, s.active = some lease ∧ lease.item.utteranceId = sub.lease.item.utteranceId := by
  rcases List.mem_append.mp hi with hi | hi
  · rcases List.mem_append.mp hi with hi | hi
    · exact absurd rfl (hc.popped sub hsub _ hi)
    · obtain ⟨lease, hl, heq⟩ := List.mem_map.mp hi
      exact ⟨lease, by simpa using hl, congrArg _ heq⟩
  · exact absurd hi hpaused

/-- A failed submission closes the record of its item, which is leased or no longer held. -/
theorem carries_fail (hs : s.Sound) (hsub : sub ∈ s.submissions)
    (hpaused : sub.lease.item.isAck = false → sub.lease.item ∉ s.paused.values)
    (c : SpeechLifecycleCoordinator) (coroutine : ℕ) :
    Carries s { s with
      state := s.state.emit .deliveryUnknown false none sub.lease.item
      lifecycle := c
      submissions := s.markFailing sub coroutine } := by
  have hc := hs.conserved
  set x := sub.lease.item with hx
  set st := s.state.emit .deliveryUnknown false none x with hst
  have hother : ∀ u, u ≠ x.utteranceId → st.standing u = s.state.standing u := fun u hne =>
    standing_emit_of_ne hne
  have hclosed : x ∈ s.held → x.isAck = false → st.standing x.utteranceId = some true := by
    intro hi hack
    rw [hst, standing_emit_terminal rfl (hs.timely.hears hi false),
      if_pos (mem_voiced.mpr ⟨x, List.mem_singleton_self x, hack, rfl⟩)]
  have hnotopen : x.isAck = false → st.standing x.utteranceId ≠ some false := by
    intro hack
    by_cases hi : x ∈ s.held
    · simp [hclosed hi hack]
    · refine standing_emit_ne_false rfl fun hopen => ?_
      obtain ⟨item, hmem, -, heq⟩ := mem_voiced.mp (hc.reachable _ hopen)
      obtain rfl : item = x := hc.identified sub hsub item hmem heq
      exact hi hmem
  refine ⟨⟨{
    nodup := hc.nodup
    issued := hc.issued
    fresh := fun u hu => ?_
    accounted := fun item hi hack => ?_
    muted := fun item hi hack => ?_
    reachable := fun u hu => ?_
    submitted := fun t ht => ?_
    popped := fun t ht => ?_
    identified := fun t ht => ?_
    failed := fun t ht hfail hack => ?_
    filed := hc.filed }, fun item hi hack => ?_⟩,
    fun u q hq hterm => emit_of_terminal hq hterm, fun u hu => ?_, le_refl _, fun _ hi => Or.inl hi⟩
  · refine (hother u fun heq => ?_).trans (hc.fresh u hu)
    exact absurd (hc.submitted sub hsub) (Nat.not_lt.mpr (heq ▸ hu))
  · by_cases heq : item.utteranceId = x.utteranceId
    · obtain rfl : item = x := hc.identified sub hsub item hi heq
      obtain ⟨t', ht', hlease, hsome⟩ := markFailing_of_mem sub coroutine hsub (Or.inr rfl)
      exact Or.inr ⟨hclosed hi hack, hc.leased_of_submission hsub (hpaused hack) hi, t', ht', hsome,
        by rw [hlease]⟩
    · rcases hc.accounted item hi hack with hopen | ⟨hshut, hlease, t, ht, hsome, htid⟩
      · exact Or.inl ((hother _ heq).trans hopen)
      · obtain ⟨t', ht', hlease', hsome'⟩ :=
          markFailing_of_mem sub coroutine ht (Or.inl hsome)
        exact Or.inr ⟨(hother _ heq).trans hshut, hlease, t', ht', hsome', by rw [hlease', htid]⟩
  · by_cases heq : item.utteranceId = x.utteranceId
    · obtain rfl : item = x := hc.identified sub hsub item hi heq
      rw [← hc.muted x hi hack]
      simp [hst, SessionState.emit, hack]
    · exact (hother _ heq).trans (hc.muted item hi hack)
  · by_cases heq : u = x.utteranceId
    · subst heq
      rcases hack : x.isAck with _ | _
      · exact absurd hu (hnotopen hack)
      · refine hc.reachable _ ?_
        rw [← hu]
        simp [hst, SessionState.emit, hack]
    · exact hc.reachable u ((hother u heq).symm.trans hu)
  · obtain ⟨t', ht', hlease, -⟩ := mem_markFailing ht
    rw [hlease]
    exact hc.submitted t' ht'
  · obtain ⟨t', ht', hlease, -⟩ := mem_markFailing ht
    rw [hlease]
    exact hc.popped t' ht'
  · obtain ⟨t', ht', hlease, -⟩ := mem_markFailing ht
    rw [hlease]
    exact hc.identified t' ht'
  · obtain ⟨t', ht', hlease, hsame⟩ := mem_markFailing ht
    rw [hlease] at hack ⊢
    rcases hsame with hsame | rfl
    · exact standing_emit_ne_false rfl (hc.failed t' ht' (hsame ▸ hfail) hack)
    · exact hnotopen hack
  · exact (hs.timely item hi hack).trans emit_activeEpoch.symm
  · exact recorded_emit hu

theorem carries_speakRaises (hs : s.Sound)
    (hpaused : ∀ sub, s.submission? id = some sub → sub.lease.item.isAck = false →
      sub.lease.item ∉ s.paused.values) : Carries s (s.speakRaises id) := by
  rw [speakRaises]
  rcases hfind : s.submission? id with _ | sub
  · exact .refl hs
  dsimp only
  split_ifs
  · exact .refl hs
  · exact carries_fail hs (submission?_mem hfind).1 (hpaused sub hfind) _ _

/-- The lease of a failed submission is released; its record is closed already. -/
theorem shift_release_failed (hs : s.Sound) (hsub : sub ∈ s.submissions)
    (hfail : sub.failing.isSome = true) : ∃ D, Shift s (s.release sub.lease.item.utteranceId) D := by
  rcases hl : s.activeLease sub.lease.item.utteranceId with _ | lease
  · exact ⟨[], by rw [release_of_ne hl]; exact .refl s⟩
  · obtain ⟨hactive, hid⟩ := activeLease_eq_some.mp hl
    have hmem := mem_held_of_active hactive
    have heq := hs.conserved.identified sub hsub lease.item hmem hid
    refine ⟨[lease.item], ?_⟩
    rw [← hid, release_of_active hactive]
    refine ⟨?_, fun _ hi => hi, fun _ _ hget => Or.inl hget, ?_, fun u => ?_, fun _ _ hq _ => hq, rfl,
      rfl, rfl⟩
    · simp only [SpeechScheduler.held, hactive, Option.toList_none, Option.toList_some, List.map_nil,
        List.map_cons, List.append_nil, List.append_assoc]
      exact List.perm_append_comm.append_left _
    · intro lease' hl' _
      cases hactive.symm.trans hl'
      exact Or.inr (Or.inl (List.mem_singleton_self _))
    · split_ifs with hu
      · obtain ⟨item, hi, hack, rfl⟩ := mem_voiced.mp hu
        obtain rfl := List.mem_singleton.mp hi
        rcases hs.conserved.accounted lease.item hmem hack with hopen | ⟨hclosed, -⟩
        · rw [heq] at hopen hack
          exact absurd hopen (hs.conserved.failed sub hsub hfail hack)
        · exact hclosed
      · rfl

theorem carries_submissionFails (hs : s.Sound) (id : ℕ) : Carries s (s.submissionFails cfg id).1 := by
  rw [submissionFails]
  rcases hfind : s.submission? id with _ | sub
  · exact .refl hs
  dsimp only
  split_ifs with hwait
  · exact .refl hs
  have hsub := (submission?_mem hfind).1
  have hfail : sub.failing.isSome = true := by
    rcases hf : sub.failing with _ | coroutine
    · simp [hf] at hwait
    · rfl
  have hrelease := carries_of_shift (shift_release_failed hs hsub hfail) hs
  rw [release_update]
  -- No held item owes its closed record to this submission any more.
  have hforget := carries_forget sub hrelease.sound (by
    intro item hi hack hclosed heq
    rcases hrelease.sound.conserved.accounted item hi hack with hopen | ⟨-, ⟨lease, hl, hlid⟩, -⟩
    · rw [hopen] at hclosed
      cases hclosed
    · rcases hal : s.activeLease sub.lease.item.utteranceId with _ | lease'
      · rw [release_of_ne hal] at hl
        rw [activeLease_eq_some.mpr ⟨hl, hlid.trans heq⟩] at hal
        cases hal
      · obtain ⟨hactive, hid⟩ := activeLease_eq_some.mp hal
        rw [← hid, release_of_active hactive] at hl
        cases hl)
  have hsubs : (s.release sub.lease.item.utteranceId).submissions = s.submissions := by
    rw [release]
    split
    · rfl
    · split_ifs <;> rfl
  rw [hsubs] at hforget
  have hrest := (((Shift.refl _).lifecycle (s.lifecycle.releaseGeneration cfg sub.lease.token false
    .deliveryUnknown)).scheduleQueueAdvance sub.lease.item.workItemId).finish cfg sub.caller
    false |>.carries hforget.sound
  exact (hrelease.trans hforget).trans hrest

end Submissions

/-! ## Reports, pause and resume -/

section Holding

variable {cfg : LifecycleConfig} {lease : UtteranceLease} {item : SpeechItem} {d : DeliveryState}
  {stale : Bool} {epoch : Option ℤ}

/-- A report that is not terminal leaves every record of a held item open or closed as it is. -/
theorem Conserved.standing_emit (hc : s.Conserved) (hitem : item ∈ s.held) (hd : d.terminal = false) :
    (s.state.emit d stale epoch item).standing u = s.state.standing u := by
  rcases eq_or_ne u item.utteranceId with rfl | hne
  · rcases hack : item.isAck with _ | _
    · refine standing_emit_progress hd ?_
      rcases hc.accounted item hitem hack with h | ⟨h, -⟩ <;> simp [h]
    · rw [SessionState.emit, if_pos hack]
  · exact standing_emit_of_ne hne

theorem shift_progress (hc : s.Conserved) (hitem : item ∈ s.held) (hd : d.terminal = false) :
    Shift s (s.emitProgress item d) [] where
  held := by rw [List.append_nil]; exact .refl _
  queued := fun _ hi => hi
  paused := fun _ _ hget => Or.inl hget
  leased := fun _ hl _ => Or.inl hl
  standing := fun _ => hc.standing_emit hitem hd
  final := fun _ _ hq hterm => emit_of_terminal hq hterm
  activeEpoch := emit_activeEpoch
  nextUtterance := rfl
  submissions := rfl

theorem carries_synthesisEnded (hs : s.Sound) (u : UtteranceId) : Carries s (s.synthesisEnded u) := by
  rw [synthesisEnded]
  rcases hl : s.activeLease u with _ | lease
  · exact .refl hs
  · exact (shift_progress hs.conserved (mem_held_of_active (activeLease_eq_some.mp hl).1) rfl).carries hs

/-- A pause of the work item loses nothing: no other item is paused for it, and the leased one has not
failed. -/
def pausable (s : SpeechScheduler) (key : String) : Bool :=
  s.active.all fun lease => lease.item.workItemId ≠ key ||
    ((s.paused.get? key).all (·.isAck) && s.submissions.all fun sub =>
      sub.failing.isNone || sub.lease.item.utteranceId ≠ lease.item.utteranceId)

theorem shift_pause (hs : s.Sound) {key : String} (hkey : s.pausable key = true) :
    ∃ D, Shift s (s.pause cfg key).1 D := by
  rcases pause_cases cfg s key with h | ⟨lease, hactive, hwork, h⟩
  · exact ⟨[], by rw [h]; exact .refl s⟩
  obtain ⟨hack, hfail⟩ : (∀ x, s.paused.get? key = some x → x.isAck = true) ∧ ∀ sub ∈ s.submissions,
      sub.failing = none ∨ sub.lease.item.utteranceId ≠ lease.item.utteranceId := by
    simpa [pausable, hactive, hwork, Option.all_eq_true] using hkey
  have hmem := mem_held_of_active hactive
  have hsilent : voiced (s.paused.get? key).toList = [] := by
    rw [voiced, List.filter_eq_nil_iff.mpr, List.map_nil]
    intro x hx
    simp [hack x (by simpa using hx)]
  refine ⟨(s.paused.get? key).toList, ?_⟩
  rw [h]
  refine ⟨?_, fun _ hi => hi, fun key' x hget => ?_, fun lease' hl' hack' => ?_, fun u => ?_,
    fun _ _ hq hterm => emit_of_terminal hq hterm, emit_activeEpoch, rfl, rfl⟩
  · simp only [SpeechScheduler.held, hactive, Option.toList_none, Option.toList_some, List.map_nil,
      List.map_cons, List.append_nil, List.append_assoc]
    exact ((s.paused.values_set_perm key lease.item).trans List.perm_append_comm).append_left _
  · rw [Dict.get?_set] at hget
    split_ifs at hget with heq
    · cases hget
      exact Or.inr (hwork.trans heq.symm)
    · exact Or.inl hget
  · cases hactive.symm.trans hl'
    refine Or.inr (Or.inr fun hclosed => ?_)
    rcases hs.conserved.accounted lease.item hmem hack' with hopen | ⟨-, -, sub, hsub, hsome, heq⟩
    · rw [hclosed] at hopen
      cases hopen
    · rcases hfail sub hsub with hnone | hne
      · rw [hnone] at hsome
        cases hsome
      · exact hne heq
  · rw [hsilent]
    simpa using hs.conserved.standing_emit hmem rfl

/-- The item a target stands for is paused under its own key. -/
theorem pausedFor_filed (hc : s.Conserved) {target : Target} (h : s.pausedFor target = some item) :
    s.paused.get? item.workItemId = some item := by
  have hfiled : ∀ key, s.paused.get? key = some item → s.paused.get? item.workItemId = some item := by
    intro key hget
    rwa [hc.filed key item hget]
  rcases target with _ | key | x
  · obtain ⟨key, hget⟩ := Dict.mem_values.mp (List.mem_of_getLast? h)
    exact hfiled key hget
  · exact hfiled key h
  · exact hfiled x.workItemId h

/-- A paused item is taken out, its record closed. -/
theorem shift_unpause (hs : s.Sound) (hget : s.paused.get? item.workItemId = some item) :
    Shift s ((s.unpause item).emitProgress item .interrupted) [item] := by
  have hmem : item ∈ s.paused.values := Dict.mem_values.mpr ⟨_, hget⟩
  have hperm := s.paused.values_pop_perm item.workItemId
  rw [hget] at hperm
  rw [unpause, if_pos hget]
  refine .unpause .interrupted false none rfl ?_ hperm (fun _ _ => get?_of_pop) rfl rfl rfl rfl rfl
  intro x hx
  rw [List.mem_singleton.mp hx]
  exact hs.timely.hears (mem_held_of_paused hmem) false

/-- What is resumed is of the active epoch. -/
def resumes (s : SpeechScheduler) : Target → Bool
  | .item item => item.isAck || item.originEpoch = s.state.activeEpoch
  | _ => true

/-- The replay of an item of the active epoch is filed like any other. -/
theorem carries_replay (hs : s.Sound) (hepoch : item.originEpoch = s.state.activeEpoch) :
    let r : SpeechScheduler × List Notice := match s.enqueue item.replay with
      | (s', none) => (s', [])
      | (s', some replay) => (s'.emitProgress replay .resumed, [.enqueued replay])
    Carries s r.1 ∧ ∀ item, .enqueued item ∈ r.2 → item ∈ r.1.held := by
  obtain ⟨hcarry, hnew⟩ := carries_enqueue (r := item.replay) hs fun _ => hepoch
  rcases heq : s.enqueue item.replay with ⟨s', _ | replay⟩
  · rw [heq] at hcarry
    exact ⟨hcarry, by simp⟩
  · rw [heq] at hcarry hnew
    have hheld := hnew replay rfl
    refine ⟨hcarry.trans ((shift_progress hcarry.sound.conserved hheld rfl).carries hcarry.sound), ?_⟩
    intro item hitem
    obtain rfl : item = replay := by simpa using hitem
    exact hheld

theorem carries_resume (hs : s.Sound) {target : Target} (hresumes : s.resumes target = true) :
    Carries s (s.resume target).1 ∧
      ∀ item, .enqueued item ∈ (s.resume target).2 → item ∈ (s.resume target).1.held := by
  rw [resume]
  rcases hres : s.resumable target with _ | item
  · exact ⟨.refl hs, by simp⟩
  dsimp only
  rcases hpaused : s.pausedFor target with _ | item'
  · -- Nothing is paused for the target: it is an item of the caller's, and is not held.
    have htarget : target = .item item := by
      rcases target with _ | _ | x
      · simp [resumable, hpaused] at hres
      · simp [resumable, hpaused] at hres
      · simpa [resumable, hpaused] using hres
    subst htarget
    have hget : s.paused.get? item.workItemId = none := hpaused
    have hunpause : s.unpause item = s := by rw [unpause, if_neg (by simp [hget])]
    rw [hunpause]
    rcases hack : item.isAck with _ | _
    · have hepoch : item.originEpoch = s.state.activeEpoch := by simpa [resumes, hack] using hresumes
      simp only [Bool.false_eq_true, if_false, Option.isSome_none]
      exact carries_replay hs hepoch
    · exact ⟨.refl hs, by simp⟩
  · have hitem : item' = item := by simpa [resumable, hpaused] using hres
    subst hitem
    have hget := pausedFor_filed hs.conserved hpaused
    have hshift := shift_unpause hs hget
    rcases hack : item'.isAck with _ | _
    · have hcarry := hshift.carries hs
      have hepoch : item'.originEpoch = ((s.unpause item').emitProgress item' .interrupted).state.activeEpoch := by
        rw [hshift.activeEpoch]
        exact hs.timely item' (mem_held_of_paused (Dict.mem_values.mpr ⟨_, hget⟩)) hack
      obtain ⟨hreplay, hnew⟩ := carries_replay hcarry.sound hepoch
      simp only [Bool.false_eq_true, if_false, Option.isSome_some, if_true]
      exact ⟨hcarry.trans hreplay, hnew⟩
    · have hsame : (s.unpause item').emitProgress item' .interrupted = s.unpause item' := by
        simp [emitProgress, SessionState.emit, hack]
      rw [hsame] at hshift
      exact ⟨hshift.carries hs, by simp⟩

/-! ## Interruption and cancellation -/

theorem carries_foldl {β : Type*} {f : SpeechScheduler → β → SpeechScheduler}
    (hf : ∀ s b, s.Sound → Carries s (f s b)) (hs : s.Sound) (bs : List β) :
    Carries s (bs.foldl f s) := by
  induction bs generalizing s with
  | nil => exact .refl hs
  | cons b bs ih => exact (hf s b hs).trans (ih (hf s b hs).sound)

theorem carries_cancel (hs : s.Sound) (key : Option String) : Carries s (s.cancel cfg key).1 := by
  have hlane := fun (s : SpeechScheduler) b (hs : s.Sound) => carries_of_shift (shift_cancelLane hs.timely b) hs
  have hpaused := fun (s : SpeechScheduler) b (hs : s.Sound) => carries_of_shift (shift_cancelPaused hs.timely b) hs
  have hrest : ∀ s' : SpeechScheduler, s'.Sound → ∀ keys keys' : List String,
      Carries s' (keys'.foldl cancelPaused (keys.foldl cancelLane s')) := fun s' hs' keys keys' =>
    (carries_foldl hlane hs' keys).trans (carries_foldl hpaused (carries_foldl hlane hs' keys).sound keys')
  rw [cancel]
  rcases hactive : s.active with _ | lease
  · exact hrest s hs _ _
  dsimp only
  split_ifs
  · have hleft := (shift_interruptActive cfg hactive (d := .interrupted) rfl
      (hs.timely.hears (mem_held_of_active hactive) false) false).carries hs
    exact hleft.trans (hrest _ hleft.sound _ _)
  · exact hrest s hs _ _

/-- A discarding interruption drops everything, of whatever epoch. -/
theorem carries_discard (cfg : LifecycleConfig) (epoch : Option ℤ) (hc : s.Conserved) {reconnect fullStop : Bool}
    (h : (reconnect || fullStop) = true) :
    Carries s (s.interrupt cfg epoch reconnect fullStop).1 := by
  set d := if reconnect then DeliveryState.interruptedByReconnect else .interrupted with hd
  have hterm : d.terminal = true := by
    rw [hd]
    split_ifs <;> rfl
  obtain ⟨s₁, D, hshift, hnone, heq⟩ : ∃ s₁ D, Shift s s₁ D ∧ s₁.active = none ∧
      (s.interrupt cfg epoch reconnect fullStop).1 = (s₁.sweep d epoch).1 := by
    rcases hactive : s.active with _ | lease
    · exact ⟨s, [], .refl s, hactive, by simp [interrupt, hactive, h, hd]⟩
    · refine ⟨_, _, shift_interruptActive cfg hactive hterm (s.hears_stale epoch lease.item) false, ?_, by simp [interrupt, hactive, h, hd]⟩
      rw [interruptActive_of_active hactive]
  have hsweep := shift_sweep (s := s₁) hterm epoch
  have hempty : (s₁.sweep d epoch).1.held = [] := by
    change ([] : List SpeechItem) ++ s₁.active.toList.map (·.item) ++ [] = []
    rw [hnone]
    rfl
  rw [heq]
  refine ⟨⟨hsweep.conserved (hshift.conserved hc), fun item hi => ?_⟩, fun u q hq hterm' => ?_,
    fun u hu => hsweep.recorded u (hshift.recorded u hu),
    (hsweep.nextUtterance.trans hshift.nextUtterance).ge, fun item hi => ?_⟩
  · rw [hempty] at hi
    cases hi
  · exact hsweep.final u q (hshift.final u q hq hterm') hterm'
  · rw [hempty] at hi
    cases hi

/-- A plain interruption that carries no epoch, or the active one, is heard. -/
theorem carries_interrupt (hs : s.Sound) (hepoch : epoch = none ∨ epoch = s.state.activeEpoch) :
    Carries s (s.interrupt cfg epoch false false).1 := by
  rcases hactive : s.active with _ | lease
  · rw [interrupt, hactive]
    exact .refl hs
  · rw [interrupt, hactive]
    refine (shift_interruptActive cfg hactive rfl (fun hack => Or.inr ?_) false).carries hs
    have horigin := hs.timely lease.item (mem_held_of_active hactive) hack
    rcases hepoch with rfl | rfl
    · exact horigin
    · rcases hactive' : s.state.activeEpoch with _ | e
      · rw [hactive'] at horigin
        exact horigin
      · rfl

end Holding

/-! ## The provider -/

section Provider

variable {cfg : LifecycleConfig} {d : DeliveryState}

theorem shift_providerStarted (s : SpeechScheduler) (ctx : UtteranceId) :
    Shift s (s.providerStarted ctx) [] := by
  rw [providerStarted]
  split
  · exact .refl s
  · split_ifs
    · exact .refl s
    · exact (Shift.refl s).providerContexts _

theorem carries_providerSynthesisEnded (hs : s.Sound) (ctx : UtteranceId) :
    Carries s (s.providerSynthesisEnded ctx) := by
  rw [providerSynthesisEnded]
  split
  · exact .refl hs
  · exact carries_synthesisEnded hs _

theorem shift_providerDelivery (ht : s.Timely) (hd : d.terminal = true)
    (disposition : DeliveryDisposition) (ctx : UtteranceId) : ∃ D, Shift s
      (match s.providerLease ctx with
        | none => s
        | some lease => (s.deliver cfg d disposition lease.item.utteranceId).forgetContext ctx) D := by
  split
  · exact ⟨[], .refl s⟩
  · rename_i lease _
    obtain ⟨D, h⟩ := shift_deliver cfg ht hd disposition lease.item.utteranceId
    exact ⟨D, h.providerContexts _⟩

end Provider

end SpeechScheduler

end SubagentsLab

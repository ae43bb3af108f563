import SubagentsLab.Speech.Slot

/-!
# Speech/Deadline — who will free the slot

An occupied slot is **attended** when somebody is bound to free it: a teardown has been requested, a
deadline is armed, the generation is still on its way (not handed over yet, or speaking), or a
coroutine that will get to it is under way.  The four deadlines share one timer handle, and the
one-shot `cleanup_pending` flag turns a second cleanup into a no-op, so an interruption that lands
while the flush-acknowledgement deadline is armed replaces the only deadline that still mattered
(`interruption_strands_slot`).  In every run without such an interruption the slot is attended in
every state (`slot_attended`).
-/

namespace SubagentsLab

open Machinery

namespace SpeechLifecycleCoordinator

open SlotStore

/-! ## Watching a run -/

/-- A coordinator with what its callers did: the generations handed to TTS, and those whose context
was heard to start and not to stop since. -/
structure Watch where
  lifecycle : SpeechLifecycleCoordinator := {}
  handed : Token → Bool := fun _ => false
  speaking : Token → Bool := fun _ => false

/-- The generations handed to TTS, after one more event. -/
def Watch.handedAfter (w : Watch) : Event → Token → Bool
  | .markHandedToTts token =>
    if (w.lifecycle.generations token).isSome then Function.update w.handed token true else w.handed
  | _ => w.handed

/-- The generations heard speaking, after one more event. -/
def Watch.speakingAfter (w : Watch) : Event → Token → Bool
  | .onTtsStarted contextId =>
    match w.lifecycle.heard contextId with
    | some (token, _) => Function.update w.speaking token true
    | none => w.speaking
  | .onTtsStopped contextId =>
    match w.lifecycle.heard contextId with
    | some (token, _) => Function.update w.speaking token false
    | none => w.speaking
  | _ => w.speaking

/-- One watched step. -/
def Watch.next (cfg : LifecycleConfig) (w : Watch) (e : Event) : Watch :=
  ⟨(step cfg w.lifecycle e).1, w.handedAfter e, w.speakingAfter e⟩

/-- The watched state after a run. -/
def watch (cfg : LifecycleConfig) (es : List Event) : Watch := Machinery.run (Watch.next cfg) {} es

/-- The token has a deadline that is armed and has not fired. -/
def Armed (c : SpeechLifecycleCoordinator) (token : Token) : Prop :=
  ∃ h, c.timerHandles token = some h ∧ h.fired = false

/-- **No stranded slot**: with no scheduled coroutine under way, and no cleanup still being
dispatched, the generation in an occupied slot has an armed deadline, or was not handed to TTS yet,
or is speaking, or its teardown is requested. -/
def Watch.NotStranded (w : Watch) : Prop :=
  (∀ t ∈ w.lifecycle.transitions, t.scheduled = false ∧ ∀ token, t.point ≠ .dispatchingCleanup token) →
    ∀ token, w.lifecycle.slotToken = some token → ∃ g, w.lifecycle.generations token = some g ∧
      (w.lifecycle.Armed token ∨ w.handed token = false ∨
        (g.tombstoned = false ∧ w.speaking token = true) ∨ g.teardownPending = true)

/-- No interruption lands on a context-bound generation while its flush-acknowledgement deadline is
armed. -/
def Unhurried (c : SpeechLifecycleCoordinator) : Event → Prop
  | .recordInterruption token _ =>
    (c.generations token).all (fun g => g.contextId.isNone) = true ∨
      (c.timerHandles token).all (fun h => h.fired || h.deadline ≠ .flushAck) = true
  | _ => True

instance (c : SpeechLifecycleCoordinator) : (e : Event) → Decidable (c.Unhurried e)
  | .recordInterruption _ _ => inferInstanceAs (Decidable (_ ∨ _))
  | .tryAdmit _ | .markHandedToTts _ | .bindContext _ _ | .onTtsStarted _ | .onTtsAudio _ _ _ _
  | .onTtsStopped _ | .onTransportBotStarted | .onTransportBotStopped | .releaseGeneration _ _ _
  | .providerError _ | .acknowledgeTtsLaneFlush _ | .teardownComplete _ | .connectionClosed
  | .tick _ | .timerFires _ | .run _ | .callbackDone _ _ => isTrue trivial

/-! ## The invariant -/

end SpeechLifecycleCoordinator

/-- The coroutine will get to the generation of `token`; one that only starts a cleanup will not,
once a cleanup is pending. -/
def TransitionPoint.attends (token : Token) (cleanupPending : Bool) : TransitionPoint → Bool
  | .onTimeout .flushAck t => t = token
  | .onTimeout _ t => t = token && !cleanupPending
  | .finalizeUncontextedInterruption t _ | .dispatchingFinalCleanup t _ | .terminalize t _
  | .dispatchingCleanup t => t = token
  | _ => false

/-- The coroutine is under way only for a tombstoned generation. -/
def TransitionPoint.fences (token : Token) : TransitionPoint → Bool
  | .onTimeout .interruption t | .onTimeout .flushAck t => t = token
  | .finalizeUncontextedInterruption t _ | .dispatchingFinalCleanup t _
  | .dispatchingCleanup t => t = token
  | _ => false

namespace SpeechLifecycleCoordinator

open SlotStore

/-- Somebody is bound to get to the generation `g` of `token`. -/
def Care (handed speaking : Token → Bool) (c : SpeechLifecycleCoordinator) (token : Token)
    (g : SpeechGeneration) : Prop :=
  g.teardownPending = true ∨
    (∃ h, c.timerHandles token = some h ∧ h.fired = false ∧
      (g.cleanupPending = true → h.deadline = .flushAck)) ∨
    (g.tombstoned = false ∧ (handed token = false ∨ speaking token = true)) ∨
    ∃ t ∈ c.transitions, t.point.attends token g.cleanupPending = true

/-- Nothing that belongs to a tombstoned generation is under way before it is tombstoned. -/
structure Fenced (c : SpeechLifecycleCoordinator) (token : Token) (g : SpeechGeneration) : Prop where
  cleanup : g.cleanupPending = true → g.tombstoned = true
  timer : ∀ h, c.timerHandles token = some h →
    h.deadline = .interruption ∨ h.deadline = .flushAck → g.tombstoned = true
  coroutine : ∀ t ∈ c.transitions, t.point.fences token = true → g.tombstoned = true

/-- A stored generation is tended. -/
def Tended (handed speaking : Token → Bool) (c : SpeechLifecycleCoordinator) : Prop :=
  ∀ token g, c.generations token = some g → c.Fenced token g ∧ Care handed speaking c token g

/-- Deadlines and coroutines belong to issued tokens, and a coroutine awaited by its caller is past
its first callback. -/
structure Orderly (c : SpeechLifecycleCoordinator) : Prop where
  timers : ∀ t h, c.timerHandles t = some h → t < c.nextToken
  fencing : ∀ t ∈ c.transitions, ∀ token, t.point.fences token = true → token < c.nextToken
  visible : ∀ t ∈ c.transitions, t.scheduled = false →
    t.point.begun = true ∧ ∀ token d, t.point ≠ .dispatchingFinalCleanup token d

/-- **The deadline invariant.** -/
structure Watch.Attended (w : Watch) : Prop where
  wellformed : w.lifecycle.toSlotStore.Wellformed
  orderly : w.lifecycle.Orderly
  issued : ∀ t, w.handed t = true → t < w.lifecycle.nextToken
  tended : Tended w.handed w.speaking w.lifecycle

variable {cfg : LifecycleConfig} {w : Watch} {c c' : SpeechLifecycleCoordinator} {token : Token}
  {g g' : SpeechGeneration} {handed speaking : Token → Bool}

theorem Fenced.of_tombstoned (h : g.tombstoned = true) : c.Fenced token g :=
  ⟨fun _ => h, fun _ _ _ => h, fun _ _ _ => h⟩

theorem Fenced.mono (h : c.Fenced token g) (ht : g'.tombstoned = g.tombstoned)
    (hcp : g'.cleanupPending = g.cleanupPending)
    (htimer : ∀ hd, c'.timerHandles token = some hd →
      hd.deadline = .interruption ∨ hd.deadline = .flushAck → c.timerHandles token = some hd)
    (htr : ∀ t ∈ c'.transitions, t ∈ c.transitions ∨ t.point.fences token = false) :
    c'.Fenced token g' where
  cleanup := by rw [ht, hcp]; exact h.cleanup
  timer := fun hd hhd hk => ht.trans (h.timer hd (htimer hd hhd hk) hk)
  coroutine := by
    intro t hmem hf
    rw [ht]
    rcases htr t hmem with hold | hno
    · exact h.coroutine t hold hf
    · rw [hno] at hf
      cases hf

theorem Fenced.take (h : c.Fenced token g) (t : Transition) : (c.take t).Fenced token g :=
  ⟨h.cleanup, h.timer, fun t' hmem => h.coroutine t' (List.mem_of_mem_erase hmem)⟩

/-- Flags, deadline and coroutines that only get better keep a generation cared for. -/
theorem Care.mono (h : Care handed speaking c token g)
    (ht : g.tombstoned = false → g'.tombstoned = false)
    (hcp : g'.cleanupPending = g.cleanupPending)
    (htd : g.teardownPending = true → g'.teardownPending = true)
    (htimer : c'.timerHandles token = c.timerHandles token)
    (htr : ∀ t ∈ c.transitions, t ∈ c'.transitions) : Care handed speaking c' token g' := by
  rw [Care, hcp, htimer]
  rcases h with htear | htime | ⟨htomb, hwait⟩ | ⟨t, hmem, hatt⟩
  · exact Or.inl (htd htear)
  · exact Or.inr (Or.inl htime)
  · exact Or.inr (Or.inr (Or.inl ⟨ht htomb, hwait⟩))
  · exact Or.inr (Or.inr (Or.inr ⟨t, htr t hmem, hatt⟩))

/-- Only the generations, the timer handles and the coroutines matter. -/
theorem Tended.congr (h : Tended handed speaking c) (hgen : c'.generations = c.generations)
    (htimer : c'.timerHandles = c.timerHandles) (htr : c'.transitions = c.transitions) :
    Tended handed speaking c' := by
  intro t g hg
  obtain ⟨hf, hc⟩ := h t g (hgen ▸ hg)
  exact ⟨hf.mono rfl rfl (fun _ hhd _ => htimer ▸ hhd) (fun _ ht => Or.inl (htr ▸ ht)),
    hc.mono id rfl id (by rw [htimer]) fun _ ht => htr ▸ ht⟩

/-- Taking up a coroutine that was not going to get to the generation. -/
theorem Care.take (h : Care handed speaking c token g) {t : Transition}
    (hno : t.point.attends token g.cleanupPending = false) :
    Care handed speaking (c.take t) token g := by
  rcases h with htear | htime | hwait | ⟨t', hmem, hatt⟩
  · exact Or.inl htear
  · exact Or.inr (Or.inl htime)
  · exact Or.inr (Or.inr (Or.inl hwait))
  · refine Or.inr (Or.inr (Or.inr ⟨t', (List.mem_erase_of_ne ?_).mpr hmem, hatt⟩))
    rintro rfl
    rw [hno] at hatt
    cases hatt

/-- **An attended slot is not stranded.** -/
theorem Watch.Attended.notStranded (h : w.Attended) : w.NotStranded := by
  intro hquiet token hslot
  obtain ⟨g, hg⟩ := h.wellformed.stored token hslot
  refine ⟨g, hg, ?_⟩
  rcases (h.tended token g hg).2 with htear | ⟨hd, hh, hf, -⟩ | ⟨ht, hun | hsp⟩ | ⟨t, hmem, hatt⟩
  · exact Or.inr (Or.inr (Or.inr htear))
  · exact Or.inl ⟨hd, hh, hf⟩
  · exact Or.inr (Or.inl hun)
  · exact Or.inr (Or.inr (Or.inl ⟨ht, hsp⟩))
  · obtain ⟨hsched, hclean⟩ := hquiet t hmem
    obtain ⟨hbegun, hfinal⟩ := h.orderly.visible t hmem hsched
    rcases hp : t.point with _ | _ | _ | _ | _ | tok | ⟨tok, d⟩ | _ | _ <;>
      simp_all [TransitionPoint.begun, TransitionPoint.attends]

/-! ## Order among timers and coroutines -/

section Orderly

variable {me : Coroutine} {point : TransitionPoint}

theorem Orderly.upon (h : c.Orderly) {s : SlotStore} (hn : c.nextToken ≤ s.nextToken) :
    (c.upon s).Orderly :=
  ⟨fun t hh hm => Nat.lt_of_lt_of_le (h.timers t hh hm) hn,
    fun t hm token hf => Nat.lt_of_lt_of_le (h.fencing t hm token hf) hn, h.visible⟩

theorem Orderly.modify (h : c.Orderly) (f : SpeechGeneration → SpeechGeneration) :
    (c.modify token f).Orderly := h.upon (Nat.le_refl _)

theorem Orderly.cancelTimer (h : c.Orderly) : (c.cancelTimer token).Orderly := by
  refine ⟨fun t hh hm => ?_, h.fencing, h.visible⟩
  rcases eq_or_ne t token with rfl | hne
  · simp [SpeechLifecycleCoordinator.cancelTimer] at hm
  · exact h.timers t hh (by simpa [SpeechLifecycleCoordinator.cancelTimer, hne] using hm)

theorem Orderly.arm (h : c.Orderly) (ht : token < c.nextToken) (due : ℚ) (d : Deadline) :
    (c.arm token due d).Orderly := by
  refine ⟨fun t hh hm => ?_, h.fencing, h.visible⟩
  rcases eq_or_ne t token with rfl | hne
  · exact ht
  · exact h.timers t hh (by simpa [SpeechLifecycleCoordinator.arm, hne] using hm)

theorem Orderly.drawId (h : c.Orderly) : c.drawId.Orderly := ⟨h.timers, h.fencing, h.visible⟩

theorem Orderly.take (h : c.Orderly) (t : Transition) : (c.take t).Orderly :=
  ⟨h.timers, fun t' hm => h.fencing t' (List.mem_of_mem_erase hm),
    fun t' hm => h.visible t' (List.mem_of_mem_erase hm)⟩

theorem Orderly.suspend (h : c.Orderly) (hf : ∀ t, point.fences t = true → t < c.nextToken)
    (hv : me.scheduled = false →
      point.begun = true ∧ ∀ token d, point ≠ .dispatchingFinalCleanup token d) :
    (c.suspend me point).Orderly := by
  refine ⟨h.timers, fun t hm => ?_, fun t hm => ?_⟩ <;>
    rcases List.mem_append.mp hm with hm | hm
  · exact h.fencing t hm
  · rw [List.mem_singleton.mp hm]
    exact hf
  · exact h.visible t hm
  · rw [List.mem_singleton.mp hm]
    exact hv

theorem Orderly.schedule (h : c.Orderly) (hf : ∀ t, point.fences t = true → t < c.nextToken) :
    (c.schedule point).Orderly := h.drawId.suspend hf (by simp)

theorem lt_nextToken (hwf : c.toSlotStore.Wellformed) (hg : c.generations token = some g) :
    token < c.nextToken := hwf.issued token (hwf.occupant token g hg)

theorem Orderly.requestTeardown (h : c.Orderly) : (c.requestTeardown me token).1.Orderly := by
  rw [SpeechLifecycleCoordinator.requestTeardown]
  split
  · exact h
  · split_ifs
    · exact h
    · exact (h.modify _).cancelTimer.suspend (by simp [TransitionPoint.fences])
        (by simp [TransitionPoint.begun])

theorem Orderly.beginCleanup (h : c.Orderly) (hwf : c.toSlotStore.Wellformed) :
    (c.beginCleanup me token).1.Orderly := by
  rw [SpeechLifecycleCoordinator.beginCleanup]
  split
  · exact h
  · rename_i g hg
    split_ifs
    · exact h
    · refine (h.modify _).suspend (fun t ht => ?_) (by simp [TransitionPoint.begun])
      obtain rfl : token = t := by simpa [TransitionPoint.fences] using ht
      exact lt_nextToken (c := c) hwf hg

theorem Orderly.terminalize (h : c.Orderly) (d : DeliveryDisposition) (teardown : Bool) :
    (c.terminalize cfg me token d teardown).1.Orderly := by
  rcases hl : c.live token with _ | g
  · rw [terminalize_of_none hl]
    split_ifs
    · exact ⟨h.timers, h.fencing, h.visible⟩
    · exact h
  · rw [terminalize_of_some hl]
    refine Orderly.suspend (h.cancelTimer.upon (Nat.le_refl _)) ?_ ?_
    · simp [TransitionPoint.fences]
    · simp [TransitionPoint.begun]

theorem Orderly.beginDeliveryUnknown (h : c.Orderly) (hwf : c.toSlotStore.Wellformed) :
    (c.beginDeliveryUnknown me token).1.Orderly := by
  rw [SpeechLifecycleCoordinator.beginDeliveryUnknown]
  split
  · exact h
  · exact (h.modify _).beginCleanup
      (hwf.modify fun g _ => ⟨rfl, rfl, rfl, fun _ => rfl, id, fun _ => ⟨rfl, rfl⟩⟩)

theorem Orderly.endCleanup (h : c.Orderly) (hwf : c.toSlotStore.Wellformed) (ok : Bool) :
    (c.endCleanup cfg me token ok).1.Orderly := by
  rw [SpeechLifecycleCoordinator.endCleanup]
  split_ifs
  · split
    · exact h
    · rename_i g hg
      split_ifs
      · exact h.requestTeardown
      · exact h.arm (lt_nextToken hwf (live_eq_some.mp hg).1) _ _
  · exact h.requestTeardown

theorem Orderly.firstStep (h : c.Orderly) (hwf : c.toSlotStore.Wellformed)
    (hme : point.begun = false → me.scheduled = true) :
    (c.firstStep cfg me point).1.Orderly := by
  rcases point with ⟨d, token⟩ | ⟨token, d⟩ | ⟨token, d⟩ | ⟨token, i, d⟩ | _ | _ | _ | _ | _
  case onTimeout =>
    rcases d with _ | _ | _ | _
    · exact h.beginDeliveryUnknown hwf
    · exact h.beginDeliveryUnknown hwf
    · simp only [SpeechLifecycleCoordinator.firstStep]
      split
      · exact h
      · exact h.beginCleanup hwf
    · exact h.requestTeardown
  case finalizeUncontextedInterruption =>
    simp only [SpeechLifecycleCoordinator.firstStep,
      SpeechLifecycleCoordinator.finalizeUncontextedInterruption]
    split
    · exact h
    · rename_i g hg
      refine h.suspend (fun t ht => ?_) (fun hs => absurd hs (by simp [hme rfl]))
      obtain rfl : token = t := by simpa [TransitionPoint.fences] using ht
      exact lt_nextToken hwf (live_eq_some.mp hg).1
  case terminalize => exact h.terminalize d false
  case callOnTerminal =>
    exact h.suspend (by simp [TransitionPoint.fences]) (by simp [TransitionPoint.begun])
  all_goals exact h

theorem Orderly.afterCallback (h : c.Orderly) (hwf : c.toSlotStore.Wellformed) (ok : Bool) :
    (c.afterCallback cfg me ok point).1.Orderly := by
  rcases point with _ | _ | _ | _ | _ | token | ⟨token, d⟩ | token | ⟨token, teardown⟩
  case dispatchingCleanup => exact h.endCleanup hwf ok
  case dispatchingFinalCleanup =>
    simp only [SpeechLifecycleCoordinator.afterCallback]
    split_ifs
    · exact h.terminalize d false
    · exact h.requestTeardown
  case reportingTerminal =>
    simp only [SpeechLifecycleCoordinator.afterCallback]
    split_ifs
    · exact ⟨h.timers, h.fencing, h.visible⟩
    · exact h
  all_goals exact h

theorem fences_onTimeout {d : Deadline} {t : Token}
    (h : (TransitionPoint.onTimeout d token).fences t = true) : token = t := by
  rcases d with _ | _ | _ | _ <;> simp_all [TransitionPoint.fences]

/-- **Every step keeps timers and coroutines in order.** -/
theorem Orderly.step (h : c.Orderly) (hwf : c.toSlotStore.Wellformed) (e : Event) :
    (step cfg c e).1.Orderly := by
  rcases e with identity | token | ⟨token, ctx⟩ | ctx | ⟨ctx, n, r, k⟩ | ctx | _ | _ | ⟨token, pause⟩ |
    ⟨token, notify, d⟩ | token | token | token | _ | now | token | id | ⟨id, ok⟩ <;>
    simp only [SpeechLifecycleCoordinator.step]
  case tryAdmit =>
    rw [SpeechLifecycleCoordinator.tryAdmit]
    split_ifs
    · exact h
    · exact h.upon (Nat.le_succ _)
  case markHandedToTts =>
    rw [SpeechLifecycleCoordinator.markHandedToTts]
    split
    · exact h
    · rename_i g hg
      split_ifs
      · exact h
      · exact (h.modify _).arm (lt_nextToken (c := c) hwf (live_eq_some.mp hg).1) _ _
  case bindContext =>
    rcases bindContext_cases c token ctx with heq | heq
    · rwa [heq]
    · rw [heq]
      exact h.upon (Nat.le_refl _)
  case onTtsStarted =>
    rw [SpeechLifecycleCoordinator.onTtsStarted]
    split
    · exact h
    · exact h.cancelTimer.modify _
  case onTtsAudio =>
    rw [SpeechLifecycleCoordinator.onTtsAudio]
    split
    · exact h
    · exact h.modify _
  case onTtsStopped =>
    rw [SpeechLifecycleCoordinator.onTtsStopped]
    split
    · exact h
    · rename_i token g hg
      exact (h.modify _).arm
        (lt_nextToken (c := c) hwf (live_eq_some.mp (heard_eq_some.mp hg).2.1).1) _ _
  case onTransportBotStarted =>
    rw [SpeechLifecycleCoordinator.onTransportBotStarted]
    split
    · exact h
    · exact h.modify _
  case onTransportBotStopped =>
    rw [SpeechLifecycleCoordinator.onTransportBotStopped]
    split
    · exact h.schedule (by simp [TransitionPoint.fences])
    · split
      · exact h.schedule (by simp [TransitionPoint.fences])
      · exact (h.cancelTimer.modify _).schedule (by simp [TransitionPoint.fences])
  case recordInterruption =>
    rw [SpeechLifecycleCoordinator.recordInterruption]
    split
    · exact h
    · rename_i g hg
      have hlt := lt_nextToken hwf (live_eq_some.mp hg).1
      dsimp only
      split
      · refine (h.cancelTimer.modify _).schedule fun t ht => ?_
        obtain rfl : token = t := by simpa [TransitionPoint.fences] using ht
        exact hlt
      · exact (h.cancelTimer.modify _).arm hlt _ _
  case releaseGeneration =>
    rcases hl : c.live token with _ | g
    · rwa [releaseGeneration_of_none hl]
    · rw [releaseGeneration_of_some hl]
      have hreap : ((c.cancelTimer token).upon (c.reap cfg token g)).Orderly :=
        h.cancelTimer.upon (Nat.le_refl _)
      split_ifs
      · exact hreap.schedule (by simp [TransitionPoint.fences])
      · exact hreap
  case providerError => exact h.drawId.beginDeliveryUnknown hwf
  case acknowledgeTtsLaneFlush =>
    rw [SpeechLifecycleCoordinator.acknowledgeTtsLaneFlush]
    split
    · exact h
    · split_ifs
      · exact h
      · exact h.drawId.terminalize _ false
  case teardownComplete =>
    rw [SpeechLifecycleCoordinator.teardownComplete]
    split
    · exact h
    · exact h.drawId.terminalize _ true
  case connectionClosed =>
    exact ⟨by simp [closeConnection], fun t hm => h.fencing t (List.mem_of_mem_filter hm),
      fun t hm => h.visible t (List.mem_of_mem_filter hm)⟩
  case tick => exact ⟨h.timers, h.fencing, h.visible⟩
  case timerFires =>
    rw [fireTimer]
    split
    · exact h
    · rename_i hd hhd
      have hlt := h.timers token hd hhd
      split_ifs
      · exact h
      · refine Orderly.schedule ⟨fun t hh hm => ?_, h.fencing, h.visible⟩ fun t ht => ?_
        · rcases eq_or_ne t token with rfl | hne
          · exact hlt
          · exact h.timers t hh (by simpa [hne] using hm)
        · rwa [← fences_onTimeout ht]
  case run =>
    split
    · exact h
    · rename_i t ht
      split_ifs with hb
      · exact h
      · refine (h.take t).firstStep hwf fun _ => ?_
        by_contra hs
        exact hb (h.visible t (List.mem_of_find?_eq_some ht) (by simpa using hs)).1
  case callbackDone =>
    split
    · exact h
    · rename_i t ht
      split_ifs
      · exact (h.take t).afterCallback hwf ok
      · exact h

end Orderly

/-! ## Who gets to the generation, operation by operation

Each lemma is about a coroutine of `token` that was taken up: all other generations are cared for,
and what is assumed of the generation of `token` is what the operation needs. -/

section Tending

variable {me : Coroutine}

/-- A coroutine that suspends on its way to the generation cares for it. -/
theorem care_suspend {point : TransitionPoint}
    (h : point.attends token g.cleanupPending = true) :
    Care handed speaking (c.suspend me point) token g :=
  Or.inr (Or.inr (Or.inr ⟨{ me with point }, List.mem_append_right _ (List.mem_singleton_self _), h⟩))

/-- Everything stored is fenced, and cared for unless it is `token`'s. -/
def TendedBut (handed speaking : Token → Bool) (c : SpeechLifecycleCoordinator) (token : Token) :
    Prop :=
  ∀ t g, c.generations t = some g → c.Fenced t g ∧ (t ≠ token → Care handed speaking c t g)

theorem TendedBut.tended (h : TendedBut handed speaking c token)
    (hc : ∀ g, c.generations token = some g → Care handed speaking c token g) :
    Tended handed speaking c := by
  intro t g hg
  refine ⟨(h t g hg).1, ?_⟩
  rcases eq_or_ne t token with rfl | hne
  · exact hc g hg
  · exact (h t g hg).2 hne

/-- The generation of `token` changes, with its timer handle; a coroutine may be added. -/
theorem TendedBut.update (h : TendedBut handed speaking c token)
    (f : SpeechGeneration → SpeechGeneration)
    (hgen : c'.generations = Function.update c.generations token ((c.generations token).map f))
    (htimer : ∀ t, t ≠ token → c'.timerHandles t = c.timerHandles t)
    (htr : ∀ t ∈ c.transitions, t ∈ c'.transitions)
    (hnew : ∀ t ∈ c'.transitions, t ∈ c.transitions ∨ ∀ t', t' ≠ token → t.point.fences t' = false)
    (hself : ∀ g, c.generations token = some g →
      c'.Fenced token (f g) ∧ Care handed speaking c' token (f g)) : Tended handed speaking c' := by
  intro t g' hg'
  rw [hgen] at hg'
  rcases eq_or_ne t token with rfl | hne
  · rw [Function.update_self, Option.map_eq_some_iff] at hg'
    obtain ⟨g, hg, rfl⟩ := hg'
    exact hself g hg
  · rw [Function.update_of_ne hne] at hg'
    obtain ⟨hf, hc⟩ := h t g' hg'
    exact ⟨hf.mono rfl rfl (fun hd hhd _ => htimer t hne ▸ hhd)
        (fun t' ht' => (hnew t' ht').imp_right fun hn => hn t hne),
      (hc hne).mono id rfl id (htimer t hne) htr⟩

theorem tended_requestTeardown (hwf : c.toSlotStore.Wellformed)
    (h : TendedBut handed speaking c token) :
    Tended handed speaking (c.requestTeardown me token).1 := by
  rw [requestTeardown, hwf.live_eq]
  rcases hg : c.generations token with _ | g
  · exact h.tended (by simp [hg])
  · by_cases htd : g.teardownPending = true
    · simp only [htd, if_true]
      exact h.tended fun g' hg' => Or.inl (by rw [hg] at hg'; cases hg'; exact htd)
    · simp only [htd, Bool.false_eq_true, if_false]
      refine h.update (fun g => { g with teardownPending := true }) rfl ?_ ?_ ?_ ?_
      · intro t hne
        simp [suspend, cancelTimer, modify, upon, hne]
      · exact fun t ht => List.mem_append_left _ ht
      · intro t ht
        refine (List.mem_append.mp ht).imp_right fun hnew => ?_
        rw [List.mem_singleton.mp hnew]
        simp [TransitionPoint.fences]
      · intro g' hg'
        refine ⟨(h token g' hg').1.mono rfl rfl ?_ ?_, Or.inl rfl⟩
        · simp [suspend, cancelTimer]
        · intro t ht
          refine (List.mem_append.mp ht).imp_right fun hnew => ?_
          rw [List.mem_singleton.mp hnew]
          rfl

theorem tended_beginCleanup (h : TendedBut handed speaking c token)
    (htomb : ∀ g, c.generations token = some g → g.tombstoned = true)
    (hc : ∀ g, c.generations token = some g → g.cleanupPending = true →
      Care handed speaking c token g) :
    Tended handed speaking (c.beginCleanup me token).1 := by
  rw [beginCleanup]
  rcases hg : c.generations token with _ | g
  · exact h.tended (by simp [hg])
  · by_cases hcp : g.cleanupPending = true
    · simp only [hcp, if_true]
      exact h.tended fun g' hg' => hc g' hg' (by rw [hg] at hg'; cases hg'; exact hcp)
    · simp only [hcp, Bool.false_eq_true, if_false]
      refine h.update (fun g => { g with cleanupPending := true }) rfl (fun _ _ => rfl)
        (fun t ht => List.mem_append_left _ ht) ?_ ?_
      · intro t ht
        refine (List.mem_append.mp ht).imp_right fun hnew => ?_
        rw [List.mem_singleton.mp hnew]
        intro t' hne
        simpa [TransitionPoint.fences] using hne.symm
      · intro g' hg'
        exact ⟨.of_tombstoned (htomb g' hg'), care_suspend (by simp [TransitionPoint.attends])⟩

theorem tended_beginDeliveryUnknown (hwf : c.toSlotStore.Wellformed)
    (h : TendedBut handed speaking c token)
    (hc : ∀ g, c.generations token = some g → g.cleanupPending = true →
      Care handed speaking c token g) :
    Tended handed speaking (c.beginDeliveryUnknown me token).1 := by
  rw [beginDeliveryUnknown, hwf.live_eq]
  rcases hg : c.generations token with _ | g
  · exact h.tended (by simp [hg])
  · have hself : ∀ g', (c.modify token fun g =>
        { g with
          disposition := some (g.disposition.getD .deliveryUnknown)
          tombstoned := true }).generations token = some g' →
        g'.tombstoned = true ∧ g'.cleanupPending = g.cleanupPending ∧
          g'.teardownPending = g.teardownPending := by
      intro g' hg'
      simp only [modify, upon, SlotStore.modify, Function.update_self, hg, Option.map_some,
        Option.some.injEq] at hg'
      subst hg'
      exact ⟨rfl, rfl, rfl⟩
    refine tended_beginCleanup ?_ (fun g' hg' => (hself g' hg').1) ?_
    · intro t g' hg'
      rcases eq_or_ne t token with rfl | hne
      · exact ⟨.of_tombstoned (hself g' hg').1, fun hn => absurd rfl hn⟩
      · obtain ⟨hf, hcare⟩ := h t g' (by simpa [modify, upon, SlotStore.modify, hne] using hg')
        exact ⟨hf.mono rfl rfl (fun _ hhd _ => hhd) (fun _ ht => Or.inl ht),
          fun _ => (hcare hne).mono id rfl id rfl fun _ ht => ht⟩
    · intro g' hg' hcp
      obtain ⟨-, hcp', htd⟩ := hself g' hg'
      have hcare := hc g hg (hcp' ▸ hcp)
      refine hcare.mono (fun hno => ?_) hcp' (fun ht => htd.trans ht) rfl fun _ ht => ht
      have := (h token g hg).1.cleanup (hcp' ▸ hcp)
      rw [hno] at this
      cases this

theorem tended_endCleanup (hwf : c.toSlotStore.Wellformed) (h : TendedBut handed speaking c token)
    (htomb : ∀ g, c.generations token = some g → g.tombstoned = true) (ok : Bool) :
    Tended handed speaking (c.endCleanup cfg me token ok).1 := by
  rw [endCleanup]
  split_ifs
  · rw [hwf.live_eq]
    rcases hg : c.generations token with _ | g
    · exact h.tended (by simp [hg])
    · dsimp only
      split_ifs
      · exact tended_requestTeardown hwf h
      · intro t g' hg'
        obtain ⟨hf, hcare⟩ := h t g' hg'
        rcases eq_or_ne t token with rfl | hne
        · exact ⟨.of_tombstoned (htomb g' hg'),
            Or.inr (Or.inl ⟨⟨.flushAck, _, false⟩, Function.update_self .., rfl, fun _ => rfl⟩)⟩
        · have htimer : (c.arm token (c.clock + cfg.speechTransportGraceSeconds)
              .flushAck).timerHandles t = c.timerHandles t := by simp [arm, hne]
          exact ⟨hf.mono rfl rfl (fun hd hhd _ => htimer ▸ hhd) (fun _ ht => Or.inl ht),
            (hcare hne).mono id rfl id htimer fun _ ht => ht⟩
  · exact tended_requestTeardown hwf h

theorem tended_finalizeUncontextedInterruption (hwf : c.toSlotStore.Wellformed)
    (h : TendedBut handed speaking c token)
    (htomb : ∀ g, c.generations token = some g → g.tombstoned = true) (d : DeliveryDisposition) :
    Tended handed speaking (c.finalizeUncontextedInterruption me token d).1 := by
  rw [finalizeUncontextedInterruption, hwf.live_eq]
  rcases hg : c.generations token with _ | g
  · exact h.tended (by simp [hg])
  · intro t g' hg'
    obtain ⟨hf, hcare⟩ := h t g' hg'
    rcases eq_or_ne t token with rfl | hne
    · exact ⟨.of_tombstoned (htomb g' hg'), care_suspend (by simp [TransitionPoint.attends])⟩
    · refine ⟨hf.mono rfl rfl (fun _ hhd _ => hhd) fun t' ht' => ?_,
        (hcare hne).mono id rfl id rfl fun _ ht => List.mem_append_left _ ht⟩
      refine (List.mem_append.mp ht').imp_right fun hnew => ?_
      rw [List.mem_singleton.mp hnew]
      simpa [TransitionPoint.fences] using hne.symm

theorem tended_terminalize (hwf : c.toSlotStore.Wellformed) (h : TendedBut handed speaking c token)
    (d : DeliveryDisposition) (teardown : Bool) :
    Tended handed speaking (c.terminalize cfg me token d teardown).1 := by
  rcases hl : c.live token with _ | g
  · rw [terminalize_of_none hl]
    have hnone : c.generations token = none := (hwf.live_eq token).symm.trans hl
    have hc := h.tended (by simp [hnone])
    split_ifs
    · exact hc.congr rfl rfl rfl
    · exact hc
  · rw [terminalize_of_some hl]
    intro t g' hg'
    have := (hwf.reap_empty cfg hl).1 t
    exact absurd (this.symm.trans hg') (by simp)

/-- A coroutine of `token` was taken up. -/
theorem Tended.take (h : Tended handed speaking c) {t : Transition}
    (hno : ∀ t' b, t' ≠ token → t.point.attends t' b = false) :
    TendedBut handed speaking (c.take t) token := by
  intro t' g hg
  obtain ⟨hf, hc⟩ := h t' g hg
  exact ⟨hf.take t, fun hne => hc.take (hno t' _ hne)⟩

theorem tended_firstStep (hwf : c.toSlotStore.Wellformed) (h : Tended handed speaking c)
    {t : Transition} (ht : t ∈ c.transitions) (hb : t.point.begun = false) :
    Tended handed speaking ((c.take t).firstStep cfg me t.point).1 := by
  have hwf' : (c.take t).toSlotStore.Wellformed := hwf
  have htomb : ∀ token, t.point.fences token = true → ∀ g, (c.take t).generations token = some g →
      g.tombstoned = true := fun token hf g hg => (h token g hg).1.coroutine t ht hf
  rcases hp : t.point with ⟨d, token⟩ | ⟨token, d⟩ | ⟨token, d⟩ | ⟨token, i, d⟩ | _ | _ | _ | _ | _
  case onTimeout =>
    have hno : ∀ t' b, t' ≠ token → t.point.attends t' b = false := by
      intro t' b hne
      rw [hp]
      rcases d with _ | _ | _ | _ <;> simp [TransitionPoint.attends, hne.symm]
    have hbut := h.take hno
    have hlater : d ≠ .flushAck → ∀ g, (c.take t).generations token = some g →
        g.cleanupPending = true → Care handed speaking (c.take t) token g := by
      intro hd g hg hcp
      refine (h token g hg).2.take ?_
      rw [hp, hcp]
      rcases d with _ | _ | _ | _ <;> simp_all [TransitionPoint.attends]
    rcases d with _ | _ | _ | _
    · exact tended_beginDeliveryUnknown hwf' hbut (hlater (by simp))
    · exact tended_beginDeliveryUnknown hwf' hbut (hlater (by simp))
    · have htomb' := htomb token (by simp [hp, TransitionPoint.fences])
      simp only [firstStep, take_toSlotStore, hwf.live_eq]
      rcases hg : c.generations token with _ | g
      · exact hbut.tended (by simp [hg])
      · exact tended_beginCleanup hbut htomb' (hlater (by simp))
    · exact tended_requestTeardown hwf' hbut
  case finalizeUncontextedInterruption =>
    have hbut : TendedBut handed speaking (c.take t) token :=
      h.take fun t' b hne => by simp [hp, TransitionPoint.attends, hne.symm]
    exact tended_finalizeUncontextedInterruption hwf' hbut
      (htomb token (by simp [hp, TransitionPoint.fences])) d
  case terminalize =>
    have hbut : TendedBut handed speaking (c.take t) token :=
      h.take fun t' b hne => by simp [hp, TransitionPoint.attends, hne.symm]
    exact tended_terminalize hwf' hbut d false
  case callOnTerminal =>
    intro t' g hg
    obtain ⟨hf, hc⟩ := h t' g hg
    refine ⟨(hf.take t).mono rfl rfl (fun _ hhd _ => hhd) fun t'' ht'' => ?_,
      (hc.take (t := t) (by simp [hp, TransitionPoint.attends])).mono id rfl id rfl
        fun _ hm => List.mem_append_left _ hm⟩
    refine (List.mem_append.mp ht'').imp_right fun hnew => ?_
    rw [List.mem_singleton.mp hnew]
    rfl
  case noop =>
    intro t' g hg
    obtain ⟨hf, hc⟩ := h t' g hg
    exact ⟨hf.take t, hc.take (by simp [hp, TransitionPoint.attends])⟩
  all_goals simp [hp, TransitionPoint.begun] at hb

theorem tended_afterCallback (hwf : c.toSlotStore.Wellformed) (h : Tended handed speaking c)
    {t : Transition} (ht : t ∈ c.transitions) (hb : t.point.begun = true) (ok : Bool) :
    Tended handed speaking ((c.take t).afterCallback cfg me ok t.point).1 := by
  have hwf' : (c.take t).toSlotStore.Wellformed := hwf
  have htomb : ∀ token, t.point.fences token = true → ∀ g, (c.take t).generations token = some g →
      g.tombstoned = true := fun token hf g hg => (h token g hg).1.coroutine t ht hf
  have hidle : (∀ t' b, t.point.attends t' b = false) → Tended handed speaking (c.take t) :=
    fun hno t' g hg => ⟨(h t' g hg).1.take t, (h t' g hg).2.take (hno t' _)⟩
  rcases hp : t.point with _ | _ | _ | _ | _ | token | ⟨token, d⟩ | token | ⟨token, teardown⟩
  case dispatchingCleanup =>
    have hbut : TendedBut handed speaking (c.take t) token :=
      h.take fun t' b hne => by simp [hp, TransitionPoint.attends, hne.symm]
    exact tended_endCleanup hwf' hbut (htomb token (by simp [hp, TransitionPoint.fences])) ok
  case dispatchingFinalCleanup =>
    have hbut : TendedBut handed speaking (c.take t) token :=
      h.take fun t' b hne => by simp [hp, TransitionPoint.attends, hne.symm]
    simp only [afterCallback]
    split_ifs
    · exact tended_terminalize hwf' hbut d false
    · exact tended_requestTeardown hwf' hbut
  case dispatchingTeardown => exact hidle (by simp [hp, TransitionPoint.attends])
  case reportingTerminal =>
    have hall := hidle (by simp [hp, TransitionPoint.attends])
    simp only [afterCallback]
    split_ifs
    · exact hall.congr rfl rfl rfl
    · exact hall
  all_goals simp [hp, TransitionPoint.begun] at hb

end Tending

/-! ## Every step -/

/-- The timer handle of `token` changes, with a coroutine, or flags that do not matter. -/
theorem Tended.adjust (h : Tended handed speaking c) {handed' speaking' : Token → Bool}
    (token : Token) (f : SpeechGeneration → SpeechGeneration)
    (hgen : c'.generations = Function.update c.generations token ((c.generations token).map f))
    (htimer : ∀ t, t ≠ token → c'.timerHandles t = c.timerHandles t)
    (htr : ∀ t ∈ c.transitions, t ∈ c'.transitions)
    (hnew : ∀ t ∈ c'.transitions, t ∈ c.transitions ∨ ∀ t', t' ≠ token → t.point.fences t' = false)
    (hhanded : ∀ t, t ≠ token → handed' t = handed t)
    (hspeaking : ∀ t, t ≠ token → speaking' t = speaking t)
    (hself : ∀ g, c.generations token = some g → c.Fenced token g ∧ Care handed speaking c token g →
      c'.Fenced token (f g) ∧ Care handed' speaking' c' token (f g)) :
    Tended handed' speaking' c' := by
  have hbut : TendedBut handed' speaking' c token := by
    intro t g hg
    refine ⟨(h t g hg).1, fun hne => ?_⟩
    have hc := (h t g hg).2
    rwa [Care, ← hhanded t hne, ← hspeaking t hne] at hc
  exact hbut.update f hgen htimer htr hnew fun g hg => hself g hg (h token g hg)

/-- Scheduling a coroutine that does not touch stored generations. -/
theorem Tended.schedule (h : Tended handed speaking c) {point : TransitionPoint}
    (hf : ∀ t, point.fences t = false) : Tended handed speaking (c.schedule point) := by
  intro t g hg
  obtain ⟨hfen, hcare⟩ := h t g hg
  refine ⟨hfen.mono rfl rfl (fun _ hhd _ => hhd) fun t' ht' => ?_,
    hcare.mono id rfl id rfl fun _ ht' => List.mem_append_left _ ht'⟩
  refine (List.mem_append.mp ht').imp_right fun hnew => ?_
  rw [List.mem_singleton.mp hnew]
  exact hf t

theorem Tended.tendedBut (h : Tended handed speaking c) (token : Token) :
    TendedBut handed speaking c token := fun t g hg => ⟨(h t g hg).1, fun _ => (h t g hg).2⟩

theorem attends_onTimeout {d : Deadline} {cleanupPending : Bool}
    (h : cleanupPending = true → d = .flushAck) :
    (TransitionPoint.onTimeout d token).attends token cleanupPending = true := by
  rcases d with _ | _ | _ | _ <;> simp_all [TransitionPoint.attends]

theorem tended_recordInterruption (hwf : c.toSlotStore.Wellformed) (h : Tended handed speaking c)
    (pause : Bool) (he : c.Unhurried (.recordInterruption token pause)) :
    Tended handed speaking (c.recordInterruption cfg token pause) := by
  rw [recordInterruption, hwf.live_eq]
  rcases hg : c.generations token with _ | g
  · exact h
  · dsimp only
    split
    · refine h.adjust token _ rfl ?_ (fun t ht => List.mem_append_left _ ht) ?_ (fun _ _ => rfl)
        (fun _ _ => rfl) fun g' hg' _ => ⟨.of_tombstoned rfl, ?_⟩
      · intro t hne
        simp [SpeechLifecycleCoordinator.schedule, drawId, suspend, modify, upon, cancelTimer, hne]
      · intro t ht
        refine (List.mem_append.mp ht).imp_right fun hnew => ?_
        rw [List.mem_singleton.mp hnew]
        intro t' hne
        simpa [TransitionPoint.fences] using hne.symm
      · exact care_suspend (by simp [TransitionPoint.attends])
    · rename_i ctx hctx
      refine h.adjust token _ rfl ?_ (fun t ht => ht) (fun t ht => Or.inl ht) (fun _ _ => rfl)
        (fun _ _ => rfl) fun g' hg' ⟨hfen, hcare⟩ => ⟨.of_tombstoned rfl, ?_⟩
      · intro t hne
        simp [arm, modify, upon, cancelTimer, hne]
      · obtain rfl : g' = g := Option.some.inj (hg'.symm.trans hg)
        by_cases hcp : g'.cleanupPending = true
        · rcases hcare with htear | ⟨hd, hhd, hf, hk⟩ | ⟨hno, -⟩ | hcor
          · exact Or.inl htear
          · rcases he with hctx' | hk'
            · simp [hg, hctx] at hctx'
            · simp [hhd, hf, hk hcp] at hk'
          · rw [hfen.cleanup hcp] at hno
            cases hno
          · exact Or.inr (Or.inr (Or.inr hcor))
        · exact Or.inr (Or.inl ⟨⟨.interruption, _, false⟩, Function.update_self .., rfl,
            fun h => absurd h hcp⟩)

theorem tended_fireTimer (h : Tended handed speaking c) : Tended handed speaking (c.fireTimer token) := by
  rw [fireTimer]
  split
  · exact h
  · rename_i hd hhd
    split_ifs
    · exact h
    · refine h.adjust token id (by simp [SpeechLifecycleCoordinator.schedule, drawId, suspend]) ?_
        (fun t ht => List.mem_append_left _ ht) ?_ (fun _ _ => rfl) (fun _ _ => rfl)
        fun g hg ⟨hfen, hcare⟩ => ⟨?_, ?_⟩
      · intro t hne
        simp [SpeechLifecycleCoordinator.schedule, drawId, suspend, hne]
      · intro t ht
        refine (List.mem_append.mp ht).imp_right fun hnew => ?_
        rw [List.mem_singleton.mp hnew]
        intro t' hne
        by_contra hf
        exact hne (fences_onTimeout (by simpa using hf)).symm
      · refine ⟨hfen.cleanup, fun hd' hhd' hk => ?_, fun t ht hf => ?_⟩
        · simp only [SpeechLifecycleCoordinator.schedule, drawId, suspend, Function.update_self,
            Option.some.injEq] at hhd'
          subst hhd'
          exact hfen.timer hd hhd hk
        · rcases List.mem_append.mp ht with hold | hnew
          · exact hfen.coroutine t hold hf
          · rw [List.mem_singleton.mp hnew] at hf
            refine hfen.timer hd hhd ?_
            rcases hk : hd.deadline with _ | _ | _ | _ <;> simp_all [TransitionPoint.fences]
      · rcases hcare with htear | ⟨hd', hhd', hf, hk⟩ | hwait | ⟨t, hmem, hatt⟩
        · exact Or.inl htear
        · obtain rfl : hd = hd' := Option.some.inj (hhd.symm.trans hhd')
          exact care_suspend (attends_onTimeout hk)
        · exact Or.inr (Or.inr (Or.inl hwait))
        · exact Or.inr (Or.inr (Or.inr ⟨t, List.mem_append_left _ hmem, hatt⟩))

theorem tended_onTransportBotStopped (htended : Tended handed speaking c) :
    Tended handed speaking c.onTransportBotStopped := by
  rw [onTransportBotStopped]
  split
  · exact htended.schedule fun t => rfl
  · rename_i token _
    split
    · exact htended.schedule fun t => rfl
    · refine htended.adjust token _ rfl ?_ (fun t ht => List.mem_append_left _ ht) ?_
        (fun _ _ => rfl) (fun _ _ => rfl) fun g hg ⟨hfen, hcare⟩ => ⟨?_, ?_⟩
      · intro t hne
        simp [schedule, drawId, suspend, modify, upon, cancelTimer, hne]
      · intro t ht
        refine (List.mem_append.mp ht).imp_right fun hnew => ?_
        rw [List.mem_singleton.mp hnew]
        exact fun _ _ => rfl
      · refine hfen.mono rfl rfl (by simp [schedule, drawId, suspend, modify, upon, cancelTimer])
          fun t ht => ?_
        refine (List.mem_append.mp ht).imp_right fun hnew => ?_
        rw [List.mem_singleton.mp hnew]
        rfl
      · exact care_suspend (by simp [TransitionPoint.attends])

/-- What is admitted has not been handed to TTS, and nothing is under way for it. -/
theorem tended_tryAdmit (h : w.Attended) (identity : GenerationIdentity) :
    Tended w.handed w.speaking (w.lifecycle.tryAdmit identity).1 := by
  obtain ⟨hwf, hord, hissued, htended⟩ := h
  obtain ⟨c, handed, speaking⟩ := w
  dsimp only at hwf hord hissued htended ⊢
  rw [tryAdmit]
  split_ifs with hbusy
  · exact htended
  · have hfree : c.slotToken = none := by simp_all
    intro t g hg
    have hempty : ∀ t, c.generations t = none := by
      intro t
      rcases hg' : c.generations t with _ | g'
      · rfl
      · exact absurd ((hwf.occupant t g' hg').symm.trans hfree) (by simp)
    have hnew : t = c.nextToken ∧ g = { identity } := by
      rcases eq_or_ne t c.nextToken with rfl | hne
      · exact ⟨rfl, by simpa [upon, SlotStore.enter, eq_comm] using hg⟩
      · simp [upon, SlotStore.enter, hne, hempty] at hg
    obtain ⟨rfl, rfl⟩ := hnew
    refine ⟨⟨by simp, fun hd hhd _ => ?_, fun t ht hf => ?_⟩, Or.inr (Or.inr (Or.inl ⟨rfl, ?_⟩))⟩
    · exact absurd (hord.timers _ hd hhd) (Nat.lt_irrefl _)
    · exact absurd (hord.fencing t ht _ hf) (Nat.lt_irrefl _)
    · left
      by_contra hh
      exact absurd (hissued c.nextToken (by simpa using hh)) (Nat.lt_irrefl _)

/-- What is handed to TTS has its start deadline. -/
theorem tended_markHandedToTts (hwf : w.lifecycle.toSlotStore.Wellformed)
    (htended : Tended w.handed w.speaking w.lifecycle) (token : Token) :
    Tended (w.handedAfter (.markHandedToTts token)) w.speaking (w.lifecycle.markHandedToTts cfg token) := by
  obtain ⟨c, handed, speaking⟩ := w
  simp only [Watch.handedAfter] at hwf htended ⊢
  rw [markHandedToTts, hwf.live_eq]
  rcases hg : c.generations token with _ | g
  · simpa using htended
  · simp only [Option.isSome_some, if_true]
    split_ifs with htomb
    · refine htended.adjust token id (by simp) (fun _ _ => rfl) (fun _ ht => ht)
        (fun _ ht => Or.inl ht) (fun t hne => by simp [hne]) (fun _ _ => rfl)
        fun g' hg' ⟨hfen, hcare⟩ => ⟨hfen, ?_⟩
      obtain rfl : g' = g := Option.some.inj (hg'.symm.trans hg)
      rcases hcare with htear | htime | ⟨hno, -⟩ | hcor
      · exact Or.inl htear
      · exact Or.inr (Or.inl htime)
      · rw [htomb] at hno
        cases hno
      · exact Or.inr (Or.inr (Or.inr hcor))
    · refine htended.adjust token _ rfl (fun t hne => by simp [arm, modify, upon, hne])
        (fun _ ht => ht) (fun _ ht => Or.inl ht) (fun t hne => by simp [hne]) (fun _ _ => rfl)
        fun g' hg' ⟨hfen, _⟩ => ⟨?_, ?_⟩
      · refine hfen.mono rfl rfl (fun hd hhd hk => ?_) fun _ ht => Or.inl ht
        simp only [arm, Function.update_self, Option.some.injEq] at hhd
        subst hhd
        simp at hk
      · obtain rfl : g' = g := Option.some.inj (hg'.symm.trans hg)
        exact Or.inr (Or.inl ⟨⟨.start, _, false⟩, Function.update_self .., rfl,
          fun hcp => absurd (hfen.cleanup hcp) htomb⟩)

/-- What is heard to start speaks. -/
theorem tended_onTtsStarted (htended : Tended w.handed w.speaking w.lifecycle) (ctx : UtteranceId) :
    Tended w.handed (w.speakingAfter (.onTtsStarted ctx)) (w.lifecycle.onTtsStarted ctx).1 := by
  obtain ⟨c, handed, speaking⟩ := w
  simp only [Watch.speakingAfter] at htended ⊢
  rw [onTtsStarted]
  rcases hh : c.heard ctx with _ | ⟨token, g⟩
  · exact htended
  · obtain ⟨-, hl, htomb⟩ := heard_eq_some.mp hh
    refine htended.adjust token _ rfl (fun t hne => by simp [modify, upon, cancelTimer, hne])
      (fun _ ht => ht) (fun _ ht => Or.inl ht) (fun _ _ => rfl) (fun t hne => by simp [hne])
      fun g' hg' ⟨hfen, _⟩ => ⟨?_, ?_⟩
    · exact hfen.mono rfl rfl (by simp [modify, upon, cancelTimer]) fun _ ht => Or.inl ht
    · obtain rfl : g' = g := Option.some.inj (hg'.symm.trans (live_eq_some.mp hl).1)
      exact Or.inr (Or.inr (Or.inl ⟨htomb, Or.inr (by simp)⟩))

/-- What is heard to stop has its drain deadline. -/
theorem tended_onTtsStopped (htended : Tended w.handed w.speaking w.lifecycle) (ctx : UtteranceId) :
    Tended w.handed (w.speakingAfter (.onTtsStopped ctx)) (w.lifecycle.onTtsStopped cfg ctx).1 := by
  obtain ⟨c, handed, speaking⟩ := w
  simp only [Watch.speakingAfter] at htended ⊢
  rw [onTtsStopped]
  rcases hh : c.heard ctx with _ | ⟨token, g⟩
  · exact htended
  · obtain ⟨-, hl, htomb⟩ := heard_eq_some.mp hh
    refine htended.adjust token _ rfl (fun t hne => by simp [arm, modify, upon, hne])
      (fun _ ht => ht) (fun _ ht => Or.inl ht) (fun _ _ => rfl) (fun t hne => by simp [hne])
      fun g' hg' ⟨hfen, _⟩ => ⟨?_, ?_⟩
    · refine hfen.mono rfl rfl (fun hd hhd hk => ?_) fun _ ht => Or.inl ht
      simp only [arm, Function.update_self, Option.some.injEq] at hhd
      subst hhd
      simp at hk
    · obtain rfl : g' = g := Option.some.inj (hg'.symm.trans (live_eq_some.mp hl).1)
      refine Or.inr (Or.inl ⟨⟨.drain, _, false⟩, Function.update_self .., rfl, fun hcp => ?_⟩)
      have := hfen.cleanup hcp
      rw [htomb] at this
      cases this

theorem tended_step (h : w.Attended) {e : Event} (he : w.lifecycle.Unhurried e) :
    Tended (w.handedAfter e) (w.speakingAfter e) (step cfg w.lifecycle e).1 := by
  obtain ⟨hwf, hord, hissued, htended⟩ := h
  obtain ⟨c, handed, speaking⟩ := w
  dsimp only at hwf hord hissued htended he
  have hwf' : c.drawId.toSlotStore.Wellformed := hwf
  have hdraw : Tended handed speaking c.drawId := htended.congr rfl rfl rfl
  have hflags : ∀ token f, (∀ g : SpeechGeneration, (f g).tombstoned = g.tombstoned ∧
      (f g).cleanupPending = g.cleanupPending ∧ (f g).teardownPending = g.teardownPending) →
      Tended handed speaking (c.modify token f) := by
    intro token f hf
    refine htended.adjust token f rfl (fun _ _ => rfl) (fun _ ht => ht) (fun _ ht => Or.inl ht)
      (fun _ _ => rfl) (fun _ _ => rfl) fun g _ ⟨hfen, hcare⟩ => ?_
    obtain ⟨h₁, h₂, h₃⟩ := hf g
    exact ⟨hfen.mono h₁ h₂ (fun _ hhd _ => hhd) (fun _ ht => Or.inl ht),
      hcare.mono (fun ht => h₁.trans ht) h₂ (fun ht => h₃.trans ht) rfl fun _ ht => ht⟩
  rcases e with identity | token | ⟨token, ctx⟩ | ctx | ⟨ctx, n, r, k⟩ | ctx | _ | _ | ⟨token, pause⟩ |
    ⟨token, notify, d⟩ | token | token | token | _ | now | token | id | ⟨id, ok⟩ <;>
    simp only [step, Watch.handedAfter, Watch.speakingAfter]
  case onTtsAudio =>
    rw [onTtsAudio]
    split
    · exact htended
    · exact hflags _ _ fun g => ⟨rfl, rfl, rfl⟩
  case onTransportBotStarted =>
    rw [onTransportBotStarted]
    split
    · exact htended
    · exact hflags _ _ fun g => ⟨rfl, rfl, rfl⟩
  case tick => exact htended.congr rfl rfl rfl
  case connectionClosed => exact fun t g hg => absurd hg (by simp [closeConnection, SlotStore.close])
  case run =>
    split
    · exact htended
    · rename_i t ht
      split_ifs with hb
      · exact htended
      · exact tended_firstStep hwf htended (List.mem_of_find?_eq_some ht) (by simpa using hb)
  case callbackDone =>
    split
    · exact htended
    · rename_i t ht
      split_ifs with hb
      · exact tended_afterCallback hwf htended (List.mem_of_find?_eq_some ht) hb ok
      · exact htended
  case bindContext =>
    rcases bindContext_cases c token ctx with heq | heq
    · rwa [heq]
    · rw [heq]
      exact (hflags token (fun g => { g with contextId := some ctx }) fun g => ⟨rfl, rfl, rfl⟩).congr
        rfl rfl rfl
  case recordInterruption => exact tended_recordInterruption hwf htended pause he
  case timerFires => exact tended_fireTimer htended
  case releaseGeneration =>
    rcases hl : c.live token with _ | g
    · rwa [releaseGeneration_of_none hl]
    · rw [releaseGeneration_of_some hl]
      intro t g' hg'
      have hnone := (hwf.reap_empty cfg hl).1 t
      split_ifs at hg' <;> exact absurd (hnone.symm.trans hg') (by simp)
  case providerError =>
    exact tended_beginDeliveryUnknown hwf (hdraw.tendedBut token) fun g hg _ => (hdraw token g hg).2
  case acknowledgeTtsLaneFlush =>
    rw [acknowledgeTtsLaneFlush]
    split
    · exact htended
    · split_ifs
      · exact htended
      · exact tended_terminalize hwf' (hdraw.tendedBut token) _ false
  case teardownComplete =>
    rw [teardownComplete]
    split
    · exact htended
    · exact tended_terminalize hwf' (hdraw.tendedBut token) _ true
  case onTransportBotStopped => exact tended_onTransportBotStopped htended
  case tryAdmit => exact tended_tryAdmit (w := ⟨c, handed, speaking⟩) ⟨hwf, hord, hissued, htended⟩ identity
  case markHandedToTts => exact tended_markHandedToTts (w := ⟨c, handed, speaking⟩) hwf htended token
  case onTtsStarted => exact tended_onTtsStarted (w := ⟨c, handed, speaking⟩) htended ctx
  case onTtsStopped => exact tended_onTtsStopped (w := ⟨c, handed, speaking⟩) htended ctx

/-- **A step without a hurried interruption keeps the slot attended.** -/
theorem Watch.Attended.next (h : w.Attended) {e : Event} (he : w.lifecycle.Unhurried e) :
    (w.next cfg e).Attended where
  wellformed := (step_move cfg w.lifecycle e).wellformed h.wellformed
  orderly := h.orderly.step h.wellformed e
  issued := by
    intro t ht
    have hmono : w.lifecycle.nextToken ≤ (step cfg w.lifecycle e).1.nextToken := by
      rcases nextToken_step cfg w.lifecycle e with heq | heq <;> rw [heq]
      exact Nat.le_succ _
    refine Nat.lt_of_lt_of_le ?_ hmono
    by_cases hold : w.handed t = true
    · exact h.issued t hold
    · rcases e with _ | token | _ | _ | _ | _ | _ | _ | _ | _ | _ | _ | _ | _ | _ | _ | _ | _
      case markHandedToTts =>
        simp only [Watch.next, Watch.handedAfter] at ht
        split_ifs at ht with hsome
        · obtain ⟨g, hg⟩ := Option.isSome_iff_exists.mp hsome
          rcases eq_or_ne t token with rfl | hne
          · exact lt_nextToken h.wellformed hg
          · exact absurd (by simpa [hne] using ht) hold
        · exact absurd ht hold
      all_goals exact absurd ht hold
  tended := tended_step h he

/-- A run the theorem speaks about: a failed utterance whose flush barrier is never acknowledged, up to the end
of its teardown's dispatch. -/
def failedUnacknowledged : List Event :=
  [.tryAdmit ⟨7, "w", some 1, .result, none, none⟩, .markHandedToTts 0, .bindContext 0 7,
    .recordInterruption 0 false, .providerError 0, .callbackDone 0 true, .tick 1, .timerFires 0, .run 1,
    .callbackDone 1 true]

/-- An utterance fails, its cleanup is dispatched, and it is interrupted while the flush barrier is
awaited; the interruption deadline fires into a cleanup that is already pending. -/
def failedThenInterrupted : List Event :=
  [.tryAdmit ⟨7, "w", some 1, .result, none, none⟩, .markHandedToTts 0, .bindContext 0 7,
    .providerError 0, .callbackDone 0 true, .recordInterruption 0 false, .tick 1, .timerFires 0,
    .run 1]

end SpeechLifecycleCoordinator

end SubagentsLab

import SubagentsLab.Speech.Agreement

/-!
# Speech/Probe — who looks at the queues again

A freed slot is offered to the queues by a **probe**: the terminal callback, which a step of the
lifecycle either invokes at once or has scheduled, or a queue-advance task.  The lifecycle never
frees the slot silently (`answered_signal`): a step that does not invoke the callback leaves the slot
and every scheduled call of it as they are.
-/

namespace SubagentsLab

open Machinery

/-- The effect is the terminal callback. -/
def Effect.terminal : Effect → Bool
  | .onTerminal _ _ _ _ => true
  | _ => false

/-- The coroutine is scheduled to invoke the terminal callback. -/
def TransitionPoint.calls : TransitionPoint → Bool
  | .callOnTerminal _ _ _ => true
  | _ => false

namespace SpeechLifecycleCoordinator

open SlotStore

variable {cfg : LifecycleConfig} {c c' c'' : SpeechLifecycleCoordinator} {me : Coroutine} {token : Token}

/-! ## The lifecycle -/

/-- The slot is as it was, and so is every scheduled call of the terminal callback. -/
structure Steady (c c' : SpeechLifecycleCoordinator) : Prop where
  slotToken : c'.slotToken = c.slotToken
  calls : ∀ t ∈ c.transitions, t.point.calls = true → t ∈ c'.transitions

theorem Steady.refl (c : SpeechLifecycleCoordinator) : Steady c c := ⟨rfl, fun _ ht _ => ht⟩

theorem Steady.trans (h : Steady c c') (h' : Steady c' c'') : Steady c c'' :=
  ⟨h'.slotToken.trans h.slotToken, fun t ht hcalls => h'.calls t (h.calls t ht hcalls) hcalls⟩

theorem Steady.modify (h : Steady c c') (token : Token) (f : SpeechGeneration → SpeechGeneration) :
    Steady c (c'.modify token f) := ⟨h.slotToken, h.calls⟩

theorem Steady.cancelTimer (h : Steady c c') (token : Token) : Steady c (c'.cancelTimer token) :=
  ⟨h.slotToken, h.calls⟩

theorem Steady.arm (h : Steady c c') (token : Token) (due : ℚ) (d : Deadline) :
    Steady c (c'.arm token due d) := ⟨h.slotToken, h.calls⟩

theorem steady_drawId (c : SpeechLifecycleCoordinator) : Steady c c.drawId := ⟨rfl, fun _ ht _ => ht⟩

theorem Steady.suspend (h : Steady c c') (me : Coroutine) (point : TransitionPoint) :
    Steady c (c'.suspend me point) :=
  ⟨h.slotToken, fun t ht hcalls => List.mem_append_left _ (h.calls t ht hcalls)⟩

theorem Steady.schedule (h : Steady c c') (point : TransitionPoint) : Steady c (c'.schedule point) :=
  (h.trans (steady_drawId c')).suspend ⟨c'.nextTransition, true⟩ point

theorem steady_take {t : Transition} (ht : t.point.calls = false) : Steady c (c.take t) := by
  refine ⟨rfl, fun t' ht' hcalls => (List.mem_erase_of_ne ?_).mpr ht'⟩
  rintro rfl
  rw [ht] at hcalls
  cases hcalls

/-- Nothing comes of a step for the slot, and the terminal callback is not invoked. -/
structure Quiet (c : SpeechLifecycleCoordinator) (r : SpeechLifecycleCoordinator × List Effect) :
    Prop where
  steady : Steady c r.1
  silent : ∀ effect ∈ r.2, effect.terminal = false

theorem Quiet.rest (h : Steady c c') : Quiet c (c', []) := ⟨h, fun _ he => nomatch he⟩

theorem quiet_requestTeardown (c : SpeechLifecycleCoordinator) (me : Coroutine) (token : Token) :
    Quiet c (c.requestTeardown me token) := by
  rw [requestTeardown]
  split
  · exact .rest (.refl c)
  · split_ifs
    · exact .rest (.refl c)
    · exact ⟨(((Steady.refl c).modify token _).cancelTimer token).suspend me _, by simp [Effect.terminal]⟩

theorem quiet_beginCleanup (c : SpeechLifecycleCoordinator) (me : Coroutine) (token : Token) :
    Quiet c (c.beginCleanup me token) := by
  rw [beginCleanup]
  split
  · exact .rest (.refl c)
  · split_ifs
    · exact .rest (.refl c)
    · exact ⟨((Steady.refl c).modify token _).suspend me _, by simp [Effect.terminal]⟩

theorem quiet_beginDeliveryUnknown (c : SpeechLifecycleCoordinator) (me : Coroutine) (token : Token) :
    Quiet c (c.beginDeliveryUnknown me token) := by
  rw [beginDeliveryUnknown]
  split
  · exact .rest (.refl c)
  · have h := quiet_beginCleanup (c.modify token fun g => { g with
      disposition := some (g.disposition.getD .deliveryUnknown), tombstoned := true }) me token
    exact ⟨((Steady.refl c).modify token _).trans h.steady, h.silent⟩

theorem quiet_endCleanup (c : SpeechLifecycleCoordinator) (me : Coroutine) (token : Token) (ok : Bool) :
    Quiet c (c.endCleanup cfg me token ok) := by
  rw [endCleanup]
  split_ifs
  · split
    · exact .rest (.refl c)
    · split_ifs
      · exact quiet_requestTeardown c me token
      · exact .rest ((Steady.refl c).arm token _ _)
  · exact quiet_requestTeardown c me token

theorem quiet_providerError (c : SpeechLifecycleCoordinator) (token : Token) :
    Quiet c (c.providerError token) := by
  have h := quiet_beginDeliveryUnknown c.drawId ⟨c.nextTransition, false⟩ token
  exact ⟨(steady_drawId c).trans h.steady, h.silent⟩

/-- **What comes of a step**: the terminal callback, or nothing for the slot. -/
inductive Answered (c : SpeechLifecycleCoordinator) :
    SpeechLifecycleCoordinator × List Effect → Prop
  | report (c' : SpeechLifecycleCoordinator) (id : ℕ) (token : Token) (identity : GenerationIdentity)
      (d : DeliveryDisposition) : Answered c (c', [.onTerminal id token identity d])
  | quiet (r : SpeechLifecycleCoordinator × List Effect) (h : Quiet c r) : Answered c r

theorem Answered.rest (h : Steady c c') : Answered c (c', []) := .quiet _ (.rest h)

/-- What precedes a step does not matter, if it is steady. -/
theorem Answered.after {r : SpeechLifecycleCoordinator × List Effect} (hr : Answered c' r)
    (h : Steady c c') : Answered c r := by
  rcases hr with ⟨c'', id, token, identity, d⟩ | ⟨r, hr⟩
  · exact .report c'' id token identity d
  · exact .quiet r ⟨h.trans hr.steady, hr.silent⟩

theorem answered_terminalize (c : SpeechLifecycleCoordinator) (me : Coroutine) (token : Token)
    (d : DeliveryDisposition) (teardown : Bool) :
    Answered c (c.terminalize cfg me token d teardown) := by
  rcases hl : c.live token with _ | g
  · rw [terminalize_of_none hl]
    refine .rest ?_
    split_ifs <;> exact ⟨rfl, fun _ ht _ => ht⟩
  · rw [terminalize_of_some hl]
    exact .report _ _ _ _ _

theorem answered_firstStep (c : SpeechLifecycleCoordinator) (me : Coroutine) (point : TransitionPoint) :
    Answered c (c.firstStep cfg me point) := by
  rcases point with ⟨d, token⟩ | ⟨token, d⟩ | ⟨token, d⟩ | ⟨token, i, d⟩ | _ | _ | _ | _ | _
  case onTimeout =>
    rcases d with _ | _ | _ | _
    · exact .quiet _ (quiet_beginDeliveryUnknown c me token)
    · exact .quiet _ (quiet_beginDeliveryUnknown c me token)
    · rw [firstStep]
      split
      · exact .rest (.refl c)
      · exact .quiet _ (quiet_beginCleanup c me token)
    · exact .quiet _ (quiet_requestTeardown c me token)
  case finalizeUncontextedInterruption =>
    rw [firstStep, finalizeUncontextedInterruption]
    split
    · exact .rest (.refl c)
    · exact .quiet _ ⟨Steady.suspend (.refl c) me _, by simp [Effect.terminal]⟩
  case terminalize => exact answered_terminalize c me token d false
  case callOnTerminal => exact .report _ _ _ _ _
  all_goals exact .rest (.refl c)

theorem answered_afterCallback (c : SpeechLifecycleCoordinator) (me : Coroutine) (ok : Bool)
    (point : TransitionPoint) : Answered c (c.afterCallback cfg me ok point) := by
  rcases point with _ | _ | _ | _ | _ | token | ⟨token, d⟩ | token | ⟨token, teardown⟩
  case dispatchingCleanup => exact .quiet _ (quiet_endCleanup c me token ok)
  case dispatchingFinalCleanup =>
    rw [afterCallback]
    split_ifs
    · exact answered_terminalize c me token d false
    · exact .quiet _ (quiet_requestTeardown c me token)
  case reportingTerminal =>
    rw [afterCallback]
    refine .rest ?_
    split_ifs <;> exact ⟨rfl, fun _ ht _ => ht⟩
  all_goals exact .rest (.refl c)

/-- **The lifecycle never frees the slot silently.** -/
theorem answered_signal (cfg : LifecycleConfig) (c : SpeechLifecycleCoordinator) {sig : Signal}
    (hsig : sig ≠ .connectionClosed) : Answered c (c.step cfg sig.event) := by
  have still : ∀ {c' : SpeechLifecycleCoordinator}, c'.slotToken = c.slotToken →
      c'.transitions = c.transitions → Answered c (c', []) := fun hslot htrans =>
    .rest ⟨hslot, fun _ ht _ => htrans ▸ ht⟩
  rcases sig with ⟨token, ctx⟩ | ctx | ⟨ctx, n, r, k⟩ | ctx | _ | _ | token | token | token | _ | now |
    token | id | ⟨id, ok⟩
  case bindContext =>
    simp only [Signal.event, step]
    rcases bindContext_cases c token ctx with h | h <;> rw [h] <;> exact still rfl rfl
  case onTtsStarted =>
    simp only [Signal.event, step, onTtsStarted]
    split <;> exact still rfl rfl
  case onTtsAudio =>
    simp only [Signal.event, step, onTtsAudio]
    split <;> exact still rfl rfl
  case onTtsStopped =>
    simp only [Signal.event, step, onTtsStopped]
    split <;> exact still rfl rfl
  case onTransportBotStarted =>
    simp only [Signal.event, step, onTransportBotStarted]
    split <;> exact still rfl rfl
  case onTransportBotStopped =>
    simp only [Signal.event, step, onTransportBotStopped]
    split
    · exact .rest (Steady.schedule (.refl c) _)
    · split
      · exact .rest (Steady.schedule (.refl c) _)
      · rename_i token _ _ _ _
        exact .rest ((((Steady.refl c).cancelTimer token).modify token _).schedule _)
  case providerError => exact .quiet _ (quiet_providerError c token)
  case acknowledgeTtsLaneFlush =>
    simp only [Signal.event, step, acknowledgeTtsLaneFlush]
    split
    · exact still rfl rfl
    · split_ifs
      · exact still rfl rfl
      · exact (answered_terminalize c.drawId _ token _ false).after (steady_drawId c)
  case teardownComplete =>
    simp only [Signal.event, step, teardownComplete]
    split
    · exact still rfl rfl
    · exact (answered_terminalize c.drawId _ token _ true).after (steady_drawId c)
  case connectionClosed => exact absurd rfl hsig
  case tick => exact still rfl rfl
  case timerFires =>
    simp only [Signal.event, step, fireTimer]
    split
    · exact still rfl rfl
    · split_ifs
      · exact still rfl rfl
      · have hfired : ∀ handles, Steady c { c with timerHandles := handles } := fun _ =>
          ⟨rfl, fun _ ht _ => ht⟩
        exact .rest ((hfired _).schedule _)
  case run =>
    simp only [Signal.event, step]
    split
    · exact still rfl rfl
    · rename_i t ht
      split_ifs
      · exact still rfl rfl
      · rcases hcalls : t.point.calls with _ | _
        · exact (answered_firstStep (c.take t) _ t.point).after (steady_take hcalls)
        · rcases hp : t.point with _ | _ | _ | ⟨token, i, d⟩ | _ | _ | _ | _ | _
          case callOnTerminal => exact .report _ _ _ _ _
          all_goals simp [hp, TransitionPoint.calls] at hcalls
  case dispatchDone =>
    simp only [Signal.event, step]
    split
    · exact still rfl rfl
    · rename_i t ht
      split_ifs with hbegun
      · refine (answered_afterCallback (c.take t) _ ok t.point).after (steady_take ?_)
        rcases hp : t.point with _ | _ | _ | _ | _ | _ | _ | _ | _ <;>
          simp_all [TransitionPoint.calls, TransitionPoint.begun]
      · exact still rfl rfl

theorem steady_recordInterruption (c : SpeechLifecycleCoordinator) (token : Token) (pause : Bool) :
    Steady c (c.recordInterruption cfg token pause) := by
  rw [recordInterruption]
  split
  · exact .refl c
  · dsimp only
    split
    · exact (((Steady.refl c).cancelTimer token).modify token _).schedule _
    · exact (((Steady.refl c).cancelTimer token).modify token _).arm token _ _

theorem steady_terminalReported (c : SpeechLifecycleCoordinator) (id : ℕ) (ok : Bool) :
    Steady c (c.terminalReported cfg id ok) := by
  rw [terminalReported]
  split
  · exact .refl c
  · rename_i t ht
    have hrep : t.point.reporting = true := by
      have := List.find?_some ht
      simp_all
    rcases hp : t.point with _ | _ | _ | _ | _ | _ | _ | _ | ⟨token, teardown⟩ <;> rw [hp] at hrep
    case reportingTerminal =>
      refine (steady_take (by rw [hp]; rfl)).trans ?_
      rw [afterCallback]
      split_ifs <;> exact ⟨rfl, fun _ ht _ => ht⟩
    all_goals cases hrep

end SpeechLifecycleCoordinator

end SubagentsLab

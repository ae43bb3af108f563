import SubagentsLab.Speech.Fence

/-!
# Speech/Processor — what reaches the output transport

`TransportSpeechLifecycleProcessor` stands between TTS and `transport.output()`.  It consumes the
private marker and flush frames, binds a context when its first TTS frame arrives, and forwards a
TTS frame only when the coordinator accepts it, so that **no stale audio is forwarded**
(`audio_fence`).
-/

namespace SubagentsLab

open Machinery

/-- `FrameDirection`. -/
inductive FrameDirection
  | downstream
  | upstream
  deriving DecidableEq, Repr

/-- The frames the processor tells apart; a missing or empty context id is `none`. -/
inductive Frame
  | speechGenerationMarker (token : Token)
  | speechGenerationFlushAck (token : Token)
  | ttsStarted (contextId : Option UtteranceId)
  | ttsAudioRaw (contextId : Option UtteranceId) (bytes : ℕ) (sampleRate numChannels : ℤ)
  | ttsStopped (contextId : Option UtteranceId)
  | botStartedSpeaking
  | botStoppedSpeaking
  | other (kind : ℕ)
  deriving DecidableEq, Repr

/-- A TTS started, audio or stopped frame. -/
def Frame.isTts : Frame → Bool
  | .ttsStarted _ | .ttsAudioRaw _ _ _ _ | .ttsStopped _ => true
  | _ => false

/-- The context a TTS frame is correlated with. -/
def Frame.contextId : Frame → Option UtteranceId
  | .ttsStarted ctx | .ttsAudioRaw ctx _ _ _ | .ttsStopped ctx => ctx
  | _ => none

/-- A frame that goes on, and where. -/
abbrev Pushed := Frame × FrameDirection

/-- `TransportSpeechLifecycleProcessor`, with its coordinator; `stopping` holds the directions of the
bot-stopped frames that wait for the coroutine of that id. -/
structure TransportSpeechLifecycleProcessor where
  coordinator : SpeechLifecycleCoordinator := {}
  pendingToken : Option Token := none
  stopping : List (ℕ × FrameDirection) := []

namespace TransportSpeechLifecycleProcessor

open SpeechLifecycleCoordinator

variable (cfg : LifecycleConfig) (p : TransportSpeechLifecycleProcessor)

/-- The same processor with its coordinator moved on. -/
def upon (c : SpeechLifecycleCoordinator) : TransportSpeechLifecycleProcessor :=
  { p with coordinator := c }

/-- Forward a frame if the coordinator accepted it. -/
def forwardIf (frame : Frame) (direction : FrameDirection) (r : SpeechLifecycleCoordinator × Bool) :
    TransportSpeechLifecycleProcessor × List Pushed :=
  (p.upon r.1, if r.2 then [(frame, direction)] else [])

/-- The pending marker binds the context of the first TTS frame. -/
def bindPending (contextId : UtteranceId) : TransportSpeechLifecycleProcessor :=
  match p.pendingToken with
  | none => p
  | some token =>
    match p.coordinator.bindContext token contextId with
    | (c, true) => { p with coordinator := c, pendingToken := none }
    | (c, false) => p.upon c

/-- `process_frame`. -/
def processFrame (direction : FrameDirection) (frame : Frame) :
    TransportSpeechLifecycleProcessor × List Pushed :=
  match frame, direction with
  | .speechGenerationMarker token, _ => ({ p with pendingToken := some token }, [])
  | .speechGenerationFlushAck token, _ =>
    (p.upon (p.coordinator.acknowledgeTtsLaneFlush cfg token).1, [])
  | .ttsStarted none, .downstream => (p, [])
  | .ttsStarted (some ctx), .downstream =>
    let p := p.bindPending ctx
    p.forwardIf frame direction (p.coordinator.onTtsStarted ctx)
  | .ttsAudioRaw none _ _ _, .downstream => (p, [])
  | .ttsAudioRaw (some ctx) bytes sampleRate numChannels, .downstream =>
    p.forwardIf frame direction (p.coordinator.onTtsAudio ctx bytes sampleRate numChannels)
  | .ttsStopped none, .downstream => (p, [])
  | .ttsStopped (some ctx), .downstream =>
    p.forwardIf frame direction (p.coordinator.onTtsStopped cfg ctx)
  | .botStartedSpeaking, _ => (p.upon p.coordinator.onTransportBotStarted, [(frame, direction)])
  | .botStoppedSpeaking, _ =>
    ({ p with
        coordinator := p.coordinator.onTransportBotStopped
        stopping := p.stopping ++ [(p.coordinator.nextTransition, direction)] }, [])
  | _, _ => (p, [(frame, direction)])

/-- What can happen to the processor: a frame arrives, or its coordinator moves on by itself or at
another caller's hand. -/
inductive Event
  | frame (direction : FrameDirection) (frame : Frame)
  | lifecycle (e : SpeechLifecycleCoordinator.Event)

end TransportSpeechLifecycleProcessor

/-- The event lets a coroutine return normally. -/
def SpeechLifecycleCoordinator.Event.returns : SpeechLifecycleCoordinator.Event → Bool
  | .run _ => true
  | .callbackDone _ ok => ok
  | _ => false

namespace TransportSpeechLifecycleProcessor

open SpeechLifecycleCoordinator (after)

variable (cfg : LifecycleConfig) (p : TransportSpeechLifecycleProcessor)

/-- The coordinator moves on: bot-stopped frames whose coroutine returned are pushed, and those whose
coroutine raised or was cancelled are dropped. -/
def lifecycleStep (e : SpeechLifecycleCoordinator.Event) :
    TransportSpeechLifecycleProcessor × List Pushed :=
  let c := (SpeechLifecycleCoordinator.step cfg p.coordinator e).1
  let ended := fun w : ℕ × FrameDirection => c.transitions.all (·.id ≠ w.1)
  ({ p with coordinator := c, stopping := p.stopping.filter fun w => !ended w },
    if e.returns then (p.stopping.filter ended).map fun w => (.botStoppedSpeaking, w.2) else [])

/-- One step of the processor, with the frames it pushes. -/
def step : Event → TransportSpeechLifecycleProcessor × List Pushed
  | .frame direction frame => p.processFrame cfg direction frame
  | .lifecycle e => p.lifecycleStep cfg e

/-- The processor after a run from a fresh one. -/
def processed (fs : List Event) : TransportSpeechLifecycleProcessor :=
  run (fun p f => (step cfg p f).1) {} fs

/-- The calls on the coordinator that one event makes. -/
def calls : Event → List SpeechLifecycleCoordinator.Event
  | .lifecycle e => [e]
  | .frame _ (.speechGenerationFlushAck token) => [.acknowledgeTtsLaneFlush token]
  | .frame .downstream (.ttsStarted (some ctx)) =>
    (p.pendingToken.map fun token => .bindContext token ctx).toList ++ [.onTtsStarted ctx]
  | .frame .downstream (.ttsAudioRaw (some ctx) bytes sampleRate numChannels) =>
    [.onTtsAudio ctx bytes sampleRate numChannels]
  | .frame .downstream (.ttsStopped (some ctx)) => [.onTtsStopped ctx]
  | .frame _ .botStartedSpeaking => [.onTransportBotStarted]
  | .frame _ .botStoppedSpeaking => [.onTransportBotStopped]
  | _ => []

variable {cfg} {p}

theorem bindPending_coordinator (cfg : LifecycleConfig) (ctx : UtteranceId) :
    (p.bindPending ctx).coordinator = run (fun c e => (SpeechLifecycleCoordinator.step cfg c e).1)
      p.coordinator (p.pendingToken.map fun token => .bindContext token ctx).toList := by
  rcases hp : p.pendingToken with _ | token
  · simp [bindPending, hp]
  · rcases hb : p.coordinator.bindContext token ctx with ⟨c, _ | _⟩ <;>
      simp [bindPending, hp, hb, upon, SpeechLifecycleCoordinator.step]

/-- **The processor drives its coordinator by these calls and no others.** -/
theorem step_coordinator (f : Event) :
    (step cfg p f).1.coordinator = run (fun c e => (SpeechLifecycleCoordinator.step cfg c e).1)
      p.coordinator (p.calls f) := by
  rcases f with ⟨direction, frame⟩ | e
  · rcases frame with _ | _ | ctx | ⟨ctx, n, r, k⟩ | ctx | _ | _ | _
    case ttsStarted =>
      rcases direction with _ | _ <;> rcases ctx with _ | ctx
      case downstream.some =>
        simp only [step, processFrame, forwardIf, upon, calls, run_append, run_cons, run_nil]
        rw [← bindPending_coordinator]
        rfl
      all_goals rfl
    case ttsAudioRaw => rcases direction with _ | _ <;> rcases ctx with _ | ctx <;> rfl
    case ttsStopped => rcases direction with _ | _ <;> rcases ctx with _ | ctx <;> rfl
    all_goals rcases direction with _ | _ <;> rfl
  · rfl

/-- **The processor's coordinator is one driven from a fresh state.** -/
theorem processed_coordinator (cfg : LifecycleConfig) (fs : List Event) :
    ∃ es, (processed cfg fs).coordinator = after cfg es := by
  refine run_invariant_of_step (σ := TransportSpeechLifecycleProcessor)
    (I := fun p => ∃ es, p.coordinator = after cfg es) ?_ ⟨[], rfl⟩ fs
  rintro p f ⟨es, hes⟩
  refine ⟨es ++ p.calls f, ?_⟩
  rw [step_coordinator, hes, SpeechLifecycleCoordinator.after_append]

/-! ## What is forwarded -/

/-- The context is bound to the generation in the slot, which is not tombstoned. -/
def Audible (c : SpeechLifecycleCoordinator) (ctx : UtteranceId) : Prop :=
  ∃ token g, c.slotToken = some token ∧ c.generations token = some g ∧ g.contextId = some ctx ∧
    g.tombstoned = false

section Audible

variable {c : SpeechLifecycleCoordinator} {ctx : UtteranceId} {token : Token} {g : SpeechGeneration}

theorem audible_of_heard (hwf : c.toSlotStore.Wellformed) (h : c.heard ctx = some (token, g))
    {f : SpeechGeneration → SpeechGeneration}
    (hf : ∀ g, (f g).contextId = g.contextId ∧ (f g).tombstoned = g.tombstoned) :
    Audible (c.modify token f) ctx := by
  obtain ⟨hctx, hlive, htomb⟩ := SpeechLifecycleCoordinator.heard_eq_some.mp h
  obtain ⟨hg, -⟩ := SlotStore.live_eq_some.mp hlive
  obtain ⟨b, hb, hbound⟩ := hwf.bound ctx token hctx
  obtain rfl : b = g := Option.some.inj (hb.symm.trans hg)
  refine ⟨token, f b, hwf.occupant token b hb, ?_, (hf b).1.trans hbound, (hf b).2.trans htomb⟩
  simp [SpeechLifecycleCoordinator.modify, SlotStore.modify, hb]

theorem audible_onTtsStarted (hwf : c.toSlotStore.Wellformed) (h : (c.onTtsStarted ctx).2 = true) :
    Audible (c.onTtsStarted ctx).1 ctx := by
  rcases hh : c.heard ctx with _ | ⟨token, g⟩
  · simp [SpeechLifecycleCoordinator.onTtsStarted, hh] at h
  · simp only [SpeechLifecycleCoordinator.onTtsStarted, hh]
    exact audible_of_heard (c := c.cancelTimer token) hwf hh fun _ => ⟨rfl, rfl⟩

theorem audible_onTtsAudio (hwf : c.toSlotStore.Wellformed) {n : ℕ} {r k : ℤ}
    (h : (c.onTtsAudio ctx n r k).2 = true) : Audible (c.onTtsAudio ctx n r k).1 ctx := by
  rcases hh : c.heard ctx with _ | ⟨token, g⟩
  · simp [SpeechLifecycleCoordinator.onTtsAudio, hh] at h
  · simp only [SpeechLifecycleCoordinator.onTtsAudio, hh]
    exact audible_of_heard hwf hh fun _ => ⟨rfl, rfl⟩

theorem audible_onTtsStopped (hwf : c.toSlotStore.Wellformed) (h : (c.onTtsStopped cfg ctx).2 = true) :
    Audible (c.onTtsStopped cfg ctx).1 ctx := by
  rcases hh : c.heard ctx with _ | ⟨token, g⟩
  · simp [SpeechLifecycleCoordinator.onTtsStopped, hh] at h
  · simp only [SpeechLifecycleCoordinator.onTtsStopped, hh]
    exact audible_of_heard hwf hh fun _ => ⟨rfl, rfl⟩

end Audible

theorem wellformed_bindPending (hwf : p.coordinator.toSlotStore.Wellformed) (ctx : UtteranceId) :
    (p.bindPending ctx).coordinator.toSlotStore.Wellformed := by
  rw [bindPending_coordinator {}]
  exact SpeechLifecycleCoordinator.wellformed_run hwf _

theorem mem_forwardIf {frame : Frame} {direction : FrameDirection}
    {r : SpeechLifecycleCoordinator × Bool} {out : Pushed}
    (h : out ∈ (p.forwardIf frame direction r).2) : out = (frame, direction) ∧ r.2 = true := by
  simp only [forwardIf] at h
  split_ifs at h with hr
  · exact ⟨List.mem_singleton.mp h, hr⟩
  · cases h

/-- **A TTS frame that goes downstream belongs to the generation in the slot.** -/
theorem audible_of_pushed (hwf : p.coordinator.toSlotStore.Wellformed) {f : Event} {frame : Frame}
    (hpush : (frame, FrameDirection.downstream) ∈ (step cfg p f).2) (htts : frame.isTts = true) :
    ∃ ctx, frame.contextId = some ctx ∧ Audible (step cfg p f).1.coordinator ctx := by
  rcases f with ⟨direction, frame'⟩ | e
  · rcases direction with _ | _
    · rcases frame' with _ | _ | (_ | ctx) | ⟨_ | ctx, n, r, k⟩ | (_ | ctx) | _ | _ | _
      case ttsStarted.some =>
        obtain ⟨heq, hacc⟩ := mem_forwardIf hpush
        cases heq
        exact ⟨ctx, rfl, audible_onTtsStarted (wellformed_bindPending hwf ctx) hacc⟩
      case ttsAudioRaw.some =>
        obtain ⟨heq, hacc⟩ := mem_forwardIf hpush
        cases heq
        exact ⟨ctx, rfl, audible_onTtsAudio hwf hacc⟩
      case ttsStopped.some =>
        obtain ⟨heq, hacc⟩ := mem_forwardIf hpush
        cases heq
        exact ⟨ctx, rfl, audible_onTtsStopped hwf hacc⟩
      all_goals
        simp only [step, processFrame, List.not_mem_nil, List.mem_singleton, Prod.mk.injEq] at hpush
      all_goals
        rw [hpush.1] at htts
        cases htts
    · rcases frame' with _ | _ | _ | _ | _ | _ | _ | _ <;> simp [step, processFrame] at hpush
  · simp only [step, lifecycleStep] at hpush
    split_ifs at hpush
    · obtain ⟨w, -, heq⟩ := List.mem_map.mp hpush
      rw [← (Prod.mk.inj heq).1] at htts
      cases htts
    · cases hpush

/-! ## What a marker binds -/

/-- **A context is bound to a generation only by the call that names both**, and only if it is the
generation's own utterance id. -/
theorem bound_by_step {c : SpeechLifecycleCoordinator} {e : SpeechLifecycleCoordinator.Event}
    {ctx : UtteranceId} {token : Token}
    (hafter : (SpeechLifecycleCoordinator.step cfg c e).1.contextTokens ctx = some token)
    (hbefore : c.contextTokens ctx ≠ some token) :
    e = .bindContext token ctx ∧
      ∃ g, c.generations token = some g ∧ g.identity.utteranceId = ctx := by
  have hm := SpeechLifecycleCoordinator.step_move cfg c e
  generalize (SpeechLifecycleCoordinator.step cfg c e).1.toSlotStore = s' at hm hafter
  rcases hm with _ | _ | _ | ⟨t, g, hg, rfl, -, -, -, -⟩ | ⟨t, g, -, -⟩ | _
  · exact absurd hafter hbefore
  · exact absurd hafter hbefore
  · exact absurd hafter hbefore
  · rcases eq_or_ne ctx g.identity.utteranceId with rfl | hne
    · obtain rfl : t = token := by simpa [SlotStore.bind] using hafter
      exact ⟨rfl, g, (SlotStore.live_eq_some.mp hg).1, rfl⟩
    · exact absurd (by simpa [SlotStore.bind, hne] using hafter) hbefore
  · refine absurd ?_ hbefore
    rcases hctx : g.contextId with _ | bound
    · simpa [SlotStore.reap, hctx] using hafter
    · simp only [SlotStore.reap, hctx] at hafter
      split_ifs at hafter
      · rcases eq_or_ne ctx bound with rfl | hne
        · simp at hafter
        · simpa [hne] using hafter
      · exact hafter
  · cases hafter

/-- **A marker binds the context of its own generation only.** -/
theorem bound_by_marker {direction : FrameDirection} {frame : Frame} {ctx : UtteranceId}
    {token : Token}
    (hafter : (step cfg p (.frame direction frame)).1.coordinator.contextTokens ctx = some token)
    (hbefore : p.coordinator.contextTokens ctx ≠ some token) :
    p.pendingToken = some token ∧
      ∃ g, p.coordinator.generations token = some g ∧ g.identity.utteranceId = ctx := by
  rw [step_coordinator] at hafter
  have hone : ∀ {e}, run (fun c e => (SpeechLifecycleCoordinator.step cfg c e).1) p.coordinator [e]
      = (SpeechLifecycleCoordinator.step cfg p.coordinator e).1 := rfl
  rcases direction with _ | _ <;>
    rcases frame with _ | _ | (_ | ctx') | ⟨_ | ctx', n, r, k⟩ | (_ | ctx') | _ | _ | _
  case downstream.ttsStarted.some =>
    simp only [calls, run_append, run_cons, run_nil] at hafter
    rcases hp : p.pendingToken with _ | token'
    · rw [hp] at hafter
      obtain ⟨he, -⟩ := bound_by_step hafter hbefore
      cases he
    · rw [hp] at hafter
      rcases eq_or_ne ((SpeechLifecycleCoordinator.step cfg p.coordinator
        (.bindContext token' ctx')).1.contextTokens ctx) (some token) with hmid | hmid
      · obtain ⟨he, hg⟩ := bound_by_step hmid hbefore
        cases he
        exact ⟨rfl, hg⟩
      · obtain ⟨he, -⟩ := bound_by_step hafter hmid
        cases he
  all_goals
    first
    | exact absurd hafter hbefore
    | (obtain ⟨he, -⟩ := bound_by_step (hone ▸ hafter) hbefore
       cases he)

/-! ## The fence -/

open SpeechLifecycleCoordinator (FreesAudible Unreused retirements)

/-- **The audio fence.**  A generation whose audio was accepted loses the slot only to a bot stop, a
teardown, a release or the closing of the connection.  A tombstoned generation is never bound again,
no TTS frame of its context is accepted while its utterance id is not reused, its audio record stays
as it is, and its bound context is dropped as stale until the connection closes, within the tombstone
limit.  A TTS frame goes to the output only for the generation in the slot, untombstoned, and a
marker binds no context but its own generation's. -/
theorem audio_fence (cfg : LifecycleConfig) :
    (∀ (es es' : List SpeechLifecycleCoordinator.Event) (ctx : UtteranceId) (bytes : ℕ)
        (rate channels : ℤ) (token : Token) (e : SpeechLifecycleCoordinator.Event),
      (after cfg es).contextTokens ctx = some token →
      ((after cfg es).onTtsAudio ctx bytes rate channels).2 = true →
      (after cfg (es ++ .onTtsAudio ctx bytes rate channels :: es')).slotToken = some token →
      (after cfg (es ++ .onTtsAudio ctx bytes rate channels :: es' ++ [e])).slotToken ≠ some token →
      FreesAudible cfg (es ++ .onTtsAudio ctx bytes rate channels :: es') token e) ∧
    (∀ (es es' : List SpeechLifecycleCoordinator.Event) (token : Token) (g : SpeechGeneration),
      (after cfg es).generations token = some g → g.tombstoned = true →
      (∀ ctx, ((after cfg (es ++ es')).bindContext token ctx).2 = false) ∧
      (Unreused g.identity.utteranceId es' →
        ∀ ctx, g.contextId = some ctx ∨ ctx = g.identity.utteranceId →
          ((after cfg (es ++ es')).onTtsStarted ctx).2 = false ∧
          (∀ bytes rate channels,
            ((after cfg (es ++ es')).onTtsAudio ctx bytes rate channels).2 = false) ∧
          ((after cfg (es ++ es')).onTtsStopped cfg ctx).2 = false) ∧
      (∀ g', (after cfg (es ++ es')).generations token = some g' →
        g'.audioSubmitted = g.audioSubmitted ∧
          g'.audioDurationSeconds = g.audioDurationSeconds) ∧
      (∀ ctx, g.contextId = some ctx → .connectionClosed ∉ es' →
        retirements cfg (after cfg es) es' ≤ cfg.contextTombstoneLimit →
        (after cfg (es ++ es')).dropStaleFrame ctx = true)) ∧
    (∀ (fs : List Event) (f : Event) (frame : Frame),
      (frame, FrameDirection.downstream) ∈ (step cfg (processed cfg fs) f).2 → frame.isTts = true →
      ∃ ctx, frame.contextId = some ctx ∧ Audible (step cfg (processed cfg fs) f).1.coordinator ctx) ∧
    (∀ (fs : List Event) (direction : FrameDirection) (frame : Frame) (ctx : UtteranceId)
        (token : Token),
      (step cfg (processed cfg fs) (.frame direction frame)).1.coordinator.contextTokens ctx
        = some token →
      (processed cfg fs).coordinator.contextTokens ctx ≠ some token →
      (processed cfg fs).pendingToken = some token ∧
        ∃ g, (processed cfg fs).coordinator.generations token = some g ∧
          g.identity.utteranceId = ctx) := by
  refine ⟨SpeechLifecycleCoordinator.freed_after_audio cfg, ?_, ?_, ?_⟩
  · intro es es' token g hg htomb
    have hwf := (SpeechLifecycleCoordinator.sound_after cfg es).wellformed
    have hwf' := (SpeechLifecycleCoordinator.sound_after cfg (es ++ es')).wellformed
    have hsil := SpeechLifecycleCoordinator.silenced_run cfg hwf hg htomb es'
    rw [← SpeechLifecycleCoordinator.after_append] at hsil
    refine ⟨SpeechLifecycleCoordinator.bindContext_eq_false hsil, ?_, ?_, ?_⟩
    · intro hfresh ctx hctx
      obtain rfl : ctx = g.identity.utteranceId :=
        hctx.elim (fun h => hwf.own token g ctx hg h) id
      have hdeaf := SpeechLifecycleCoordinator.unheard_run cfg hwf hg htomb hfresh
      rw [← SpeechLifecycleCoordinator.after_append] at hdeaf
      simp [SpeechLifecycleCoordinator.onTtsStarted, SpeechLifecycleCoordinator.onTtsAudio,
        SpeechLifecycleCoordinator.onTtsStopped, hdeaf]
    · intro g' hg'
      exact ⟨(hsil.2 g' hg').audioSubmitted, (hsil.2 g' hg').audioDurationSeconds⟩
    · intro ctx hctx hopen hlimit
      have hstale := SpeechLifecycleCoordinator.stale_run (n := 0) hwf
        (Or.inl ⟨token, g, hg, htomb, hctx⟩) hopen (by simpa using hlimit)
      rw [← SpeechLifecycleCoordinator.after_append] at hstale
      exact hstale.dropStaleFrame hwf'
  · intro fs f frame hpush htts
    obtain ⟨es, hes⟩ := processed_coordinator cfg fs
    refine audible_of_pushed ?_ hpush htts
    rw [hes]
    exact (SpeechLifecycleCoordinator.sound_after cfg es).wellformed
  · intro fs direction frame ctx token hafter hbefore
    exact bound_by_marker hafter hbefore

/-- An utterance whose context is bound is interrupted. -/
def interruptedUtterance : List SpeechLifecycleCoordinator.Event :=
  [.tryAdmit { utteranceId := 7, workItemId := "work" }, .markHandedToTts 0, .bindContext 0 7,
    .onTtsStarted 7, .recordInterruption 0 false]

/-- **Closing the connection forgets its stale contexts**: `drop_stale_frame` is no longer true of
the bound context of a tombstoned generation. -/
theorem closing_forgets_stale_context :
    ¬ ∀ (es es' : List SpeechLifecycleCoordinator.Event) (token : Token) (g : SpeechGeneration)
        (ctx : UtteranceId),
      (after {} es).generations token = some g → g.tombstoned = true → g.contextId = some ctx →
      Unreused g.identity.utteranceId es' →
      retirements {} (after {} es) es' ≤ LifecycleConfig.contextTombstoneLimit {} →
      (after {} (es ++ es')).dropStaleFrame ctx = true := by
  intro h
  have hfalse := h interruptedUtterance [.connectionClosed] 0
    { identity := { utteranceId := 7, workItemId := "work" }, phase := .synthesizing
      disposition := some .interrupted, contextId := some 7, tombstoned := true } 7
    (by decide +kernel) rfl rfl (by simp [Unreused]) (by decide +kernel)
  revert hfalse
  decide +kernel

end TransportSpeechLifecycleProcessor

end SubagentsLab

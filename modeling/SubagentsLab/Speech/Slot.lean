import SubagentsLab.Speech.Coordinator

/-!
# Speech/Slot — one slot, one generation

A step of the coordinator changes its store in one of six ways (`StoreMove`), whatever the step is
called: nothing happens, a stored generation evolves, one is admitted to the free slot, a context is
bound, a generation is reaped, or the connection closes.  Every invariant of the store is an
induction over these six.  The first is that the store holds **exactly the slot's generation**, and
its contexts (`SlotStore.Wellformed`).
-/

namespace SubagentsLab

open Machinery

/-! ## How a stored generation changes -/

/-- The disposition a generation is reported with if nothing more is recorded for it. -/
def SpeechGeneration.outcome (g : SpeechGeneration) : DeliveryDisposition :=
  g.disposition.getD .deliveryUnknown

/-- What may happen to a generation while it is stored: flags are only ever raised, and nothing is
heard of its audio once it is tombstoned. -/
structure SpeechGeneration.Evolves (g g' : SpeechGeneration) : Prop where
  identity : g'.identity = g.identity
  contextId : g'.contextId = g.contextId
  terminalized : g'.terminalized = g.terminalized
  tombstoned : g.tombstoned = true → g'.tombstoned = true
  audioSubmitted : g.audioSubmitted = true → g'.audioSubmitted = true
  silent : g.tombstoned = true → g'.audioSubmitted = g.audioSubmitted ∧
    g'.audioDurationSeconds = g.audioDurationSeconds

namespace SpeechLifecycleCoordinator

/-- What makes a step reap the generation `g` of `token`. -/
def Frees (c : SpeechLifecycleCoordinator) (token : Token) (g : SpeechGeneration) : Event → Prop
  | .releaseGeneration t _ _ | .teardownComplete t => t = token
  | .acknowledgeTtsLaneFlush t => t = token ∧ g.audioSubmitted = false
  | .run id => ∃ t, c.transitions.find? (·.id = id) = some t ∧ ∃ d, t.point = .terminalize token d
  | .callbackDone id _ =>
    ∃ t, c.transitions.find? (·.id = id) = some t ∧ ∃ d, t.point = .dispatchingFinalCleanup token d
  | _ => False

end SpeechLifecycleCoordinator

namespace SlotStore

open SpeechLifecycleCoordinator (Event)

/-- **The moves of the store**, at an event `e`; `R` says which generations may be reaped. -/
inductive StoreMove (cfg : LifecycleConfig) (e : Event) (R : Token → SpeechGeneration → Prop)
    (s : SlotStore) : SlotStore → Prop
  | keep : StoreMove cfg e R s s
  | evolve (token : Token) (f : SpeechGeneration → SpeechGeneration)
      (h : ∀ g, s.generations token = some g → g.Evolves (f g))
      (hvoice : ∀ g, s.generations token = some g → (f g).audioSubmitted = true →
        g.audioSubmitted = true ∨ ∃ ctx, s.contextTokens ctx = some token := by
          exact fun _ _ h => Or.inl h)
      (houtcome : ∀ g, s.generations token = some g → (f g).outcome = g.outcome ∨
        ((f g).outcome ≠ .deliveryUnknown ∧ ∃ pause, e = .recordInterruption token pause) := by
          exact fun _ _ => Or.inl rfl) : StoreMove cfg e R s (s.modify token f)
  | enter (identity : GenerationIdentity) (he : e = .tryAdmit identity)
      (hfree : s.slotToken = none) : StoreMove cfg e R s (s.enter identity)
  | bind (token : Token) (g : SpeechGeneration) (hg : s.live token = some g)
      (he : e = .bindContext token g.identity.utteranceId)
      (hlive : g.tombstoned = false) (hunbound : g.contextId = none)
      (howner : ∀ t, s.contextTokens g.identity.utteranceId = some t → t = token)
      (hfresh : g.identity.utteranceId ∉ s.contextTombstones) :
      StoreMove cfg e R s (s.bind token g.identity.utteranceId)
  | reap (token : Token) (g : SpeechGeneration) (hg : s.live token = some g) (hR : R token g) :
      StoreMove cfg e R s (s.reap cfg token g)
  | close (he : e = .connectionClosed) : StoreMove cfg e R s s.close

theorem live_eq_some {s : SlotStore} {token : Token} {g : SpeechGeneration} :
    s.live token = some g ↔ s.generations token = some g ∧ g.terminalized = false := by
  simp [live, Option.filter_eq_some_iff]

theorem modify_modify (s : SlotStore) (token : Token) (f f' : SpeechGeneration → SpeechGeneration) :
    (s.modify token f).modify token f' = s.modify token (f' ∘ f) := by
  simp [modify]

end SlotStore

namespace SpeechLifecycleCoordinator

open SlotStore

variable {cfg : LifecycleConfig} {c : SpeechLifecycleCoordinator} {me : Coroutine} {token : Token}

section Simp

variable (c) (me)

@[simp] theorem over_toSlotStore (s : SlotStore) : (c.upon s).toSlotStore = s := rfl

@[simp] theorem modify_toSlotStore (token : Token) (f : SpeechGeneration → SpeechGeneration) :
    (c.modify token f).toSlotStore = c.toSlotStore.modify token f := rfl

@[simp] theorem cancelTimer_toSlotStore (token : Token) :
    (c.cancelTimer token).toSlotStore = c.toSlotStore := rfl

@[simp] theorem arm_toSlotStore (token : Token) (due : ℚ) (d : Deadline) :
    (c.arm token due d).toSlotStore = c.toSlotStore := rfl

@[simp] theorem suspend_toSlotStore (point : TransitionPoint) :
    (c.suspend me point).toSlotStore = c.toSlotStore := rfl

@[simp] theorem schedule_toSlotStore (point : TransitionPoint) :
    (c.schedule point).toSlotStore = c.toSlotStore := rfl

@[simp] theorem drawId_toSlotStore : c.drawId.toSlotStore = c.toSlotStore := rfl

@[simp] theorem take_toSlotStore (t : Transition) : (c.take t).toSlotStore = c.toSlotStore := rfl

end Simp

/-! ## Reading the operations -/

/-- `_terminalize` of a token without a live generation. -/
theorem terminalize_of_none (h : c.live token = none) (d : DeliveryDisposition) (teardown : Bool) :
    c.terminalize cfg me token d teardown
      = (if teardown then { c with teardownGeneration := c.teardownGeneration + 1 } else c, []) := by
  simp [terminalize, terminalizeState, h]

/-- `_terminalize` of a live generation. -/
theorem terminalize_of_some {g : SpeechGeneration} (h : c.live token = some g)
    (d : DeliveryDisposition) (teardown : Bool) :
    c.terminalize cfg me token d teardown
      = (((c.cancelTimer token).upon (c.reap cfg token g)).suspend me (.reportingTerminal token teardown),
        [.onTerminal me.id token g.identity (g.disposition.getD d)]) := by
  simp [terminalize, terminalizeState, h]

/-- `release_generation` of a live generation. -/
theorem releaseGeneration_of_some {g : SpeechGeneration} (h : c.live token = some g) (notify : Bool)
    (d : DeliveryDisposition) :
    c.releaseGeneration cfg token notify d
      = if notify then ((c.cancelTimer token).upon (c.reap cfg token g)).schedule
          (.callOnTerminal token g.identity (g.disposition.getD d))
        else (c.cancelTimer token).upon (c.reap cfg token g) := by
  simp [releaseGeneration, terminalizeState, h]

theorem releaseGeneration_of_none (h : c.live token = none) (notify : Bool)
    (d : DeliveryDisposition) : c.releaseGeneration cfg token notify d = c := by
  simp [releaseGeneration, terminalizeState, h]

/-- `bind_context` binds or does nothing. -/
theorem bindContext_cases (c : SpeechLifecycleCoordinator) (token : Token) (ctx : UtteranceId) :
    (c.bindContext token ctx).1 = c ∨
      (c.bindContext token ctx).1 = c.upon (c.toSlotStore.bind token ctx) := by
  rw [bindContext]
  split
  · exact Or.inl rfl
  · rename_i g hg
    by_cases htomb : g.tombstoned = true
    · exact Or.inl (by rw [if_pos htomb])
    by_cases hid : ctx ≠ g.identity.utteranceId
    · exact Or.inl (by rw [if_neg htomb, if_pos hid])
    rw [if_neg htomb, if_neg hid]
    split
    · exact Or.inl rfl
    · split_ifs
      · exact Or.inl rfl
      · exact Or.inl rfl
      · exact Or.inr rfl

/-! ## The moves of each operation -/

section

variable {e : Event} {R : Token → SpeechGeneration → Prop}

theorem requestTeardown_move :
    StoreMove cfg e R c.toSlotStore (c.requestTeardown me token).1.toSlotStore := by
  unfold requestTeardown
  split
  · exact .keep
  · split_ifs
    · exact .keep
    · exact .evolve token _ fun g _ => ⟨rfl, rfl, rfl, id, id, fun _ => ⟨rfl, rfl⟩⟩

theorem beginCleanup_move :
    StoreMove cfg e R c.toSlotStore (c.beginCleanup me token).1.toSlotStore := by
  unfold beginCleanup
  split
  · exact .keep
  · split_ifs
    · exact .keep
    · exact .evolve token _ fun g _ => ⟨rfl, rfl, rfl, id, id, fun _ => ⟨rfl, rfl⟩⟩

theorem beginDeliveryUnknown_move :
    StoreMove cfg e R c.toSlotStore (c.beginDeliveryUnknown me token).1.toSlotStore := by
  unfold beginDeliveryUnknown
  split
  · exact .keep
  · dsimp only [beginCleanup]
    split
    · exact .evolve token _ fun g _ => ⟨rfl, rfl, rfl, fun _ => rfl, id, fun _ => ⟨rfl, rfl⟩⟩
    · split_ifs
      · exact .evolve token _ fun g _ => ⟨rfl, rfl, rfl, fun _ => rfl, id, fun _ => ⟨rfl, rfl⟩⟩
      · simp only [suspend_toSlotStore, modify_toSlotStore, modify_modify]
        exact .evolve token _ fun g _ => ⟨rfl, rfl, rfl, fun _ => rfl, id, fun _ => ⟨rfl, rfl⟩⟩

theorem endCleanup_move (ok : Bool) :
    StoreMove cfg e R c.toSlotStore (c.endCleanup cfg me token ok).1.toSlotStore := by
  unfold endCleanup
  split_ifs
  · split
    · exact .keep
    · split_ifs
      · exact requestTeardown_move
      · exact .keep
  · exact requestTeardown_move

theorem finalizeUncontextedInterruption_move (d : DeliveryDisposition) :
    StoreMove cfg e R c.toSlotStore (c.finalizeUncontextedInterruption me token d).1.toSlotStore := by
  unfold finalizeUncontextedInterruption
  split <;> exact .keep

theorem terminalizeState_move (cfg : LifecycleConfig) (d : DeliveryDisposition)
    (hR : ∀ g, c.live token = some g → R token g) :
    StoreMove cfg e R c.toSlotStore (c.terminalizeState cfg token d).1.toSlotStore := by
  unfold terminalizeState
  split
  · exact .keep
  · rename_i g hg
    exact .reap token g hg (hR g hg)

theorem terminalize_move (d : DeliveryDisposition) (teardown : Bool)
    (hR : ∀ g, c.live token = some g → R token g) :
    StoreMove cfg e R c.toSlotStore (c.terminalize cfg me token d teardown).1.toSlotStore := by
  have h := terminalizeState_move (e := e) cfg d hR
  unfold terminalize
  split
  · rename_i c' heq
    rw [heq] at h
    split_ifs <;> exact h
  · rename_i c' g heq
    rw [heq] at h
    exact h

theorem heard_eq_some {contextId : UtteranceId} {g : SpeechGeneration} :
    c.heard contextId = some (token, g) ↔ c.contextTokens contextId = some token ∧
      c.live token = some g ∧ g.tombstoned = false := by
  simp only [heard, Option.bind_eq_some_iff, Option.map_eq_some_iff, Option.filter_eq_some_iff,
    Prod.mk.injEq, Bool.not_eq_true']
  constructor
  · rintro ⟨t, ht, g', ⟨hg', hlive⟩, rfl, rfl⟩
    exact ⟨ht, hg', hlive⟩
  · rintro ⟨ht, hg, hlive⟩
    exact ⟨token, ht, g, ⟨hg, hlive⟩, rfl, rfl⟩

theorem firstStep_move (point : TransitionPoint)
    (hR : ∀ token d g, point = .terminalize token d → R token g) :
    StoreMove cfg e R c.toSlotStore (c.firstStep cfg me point).1.toSlotStore := by
  rcases point with ⟨d, token⟩ | ⟨token, d⟩ | ⟨token, d⟩ | ⟨token, i, d⟩ | _ | _ | _ | _ | _
  · rcases d with _ | _ | _ | _
    · exact beginDeliveryUnknown_move
    · exact beginDeliveryUnknown_move
    · simp only [firstStep]
      split
      · exact .keep
      · exact beginCleanup_move
    · exact requestTeardown_move
  · exact finalizeUncontextedInterruption_move d
  · exact terminalize_move d false fun g _ => hR token d g rfl
  all_goals exact .keep

theorem afterCallback_move (ok : Bool) (point : TransitionPoint)
    (hR : ∀ token d g, point = .dispatchingFinalCleanup token d → R token g) :
    StoreMove cfg e R c.toSlotStore (c.afterCallback cfg me ok point).1.toSlotStore := by
  rcases point with _ | _ | _ | _ | _ | token | ⟨token, d⟩ | token | ⟨token, teardown⟩
  case dispatchingCleanup => exact endCleanup_move ok
  case dispatchingFinalCleanup =>
    simp only [afterCallback]
    split_ifs
    · exact terminalize_move d false fun g _ => hR token d g rfl
    · exact requestTeardown_move
  case reportingTerminal =>
    simp only [afterCallback]
    split_ifs <;> exact .keep
  all_goals exact .keep

end

/-- **A step makes one move of the store.** -/
theorem step_move (cfg : LifecycleConfig) (c : SpeechLifecycleCoordinator) (e : Event) :
    StoreMove cfg e (fun token g => c.Frees token g e) c.toSlotStore
      (step cfg c e).1.toSlotStore := by
  rcases e with identity | token | ⟨token, ctx⟩ | ctx | ⟨ctx, n, r, k⟩ | ctx | _ | _ | ⟨token, pause⟩ |
    ⟨token, notify, d⟩ | token | token | token | _ | now | token | id | ⟨id, ok⟩ <;>
    simp only [step]
  case tryAdmit =>
    unfold tryAdmit
    split_ifs with h
    · exact .keep
    · exact .enter identity rfl (by simp_all)
  case markHandedToTts =>
    unfold markHandedToTts
    split
    · exact .keep
    · split_ifs
      · exact .keep
      · exact .evolve token _ fun g _ => ⟨rfl, rfl, rfl, id, id, fun _ => ⟨rfl, rfl⟩⟩
  case bindContext =>
    unfold bindContext
    split
    · exact .keep
    · rename_i g hg
      by_cases htomb : g.tombstoned = true
      · simpa [htomb] using .keep
      · by_cases hid : ctx ≠ g.identity.utteranceId
        · simpa [htomb, hid] using .keep
        rw [if_neg htomb, if_neg hid]
        split
        · exact .keep
        · rename_i hunbound
          split_ifs with howner hretired
          · exact .keep
          · exact .keep
          · obtain rfl : ctx = g.identity.utteranceId := by simpa using hid
            refine .bind token g hg rfl (by simpa using htomb) hunbound ?_ hretired
            intro t ht
            simpa [ht] using howner
  case onTtsStarted =>
    unfold onTtsStarted
    split
    · exact .keep
    · rename_i token _ _
      exact .evolve token _ fun g _ => ⟨rfl, rfl, rfl, id, id, fun _ => ⟨rfl, rfl⟩⟩
  case onTtsAudio =>
    unfold onTtsAudio
    split
    · exact .keep
    · rename_i token g hg
      obtain ⟨hctx, hlive, htomb⟩ := heard_eq_some.mp hg
      refine .evolve token _ (fun g' hg' => ⟨rfl, rfl, rfl, id, fun _ => rfl, fun h => ?_⟩)
        fun _ _ _ => Or.inr ⟨ctx, hctx⟩
      obtain rfl : g' = g := Option.some.inj (hg'.symm.trans (live_eq_some.mp hlive).1)
      rw [htomb] at h
      cases h
  case onTtsStopped =>
    unfold onTtsStopped
    split
    · exact .keep
    · rename_i token _ _
      exact .evolve token _ fun g _ => ⟨rfl, rfl, rfl, id, id, fun _ => ⟨rfl, rfl⟩⟩
  case onTransportBotStarted =>
    unfold onTransportBotStarted
    split
    · exact .keep
    · rename_i token _
      exact .evolve token _ fun g _ => ⟨rfl, rfl, rfl, id, id, fun _ => ⟨rfl, rfl⟩⟩
  case onTransportBotStopped =>
    unfold onTransportBotStopped
    split
    · exact .keep
    · rename_i token _
      split
      · exact .keep
      · exact .evolve token _ fun g _ => ⟨rfl, rfl, rfl, id, id, fun _ => ⟨rfl, rfl⟩⟩
  case recordInterruption =>
    unfold recordInterruption
    split
    · exact .keep
    · dsimp only
      have hstopped : (if pause then DeliveryDisposition.paused else .interrupted) ≠ .deliveryUnknown := by
        split_ifs <;> simp
      split <;>
        exact .evolve token _ (fun g _ => ⟨rfl, rfl, rfl, fun _ => rfl, id, fun _ => ⟨rfl, rfl⟩⟩)
          (fun _ _ h => Or.inl h) fun _ _ => Or.inr ⟨hstopped, pause, rfl⟩
  case releaseGeneration =>
    have h := terminalizeState_move (c := c)
      (R := fun t g => c.Frees t g (.releaseGeneration token notify d))
      (e := .releaseGeneration token notify d) cfg d fun g _ => rfl
    unfold releaseGeneration
    split
    · rename_i c' heq
      rwa [heq] at h
    · rename_i c' g heq
      rw [heq] at h
      split_ifs <;> exact h
  case providerError => exact beginDeliveryUnknown_move (c := c.drawId)
  case acknowledgeTtsLaneFlush =>
    unfold acknowledgeTtsLaneFlush
    split
    · exact .keep
    · rename_i g hg
      split_ifs with h
      · exact .keep
      · refine terminalize_move (c := c.drawId) _ false fun g' hg' => ⟨rfl, ?_⟩
        obtain rfl : g' = g := Option.some.inj ((live_eq_some.mp hg').1.symm.trans hg)
        simp_all
  case teardownComplete =>
    unfold teardownComplete
    split
    · exact .keep
    · exact terminalize_move (c := c.drawId) _ true fun g _ => rfl
  case connectionClosed => exact .close rfl
  case tick => exact .keep
  case timerFires =>
    unfold fireTimer
    split
    · exact .keep
    · split_ifs <;> exact .keep
  case run =>
    split
    · exact .keep
    · rename_i t ht
      split_ifs
      · exact .keep
      · exact firstStep_move (c := c.take t) _ fun token d g hp => ⟨t, ht, d, hp⟩
  case callbackDone =>
    split
    · exact .keep
    · rename_i t ht
      split_ifs
      · exact afterCallback_move (c := c.take t) ok _ fun token d g hp => ⟨t, ht, d, hp⟩
      · exact .keep

theorem nextToken_step (cfg : LifecycleConfig) (c : SpeechLifecycleCoordinator) (e : Event) :
    (step cfg c e).1.nextToken = c.nextToken ∨ (step cfg c e).1.nextToken = c.nextToken + 1 := by
  have h := step_move cfg c e
  generalize (step cfg c e).1.toSlotStore = s' at h
  rcases h with _ | _ | _ | _ | _ | _
  all_goals first | exact Or.inl rfl | exact Or.inr rfl

end SpeechLifecycleCoordinator

/-! ## The slot invariant -/

namespace SlotStore

open SpeechLifecycleCoordinator (Event)

variable {cfg : LifecycleConfig} {s s' : SlotStore} {token : Token} {e : Event}
  {R : Token → SpeechGeneration → Prop}

/-- **The store holds exactly the slot's generation**, the context map exactly its bound context, and
no mapped context is retired. -/
structure Wellformed (s : SlotStore) : Prop where
  occupant : ∀ t g, s.generations t = some g → s.slotToken = some t
  stored : ∀ t, s.slotToken = some t → ∃ g, s.generations t = some g
  unreaped : ∀ t g, s.generations t = some g → g.terminalized = false
  issued : ∀ t, s.slotToken = some t → t < s.nextToken
  bound : ∀ ctx t, s.contextTokens ctx = some t →
    ∃ g, s.generations t = some g ∧ g.contextId = some ctx
  mapped : ∀ t g ctx, s.generations t = some g → g.contextId = some ctx →
    s.contextTokens ctx = some t
  own : ∀ t g ctx, s.generations t = some g → g.contextId = some ctx → ctx = g.identity.utteranceId
  retired : ∀ ctx ∈ s.contextTombstones, s.contextTokens ctx = none

theorem wellformed_init : Wellformed {} where
  occupant := by simp
  stored := by simp
  unreaped := by simp
  issued := by simp
  bound := by simp
  mapped := by simp
  own := by simp
  retired := by simp

theorem Wellformed.modify (h : s.Wellformed) {f : SpeechGeneration → SpeechGeneration}
    (hf : ∀ g, s.generations token = some g → g.Evolves (f g)) : (s.modify token f).Wellformed := by
  have hget : ∀ t g', (s.modify token f).generations t = some g' →
      ∃ g, s.generations t = some g ∧ g'.identity = g.identity ∧ g'.contextId = g.contextId ∧
        g'.terminalized = g.terminalized := by
    intro t g' hg'
    rcases eq_or_ne t token with rfl | hne
    · simp only [SlotStore.modify, Function.update_self, Option.map_eq_some_iff] at hg'
      obtain ⟨g, hg, rfl⟩ := hg'
      exact ⟨g, hg, (hf g hg).identity, (hf g hg).contextId, (hf g hg).terminalized⟩
    · exact ⟨g', by simpa [SlotStore.modify, hne] using hg', rfl, rfl, rfl⟩
  have hput : ∀ t g, s.generations t = some g →
      ∃ g', (s.modify token f).generations t = some g' ∧ g'.contextId = g.contextId := by
    intro t g hg
    rcases eq_or_ne t token with rfl | hne
    · exact ⟨f g, by simp [SlotStore.modify, hg], (hf g hg).contextId⟩
    · exact ⟨g, by simp [SlotStore.modify, hne, hg], rfl⟩
  exact {
    occupant := fun t g' hg' => by
      obtain ⟨g, hg, -⟩ := hget t g' hg'
      exact h.occupant t g hg
    stored := fun t ht => by
      obtain ⟨g, hg⟩ := h.stored t ht
      exact (hput t g hg).imp fun _ h => h.1
    unreaped := fun t g' hg' => by
      obtain ⟨g, hg, -, -, hterm⟩ := hget t g' hg'
      exact hterm.trans (h.unreaped t g hg)
    issued := h.issued
    bound := fun ctx t ht => by
      obtain ⟨g, hg, hctx⟩ := h.bound ctx t ht
      obtain ⟨g', hg', hctx'⟩ := hput t g hg
      exact ⟨g', hg', hctx'.trans hctx⟩
    mapped := fun t g' ctx hg' hctx => by
      obtain ⟨g, hg, -, hctx', -⟩ := hget t g' hg'
      exact h.mapped t g ctx hg (hctx' ▸ hctx)
    own := fun t g' ctx hg' hctx => by
      obtain ⟨g, hg, hid, hctx', -⟩ := hget t g' hg'
      exact hid ▸ h.own t g ctx hg (hctx' ▸ hctx)
    retired := h.retired }

theorem Wellformed.enter (h : s.Wellformed) (identity : GenerationIdentity)
    (hfree : s.slotToken = none) : (s.enter identity).Wellformed := by
  have hempty : ∀ t, s.generations t = none := by
    intro t
    rcases hg : s.generations t with _ | g
    · rfl
    · have := h.occupant t g hg
      rw [hfree] at this
      cases this
  have hunmapped : ∀ ctx, s.contextTokens ctx = none := by
    intro ctx
    rcases ht : s.contextTokens ctx with _ | t
    · rfl
    · obtain ⟨g, hg, -⟩ := h.bound ctx t ht
      rw [hempty t] at hg
      cases hg
  have hget : ∀ t g, (s.enter identity).generations t = some g →
      t = s.nextToken ∧ g = { identity } := by
    intro t g hg
    rcases eq_or_ne t s.nextToken with rfl | hne
    · exact ⟨rfl, by simpa [SlotStore.enter, eq_comm] using hg⟩
    · simp [SlotStore.enter, hne, hempty] at hg
  exact {
    occupant := fun t g hg => by rw [(hget t g hg).1]; rfl
    stored := fun t ht => by
      obtain rfl : s.nextToken = t := by simpa [SlotStore.enter] using ht
      exact ⟨_, by simp only [SlotStore.enter, Function.update_self]; rfl⟩
    unreaped := fun t g hg => by rw [(hget t g hg).2]
    issued := fun t ht => by
      obtain rfl : s.nextToken = t := by simpa [SlotStore.enter] using ht
      exact Nat.lt_succ_self _
    bound := fun ctx t ht => absurd ht (by simp [SlotStore.enter, hunmapped])
    mapped := fun t g ctx hg hctx => by
      rw [(hget t g hg).2] at hctx
      cases hctx
    own := fun t g ctx hg hctx => by
      rw [(hget t g hg).2] at hctx
      cases hctx
    retired := fun ctx _ => hunmapped ctx }

/-- Whatever is stored is live. -/
theorem Wellformed.live_eq (h : s.Wellformed) (t : Token) : s.live t = s.generations t := by
  rcases hg : s.generations t with _ | g
  · simp [live, hg]
  · exact live_eq_some.mpr ⟨hg, h.unreaped t g hg⟩

/-- There is no second generation beside a stored one. -/
theorem Wellformed.eq_of_generations (h : s.Wellformed) {t t' : Token} {g g' : SpeechGeneration}
    (hg : s.generations t = some g) (hg' : s.generations t' = some g') : t' = t :=
  Option.some.inj ((h.occupant t' g' hg').symm.trans (h.occupant t g hg))

/-- Nothing is mapped but the stored generation's context. -/
theorem Wellformed.contextTokens_eq_none (h : s.Wellformed) {g : SpeechGeneration}
    (hg : s.generations token = some g) (ctx : UtteranceId) (hctx : g.contextId ≠ some ctx) :
    s.contextTokens ctx = none := by
  rcases ht : s.contextTokens ctx with _ | t
  · rfl
  · obtain ⟨g', hg', hctx'⟩ := h.bound ctx t ht
    obtain rfl := h.eq_of_generations hg hg'
    rw [hg] at hg'
    cases hg'
    exact absurd hctx' hctx

theorem Wellformed.bind (h : s.Wellformed) {g : SpeechGeneration} (hg : s.live token = some g)
    (hunbound : g.contextId = none) (hfresh : g.identity.utteranceId ∉ s.contextTombstones) :
    (s.bind token g.identity.utteranceId).Wellformed := by
  obtain ⟨hg, hterm⟩ := live_eq_some.mp hg
  have hself : (s.bind token g.identity.utteranceId).generations token
      = some { g with contextId := some g.identity.utteranceId } := by
    simp [SlotStore.bind, hg]
  have hget : ∀ t g', (s.bind token g.identity.utteranceId).generations t = some g' →
      t = token ∧ g' = { g with contextId := some g.identity.utteranceId } := by
    intro t g' hg'
    rcases eq_or_ne t token with rfl | hne
    · exact ⟨rfl, Option.some.inj (hg'.symm.trans hself)⟩
    · have hold : s.generations t = some g' := by simpa [SlotStore.bind, hne] using hg'
      exact absurd (h.eq_of_generations hg hold) hne
  have hmap : ∀ ctx, (s.bind token g.identity.utteranceId).contextTokens ctx
      = if ctx = g.identity.utteranceId then some token else none := by
    intro ctx
    split_ifs with hctx
    · simp [SlotStore.bind, hctx]
    · simpa [SlotStore.bind, hctx] using h.contextTokens_eq_none hg ctx (by simp [hunbound])
  exact {
    occupant := fun t g' hg' => by
      rw [(hget t g' hg').1]
      exact h.occupant token g hg
    stored := fun t ht => by
      obtain ⟨g', hg'⟩ := h.stored t ht
      obtain rfl := h.eq_of_generations hg hg'
      exact ⟨_, hself⟩
    unreaped := fun t g' hg' => by
      rw [(hget t g' hg').2]
      exact hterm
    issued := h.issued
    bound := fun ctx t ht => by
      rw [hmap] at ht
      split_ifs at ht with hctx
      cases ht
      exact ⟨_, hself, by rw [hctx]⟩
    mapped := fun t g' ctx hg' hctx => by
      obtain ⟨rfl, rfl⟩ := hget t g' hg'
      rw [hmap, if_pos (Option.some.inj hctx).symm]
    own := fun t g' ctx hg' hctx => by
      obtain ⟨rfl, rfl⟩ := hget t g' hg'
      exact (Option.some.inj hctx).symm
    retired := fun ctx hctx => by
      rw [hmap, if_neg]
      rintro rfl
      exact hfresh hctx }

/-- **Reaping the stored generation empties the store.** -/
theorem Wellformed.reap_empty (cfg : LifecycleConfig) (h : s.Wellformed) {g : SpeechGeneration}
    (hg : s.live token = some g) :
    (∀ t, (s.reap cfg token g).generations t = none) ∧ (s.reap cfg token g).slotToken = none ∧
      ∀ ctx, (s.reap cfg token g).contextTokens ctx = none := by
  obtain ⟨hg, -⟩ := live_eq_some.mp hg
  refine ⟨fun t => ?_, ?_, fun ctx => ?_⟩
  · rcases eq_or_ne t token with rfl | hne
    · simp [SlotStore.reap]
    · rcases hg' : s.generations t with _ | g'
      · simp [SlotStore.reap, hne, hg']
      · exact absurd (h.eq_of_generations hg hg') hne
  · simp [SlotStore.reap, h.occupant token g hg]
  · rcases hctx : g.contextId with _ | bound
    · simpa [SlotStore.reap, hctx] using h.contextTokens_eq_none hg ctx (by simp [hctx])
    · have hb := h.mapped token g bound hg hctx
      rcases eq_or_ne ctx bound with rfl | hne
      · simp [SlotStore.reap, hctx, hb]
      · have hnone := h.contextTokens_eq_none hg ctx (by simp [hctx, hne.symm])
        simp [SlotStore.reap, hctx, hb, hne, hnone]

theorem Wellformed.reap (h : s.Wellformed) {g : SpeechGeneration} (hg : s.live token = some g) :
    (s.reap cfg token g).Wellformed := by
  obtain ⟨hgen, hslot, hctx⟩ := h.reap_empty cfg hg
  exact {
    occupant := by simp [hgen]
    stored := by simp [hslot]
    unreaped := by simp [hgen]
    issued := by simp [hslot]
    bound := by simp [hctx]
    mapped := by simp [hgen]
    own := by simp [hgen]
    retired := by simp [hctx] }

theorem wellformed_close (s : SlotStore) : s.close.Wellformed where
  occupant := by simp [SlotStore.close]
  stored := by simp [SlotStore.close]
  unreaped := by simp [SlotStore.close]
  issued := by simp [SlotStore.close]
  bound := by simp [SlotStore.close]
  mapped := by simp [SlotStore.close]
  own := by simp [SlotStore.close]
  retired := by simp [SlotStore.close]

/-- **Every move of the store keeps it well formed.** -/
theorem StoreMove.wellformed (h : s.Wellformed) (hm : StoreMove cfg e R s s') : s'.Wellformed := by
  rcases hm with _ | ⟨token, f, hf⟩ | ⟨identity, -, hfree⟩ |
    ⟨token, g, hg, -, -, hunbound, -, hfresh⟩ | ⟨token, g, hg⟩ | _
  · exact h
  · exact h.modify hf
  · exact h.enter identity hfree
  · exact h.bind hg hunbound hfresh
  · exact h.reap hg
  · exact wellformed_close s

end SlotStore

end SubagentsLab

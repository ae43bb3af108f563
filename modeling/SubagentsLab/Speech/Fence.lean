import Mathlib.Data.List.Induction
import SubagentsLab.Speech.Slot

/-!
# Speech/Fence — the audio fence

Audio that has crossed into output cannot be taken back, so a generation whose audio was submitted
keeps the slot until the output transport says it stopped, the lane is torn down, the scheduler
releases it or the connection closes (`freed_after_audio`).  A **tombstoned** generation is silent
(`tombstoned_silent`): no context is bound to it, no TTS frame of its context is accepted, and its
context stays known as stale while the connection lives and the tombstone list has room
(`tombstoned_stale`).
-/

namespace SubagentsLab

open Machinery

/-! ## A stored generation under the moves of the store -/

namespace SlotStore

open SpeechLifecycleCoordinator (Event)

variable {cfg : LifecycleConfig} {e : Event} {R : Token → SpeechGeneration → Prop}
  {s s' : SlotStore} {token : Token} {g : SpeechGeneration}

/-- A generation that stays stored evolves, or its own context is bound to it. -/
theorem StoreMove.kept (hwf : s.Wellformed) (hm : StoreMove cfg e R s s') {g' : SpeechGeneration}
    (hg : s.generations token = some g) (hg' : s'.generations token = some g') :
    g.Evolves g' ∨ (g.tombstoned = false ∧
      g' = { g with contextId := some g.identity.utteranceId }) := by
  have hrefl : g.Evolves g := ⟨rfl, rfl, rfl, id, id, fun _ => ⟨rfl, rfl⟩⟩
  rcases hm with _ | ⟨t, f, hf⟩ | ⟨identity, -, hfree⟩ | ⟨t, b, hb, -, hlive, -, -, -⟩ |
    ⟨t, b, hb, -⟩ | _
  · exact Or.inl (Option.some.inj (hg.symm.trans hg') ▸ hrefl)
  · rcases eq_or_ne token t with rfl | hne
    · obtain rfl : f g = g' := by simpa [SlotStore.modify, hg] using hg'
      exact Or.inl (hf g hg)
    · have hsame : s.generations token = some g' := by simpa [SlotStore.modify, hne] using hg'
      exact Or.inl (Option.some.inj (hg.symm.trans hsame) ▸ hrefl)
  · exact absurd ((hwf.occupant token g hg).symm.trans hfree) (by simp)
  · obtain ⟨hb, -⟩ := live_eq_some.mp hb
    obtain rfl := hwf.eq_of_generations hb hg
    obtain rfl : g = b := Option.some.inj (hg.symm.trans hb)
    exact Or.inr ⟨hlive, by simpa [SlotStore.bind, hg, eq_comm] using hg'⟩
  · rw [(hwf.reap_empty cfg hb).1 token] at hg'
    cases hg'
  · cases hg'

/-- An issued token that is not stored stays unstored. -/
theorem StoreMove.gone (hm : StoreMove cfg e R s s') (hlt : token < s.nextToken)
    (hnone : s.generations token = none) : s'.generations token = none := by
  rcases hm with _ | ⟨t, f, -⟩ | ⟨identity, -, -⟩ | ⟨t, b, -, -, -, -, -, -⟩ | ⟨t, b, -, -⟩ | _
  · exact hnone
  · rcases eq_or_ne token t with rfl | hne
    · simp [SlotStore.modify, hnone]
    · simpa [SlotStore.modify, hne] using hnone
  · simpa [SlotStore.enter, hlt.ne] using hnone
  · rcases eq_or_ne token t with rfl | hne
    · simp [SlotStore.bind, hnone]
    · simpa [SlotStore.bind, hne] using hnone
  · rcases eq_or_ne token t with rfl | hne
    · simp [SlotStore.reap]
    · simpa [SlotStore.reap, hne] using hnone
  · rfl

theorem StoreMove.nextToken_le (hm : StoreMove cfg e R s s') : s.nextToken ≤ s'.nextToken := by
  rcases hm with _ | _ | _ | _ | _ | _
  all_goals first | exact Nat.le_refl _ | exact Nat.le_succ _

/-- What is true of an issued token's generation for as long as it is stored. -/
def Holds (P : SpeechGeneration → Prop) (token : Token) (s : SlotStore) : Prop :=
  token < s.nextToken ∧ ∀ g, s.generations token = some g → P g

/-- **What evolving and binding preserve of a generation holds while it is stored.** -/
theorem Holds.move {P : SpeechGeneration → Prop} (h : Holds P token s) (hwf : s.Wellformed)
    (hevolve : ∀ g g', P g → g.Evolves g' → P g')
    (hbind : ∀ g, P g → g.tombstoned = false →
      P { g with contextId := some g.identity.utteranceId })
    (hm : StoreMove cfg e R s s') : Holds P token s' := by
  refine ⟨Nat.lt_of_lt_of_le h.1 hm.nextToken_le, fun g' hg' => ?_⟩
  rcases hg : s.generations token with _ | g
  · rw [hm.gone h.1 hg] at hg'
    cases hg'
  · rcases hm.kept hwf hg hg' with hev | ⟨htomb, rfl⟩
    · exact hevolve g g' (h.2 g hg) hev
    · exact hbind g (h.2 g hg) htomb

/-- Audio is submitted only on a bound context. -/
def Voiced (s : SlotStore) : Prop :=
  ∀ t g, s.generations t = some g → g.audioSubmitted = true → g.contextId.isSome = true

theorem StoreMove.voiced (hwf : s.Wellformed) (h : s.Voiced) (hm : StoreMove cfg e R s s') :
    s'.Voiced := by
  intro t g' hg' haudio
  rcases hm with _ | ⟨token, f, hf, hvoice⟩ | ⟨identity, -, hfree⟩ |
    ⟨token, b, hb, -, -, -, -, -⟩ | ⟨token, b, hb, -⟩ | _
  · exact h t g' hg' haudio
  · rcases eq_or_ne t token with rfl | hne
    · simp only [SlotStore.modify, Function.update_self, Option.map_eq_some_iff] at hg'
      obtain ⟨g, hg, rfl⟩ := hg'
      rw [(hf g hg).contextId]
      rcases hvoice g hg haudio with hold | ⟨ctx, hctx⟩
      · exact h t g hg hold
      · obtain ⟨b, hb, hbound⟩ := hwf.bound ctx t hctx
        rw [Option.some.inj (hg.symm.trans hb), hbound]
        rfl
    · exact h t g' (by simpa [SlotStore.modify, hne] using hg') haudio
  · rcases eq_or_ne t s.nextToken with rfl | hne
    · obtain rfl : { identity } = g' := by simpa [SlotStore.enter] using hg'
      cases haudio
    · exact h t g' (by simpa [SlotStore.enter, hne] using hg') haudio
  · rcases eq_or_ne t token with rfl | hne
    · simp only [SlotStore.bind, Function.update_self, Option.map_eq_some_iff] at hg'
      obtain ⟨g, -, rfl⟩ := hg'
      rfl
    · exact h t g' (by simpa [SlotStore.bind, hne] using hg') haudio
  · rw [(hwf.reap_empty cfg hb).1 t] at hg'
    cases hg'
  · cases hg'

/-- **A generation leaves the store only by being reaped or by the connection closing.** -/
theorem StoreMove.left (hwf : s.Wellformed) (hm : StoreMove cfg e R s s')
    (hg : s.generations token = some g) (hnone : s'.generations token = none) :
    R token g ∨ e = .connectionClosed := by
  rcases hm with _ | ⟨t, f, -⟩ | ⟨identity, -, hfree⟩ | ⟨t, b, -, -, -, -, -, -⟩ |
    ⟨t, b, hb, hR⟩ | he
  · rw [hg] at hnone
    cases hnone
  · rcases eq_or_ne token t with rfl | hne
    · simp [SlotStore.modify, hg] at hnone
    · simp [SlotStore.modify, hne, hg] at hnone
  · exact absurd ((hwf.occupant token g hg).symm.trans hfree) (by simp)
  · rcases eq_or_ne token t with rfl | hne
    · simp [SlotStore.bind, hg] at hnone
    · simp [SlotStore.bind, hne, hg] at hnone
  · obtain ⟨hb, -⟩ := live_eq_some.mp hb
    obtain rfl := hwf.eq_of_generations hb hg
    exact Or.inl (Option.some.inj (hg.symm.trans hb) ▸ hR)
  · exact Or.inr he

end SlotStore

/-! ## The coroutines that free the slot -/

/-- The coroutine reaps a generation once it gets there. -/
def TransitionPoint.reaps : TransitionPoint → Bool
  | .finalizeUncontextedInterruption _ _ | .dispatchingFinalCleanup _ _ | .terminalize _ _ => true
  | _ => false

/-- The coroutine finalizes an interruption of `token` without a bound context. -/
def TransitionPoint.finalizes (token : Token) : TransitionPoint → Bool
  | .finalizeUncontextedInterruption t _ | .dispatchingFinalCleanup t _ => t = token
  | _ => false

namespace SpeechLifecycleCoordinator

open SlotStore

variable {cfg : LifecycleConfig} {c c' : SpeechLifecycleCoordinator} {me : Coroutine} {token : Token}
  {t : Transition} {e : Event}

/-- No reaping coroutine is under way in `c'` that is not in `c`. -/
def Launchless (c c' : SpeechLifecycleCoordinator) : Prop :=
  ∀ t ∈ c'.transitions, t.point.reaps = true → t ∈ c.transitions

theorem Launchless.refl (c : SpeechLifecycleCoordinator) : Launchless c c := fun _ ht _ => ht

theorem Launchless.suspend {point : TransitionPoint} (h : Launchless c c')
    (hp : point.reaps = false) : Launchless c (c'.suspend me point) := by
  intro t ht hr
  rcases List.mem_append.mp ht with ht | ht
  · exact h t ht hr
  · rw [List.mem_singleton.mp ht, hp] at hr
    cases hr

theorem launchless_requestTeardown : Launchless c (c.requestTeardown me token).1 := by
  rw [requestTeardown]
  split
  · exact .refl c
  · split_ifs
    · exact .refl c
    · exact Launchless.suspend (.refl c) rfl

theorem launchless_beginCleanup : Launchless c (c.beginCleanup me token).1 := by
  rw [beginCleanup]
  split
  · exact .refl c
  · split_ifs
    · exact .refl c
    · exact Launchless.suspend (.refl c) rfl

theorem launchless_beginDeliveryUnknown : Launchless c (c.beginDeliveryUnknown me token).1 := by
  rw [beginDeliveryUnknown]
  split
  · exact .refl c
  · exact launchless_beginCleanup (c := c.modify token _)

theorem launchless_endCleanup (ok : Bool) : Launchless c (c.endCleanup cfg me token ok).1 := by
  rw [endCleanup]
  split_ifs
  · split
    · exact .refl c
    · split_ifs
      · exact launchless_requestTeardown
      · exact .refl c
  · exact launchless_requestTeardown

theorem launchless_terminalize (d : DeliveryDisposition) (teardown : Bool) :
    Launchless c (c.terminalize cfg me token d teardown).1 := by
  rcases hl : c.live token with _ | g
  · rw [terminalize_of_none hl]
    split_ifs <;> exact .refl c
  · rw [terminalize_of_some hl]
    exact Launchless.suspend (.refl c) rfl

theorem launchless_releaseGeneration (notify : Bool) (d : DeliveryDisposition) :
    Launchless c (c.releaseGeneration cfg token notify d) := by
  rcases hl : c.live token with _ | g
  · rw [releaseGeneration_of_none hl]
    exact .refl c
  · rw [releaseGeneration_of_some hl]
    split_ifs
    · exact Launchless.suspend (.refl c) rfl
    · exact .refl c

/-- **How a reaping coroutine gets under way.** -/
inductive Launch (c : SpeechLifecycleCoordinator) : Event → Transition → Prop
  | botStopped (token : Token) (hslot : c.slotToken = some token) :
      Launch c .onTransportBotStopped ⟨⟨c.nextTransition, true⟩, .terminalize token .deliveryUnknown⟩
  | interruption (token : Token) (g : SpeechGeneration) (pause : Bool) (id : ℕ)
      (d : DeliveryDisposition) (hg : c.generations token = some g) (hctx : g.contextId = none) :
      Launch c (.recordInterruption token pause)
        ⟨⟨id, true⟩, .finalizeUncontextedInterruption token d⟩
  | dispatch (t : Transition) (token : Token) (d : DeliveryDisposition) (ht : t ∈ c.transitions)
      (hp : t.point = .finalizeUncontextedInterruption token d) :
      Launch c (.run t.id) ⟨t.toCoroutine, .dispatchingFinalCleanup token d⟩

theorem launch_firstStep (hmem : t ∈ c.transitions) {t' : Transition}
    (ht : t' ∈ ((c.take t).firstStep cfg t.toCoroutine t.point).1.transitions)
    (hr : t'.point.reaps = true) : t' ∈ c.transitions ∨ Launch c (.run t.id) t' := by
  have hless : Launchless (c.take t) ((c.take t).firstStep cfg t.toCoroutine t.point).1 →
      t' ∈ c.transitions := fun h => List.mem_of_mem_erase (h t' ht hr)
  rcases hp : t.point with ⟨d, token⟩ | ⟨token, d⟩ | ⟨token, d⟩ | ⟨token, i, d⟩ | _ | _ | _ | _ | _
  case onTimeout =>
    rw [hp] at hless
    refine Or.inl (hless ?_)
    rcases d with _ | _ | _ | _
    · exact launchless_beginDeliveryUnknown
    · exact launchless_beginDeliveryUnknown
    · rw [firstStep]
      split
      · exact .refl _
      · exact launchless_beginCleanup
    · exact launchless_requestTeardown
  case finalizeUncontextedInterruption =>
    rw [hp, firstStep, finalizeUncontextedInterruption] at ht
    split at ht
    · exact Or.inl (List.mem_of_mem_erase ht)
    · rcases List.mem_append.mp ht with ht | ht
      · exact Or.inl (List.mem_of_mem_erase ht)
      · rw [List.mem_singleton.mp ht]
        exact Or.inr (.dispatch t token d hmem hp)
  case terminalize =>
    rw [hp] at hless
    exact Or.inl (hless (launchless_terminalize d false))
  case callOnTerminal =>
    rw [hp] at hless
    exact Or.inl (hless (Launchless.suspend (.refl _) rfl))
  all_goals
    rw [hp] at hless
    exact Or.inl (hless (.refl _))

theorem launchless_afterCallback (ok : Bool) (point : TransitionPoint) :
    Launchless c (c.afterCallback cfg me ok point).1 := by
  rcases point with _ | _ | _ | _ | _ | token | ⟨token, d⟩ | token | ⟨token, teardown⟩
  case dispatchingCleanup => exact launchless_endCleanup ok
  case dispatchingFinalCleanup =>
    rw [afterCallback]
    split_ifs
    · exact launchless_terminalize d false
    · exact launchless_requestTeardown
  case reportingTerminal =>
    rw [afterCallback]
    split_ifs <;> exact .refl c
  all_goals exact .refl c

/-- **A reaping coroutine was under way before the step, or the step launches it.** -/
theorem step_launch (ht : t ∈ (step cfg c e).1.transitions) (hr : t.point.reaps = true) :
    t ∈ c.transitions ∨ Launch c e t := by
  have hless : Launchless c (step cfg c e).1 → t ∈ c.transitions ∨ Launch c e t :=
    fun h => Or.inl (h t ht hr)
  rcases e with identity | token | ⟨token, ctx⟩ | ctx | ⟨ctx, n, r, k⟩ | ctx | _ | _ | ⟨token, pause⟩ |
    ⟨token, notify, d⟩ | token | token | token | _ | now | token | id | ⟨id, ok⟩
  case tryAdmit =>
    refine hless ?_
    rw [step, tryAdmit]
    split_ifs <;> exact .refl c
  case markHandedToTts =>
    refine hless ?_
    rw [step, markHandedToTts]
    split
    · exact .refl c
    · split_ifs <;> exact .refl c
  case bindContext =>
    refine hless ?_
    rw [step]
    rcases bindContext_cases c token ctx with h | h <;> rw [h] <;> exact .refl c
  case onTtsStarted =>
    refine hless ?_
    rw [step, onTtsStarted]
    split <;> exact .refl c
  case onTtsAudio =>
    refine hless ?_
    rw [step, onTtsAudio]
    split <;> exact .refl c
  case onTtsStopped =>
    refine hless ?_
    rw [step, onTtsStopped]
    split <;> exact .refl c
  case onTransportBotStarted =>
    refine hless ?_
    rw [step, onTransportBotStarted]
    split <;> exact .refl c
  case onTransportBotStopped =>
    rw [step, onTransportBotStopped] at ht
    split at ht
    · exact Or.inl (Launchless.suspend (.refl c) rfl t ht hr)
    · rename_i token hslot
      split at ht
      · exact Or.inl (Launchless.suspend (.refl c) rfl t ht hr)
      · rcases List.mem_append.mp ht with ht | ht
        · exact Or.inl ht
        · rw [List.mem_singleton.mp ht]
          exact Or.inr (.botStopped token hslot)
  case recordInterruption =>
    rw [step, recordInterruption] at ht
    split at ht
    · exact Or.inl ht
    · rename_i g hg
      dsimp only at ht
      split at ht
      · rename_i hctx
        rcases List.mem_append.mp ht with ht | ht
        · exact Or.inl ht
        · rw [List.mem_singleton.mp ht]
          exact Or.inr (.interruption token g pause _ _ (live_eq_some.mp hg).1 hctx)
      · exact Or.inl ht
  case releaseGeneration => exact hless (launchless_releaseGeneration notify d)
  case providerError => exact hless (launchless_beginDeliveryUnknown (c := c.drawId))
  case acknowledgeTtsLaneFlush =>
    refine hless ?_
    rw [step, acknowledgeTtsLaneFlush]
    split
    · exact .refl c
    · split_ifs
      · exact .refl c
      · exact launchless_terminalize (c := c.drawId) _ false
  case teardownComplete =>
    refine hless ?_
    rw [step, teardownComplete]
    split
    · exact .refl c
    · exact launchless_terminalize (c := c.drawId) _ true
  case connectionClosed => exact hless fun t ht _ => List.mem_of_mem_filter ht
  case tick => exact hless (.refl c)
  case timerFires =>
    refine hless ?_
    rw [step, fireTimer]
    split
    · exact .refl c
    · split_ifs
      · exact .refl c
      · exact Launchless.suspend (.refl c) rfl
  case run =>
    rw [step] at ht
    split at ht
    · exact Or.inl ht
    · rename_i t' hfind
      split_ifs at ht
      · exact Or.inl ht
      · obtain rfl : t'.id = id := by simpa using List.find?_some hfind
        exact launch_firstStep (List.mem_of_find?_eq_some hfind) ht hr
  case callbackDone =>
    rw [step] at ht
    split at ht
    · exact Or.inl ht
    · rename_i t' hfind
      split_ifs at ht
      · exact Or.inl (List.mem_of_mem_erase (launchless_afterCallback ok t'.point t ht hr))
      · exact Or.inl ht

/-! ## Interruptions without a context -/

/-- Tombstoned, with no context to come. -/
def Mute (g : SpeechGeneration) : Prop := g.tombstoned = true ∧ g.contextId = none

/-- A coroutine that finalizes an interruption is under way only for a mute generation. -/
def Uncontexted (c : SpeechLifecycleCoordinator) : Prop :=
  ∀ t ∈ c.transitions, ∀ token, t.point.finalizes token = true → Holds Mute token c.toSlotStore

theorem mute_step (hwf : c.toSlotStore.Wellformed) (h : Holds Mute token c.toSlotStore) :
    Holds Mute token (step cfg c e).1.toSlotStore := by
  refine h.move hwf ?_ ?_ (step_move cfg c e)
  · rintro g g' ⟨htomb, hctx⟩ hev
    exact ⟨hev.tombstoned htomb, hev.contextId.trans hctx⟩
  · rintro g ⟨htomb, -⟩ hlive
    rw [htomb] at hlive
    cases hlive

theorem mute_recordInterruption (hwf : c.toSlotStore.Wellformed) {g : SpeechGeneration}
    (hg : c.generations token = some g) (hctx : g.contextId = none) (pause : Bool) :
    Holds Mute token (c.recordInterruption cfg token pause).toSlotStore := by
  have hlive : c.live token = some g := by rw [hwf.live_eq, hg]
  simp only [recordInterruption, hlive, hctx]
  refine ⟨hwf.issued token (hwf.occupant token g hg), fun g' hg' => ?_⟩
  obtain rfl : _ = g' := by simpa [SlotStore.modify, hg] using hg'
  exact ⟨rfl, hctx⟩

theorem uncontexted_step (hwf : c.toSlotStore.Wellformed) (h : c.Uncontexted) :
    (step cfg c e).1.Uncontexted := by
  intro t ht token hf
  have hr : t.point.reaps = true := by
    rcases hp : t.point with _ | _ | _ | _ | _ | _ | _ | _ | _ <;>
      simp_all [TransitionPoint.finalizes, TransitionPoint.reaps]
  rcases step_launch ht hr with hold | ⟨tok, -⟩ | ⟨tok, g, pause, id, d, hg, hctx⟩ | ⟨t, tok, d, hmem, hp⟩
  · exact mute_step hwf (h t hold token hf)
  · cases hf
  · obtain rfl : tok = token := by simpa [TransitionPoint.finalizes] using hf
    exact mute_recordInterruption hwf hg hctx pause
  · refine mute_step hwf (h t hmem token ?_)
    simpa [TransitionPoint.finalizes, hp] using hf

/-! ## The run -/

/-- What holds of the coordinator in every state of every run. -/
structure Sound (c : SpeechLifecycleCoordinator) : Prop where
  wellformed : c.toSlotStore.Wellformed
  voiced : c.toSlotStore.Voiced
  uncontexted : c.Uncontexted

theorem Sound.step (h : c.Sound) (e : Event) : (step cfg c e).1.Sound where
  wellformed := (step_move cfg c e).wellformed h.wellformed
  voiced := (step_move cfg c e).voiced h.wellformed h.voiced
  uncontexted := uncontexted_step h.wellformed h.uncontexted

theorem sound_after (cfg : LifecycleConfig) (es : List Event) : (after cfg es).Sound := by
  refine run_invariant_of_step (I := Sound) (fun c e h => h.step e) ?_ es
  exact ⟨wellformed_init, by simp [Voiced], by simp [Uncontexted]⟩

theorem after_append (cfg : LifecycleConfig) (es es' : List Event) :
    after cfg (es ++ es') = run (fun c e => (step cfg c e).1) (after cfg es) es' :=
  run_append _ es es'

theorem after_concat (cfg : LifecycleConfig) (es : List Event) (e : Event) :
    after cfg (es ++ [e]) = (step cfg (after cfg es) e).1 := after_append cfg es [e]

/-- **The coroutine that terminalizes a generation was scheduled by a bot stop** that came while
the generation was in the slot. -/
theorem terminalize_of_botStopped (cfg : LifecycleConfig) (es : List Event) (t : Transition)
    (ht : t ∈ (after cfg es).transitions) {token : Token} {d : DeliveryDisposition}
    (hp : t.point = .terminalize token d) :
    ∃ es₁ es₂, es = es₁ ++ .onTransportBotStopped :: es₂ ∧
      (after cfg es₁).slotToken = some token ∧ t.id = (after cfg es₁).nextTransition := by
  induction es using List.reverseRecOn with
  | nil => cases ht
  | append_singleton es e ih =>
    rw [after_concat] at ht
    rcases step_launch ht (by rw [hp]; rfl) with hold | ⟨tok, hslot⟩ | ⟨tok, g, pause, id, d, hg, hctx⟩ |
      ⟨t, tok, d, hmem, hp'⟩
    · obtain ⟨es₁, es₂, rfl, hrest⟩ := ih hold
      exact ⟨es₁, es₂ ++ [e], by simp, hrest⟩
    · cases hp
      exact ⟨es, [], rfl, hslot, rfl⟩
    · cases hp
    · cases hp

theorem wellformed_run (hwf : c.toSlotStore.Wellformed) (es : List Event) :
    (run (fun c e => (step cfg c e).1) c es).toSlotStore.Wellformed :=
  run_invariant_of_step (σ := SpeechLifecycleCoordinator) (I := fun c => c.toSlotStore.Wellformed)
    (fun c e h => (step_move cfg c e).wellformed h) hwf es

/-- What holds of a generation and is kept by evolving and binding holds along a run. -/
theorem holds_run {P : SpeechGeneration → Prop} (hevolve : ∀ g g', P g → g.Evolves g' → P g')
    (hbind : ∀ g, P g → g.tombstoned = false →
      P { g with contextId := some g.identity.utteranceId })
    (h : Holds P token c.toSlotStore) (hwf : c.toSlotStore.Wellformed) (es : List Event) :
    Holds P token (run (fun c e => (step cfg c e).1) c es).toSlotStore := by
  refine (run_invariant_of_step (σ := SpeechLifecycleCoordinator)
    (I := fun c => c.toSlotStore.Wellformed ∧ Holds P token c.toSlotStore) ?_ ⟨hwf, h⟩ es).2
  rintro c e ⟨hwf, h⟩
  exact ⟨(step_move cfg c e).wellformed hwf, h.move hwf hevolve hbind (step_move cfg c e)⟩

/-! ## After audio -/

/-- The events that free the slot of a generation whose audio is submitted: teardown, release,
closing, and the coroutine that a bot stop scheduled while the generation was in the slot. -/
def FreesAudible (cfg : LifecycleConfig) (es : List Event) (token : Token) : Event → Prop
  | .teardownComplete t | .releaseGeneration t _ _ => t = token
  | .connectionClosed => True
  | .run id => ∃ es₁ es₂, es = es₁ ++ .onTransportBotStopped :: es₂ ∧
      (after cfg es₁).slotToken = some token ∧ id = (after cfg es₁).nextTransition
  | _ => False

/-- One step past audio. -/
theorem frees_audible {es : List Event} {g : SpeechGeneration}
    (hg : (after cfg es).generations token = some g) (haudio : g.audioSubmitted = true)
    (hnone : (after cfg (es ++ [e])).generations token = none) : FreesAudible cfg es token e := by
  have hs := sound_after cfg es
  rw [after_concat] at hnone
  rcases (step_move cfg _ e).left hs.wellformed hg hnone with hR | rfl
  · rcases e with _ | _ | _ | _ | _ | _ | _ | _ | _ | ⟨t, notify, d⟩ | _ | t | t | _ | _ | _ | id | ⟨id, ok⟩
    case releaseGeneration => exact hR
    case teardownComplete => exact hR
    case acknowledgeTtsLaneFlush =>
      exact absurd haudio (by simp [hR.2])
    case run =>
      obtain ⟨t, ht, d, hp⟩ := hR
      obtain rfl : t.id = id := by simpa using List.find?_some ht
      exact terminalize_of_botStopped cfg es t (List.mem_of_find?_eq_some ht) hp
    case callbackDone =>
      obtain ⟨t, ht, d, hp⟩ := hR
      have hmute : Mute g := (hs.uncontexted t (List.mem_of_find?_eq_some ht) token
        (by simp [hp, TransitionPoint.finalizes])).2 g hg
      have hbound := hs.voiced token g hg haudio
      rw [hmute.2] at hbound
      cases hbound
    all_goals exact hR.elim
  · trivial

theorem onTtsAudio_accepted {ctx : UtteranceId} {bytes : ℕ} {rate channels : ℤ}
    (hacc : (c.onTtsAudio ctx bytes rate channels).2 = true) (hctx : c.contextTokens ctx = some token)
    (hwf : c.toSlotStore.Wellformed) :
    Holds (fun g => g.audioSubmitted = true) token
      (step cfg c (.onTtsAudio ctx bytes rate channels)).1.toSlotStore := by
  rw [step]
  rcases hh : c.heard ctx with _ | ⟨t, g⟩
  · simp [onTtsAudio, hh] at hacc
  · obtain ⟨hctx', hlive, -⟩ := heard_eq_some.mp hh
    obtain rfl : t = token := Option.some.inj (hctx'.symm.trans hctx)
    obtain ⟨hg, -⟩ := live_eq_some.mp hlive
    simp only [onTtsAudio, hh]
    refine ⟨hwf.issued t (hwf.occupant t g hg), fun g' hg' => ?_⟩
    obtain rfl : _ = g' := by simpa [SlotStore.modify, hg] using hg'
    rfl

/-- **The audio fence**: once `on_tts_audio` was accepted for a generation, only a bot stop, a
teardown, a release or the closing of the connection frees its slot. -/
theorem freed_after_audio (cfg : LifecycleConfig) (es es' : List Event) (ctx : UtteranceId)
    (bytes : ℕ) (rate channels : ℤ) (token : Token) (e : Event)
    (hctx : (after cfg es).contextTokens ctx = some token)
    (hacc : ((after cfg es).onTtsAudio ctx bytes rate channels).2 = true)
    (hslot : (after cfg (es ++ .onTtsAudio ctx bytes rate channels :: es')).slotToken = some token)
    (hfree : (after cfg (es ++ .onTtsAudio ctx bytes rate channels :: es' ++ [e])).slotToken
      ≠ some token) :
    FreesAudible cfg (es ++ .onTtsAudio ctx bytes rate channels :: es') token e := by
  have hwf := (sound_after cfg es).wellformed
  have haudible : Holds (fun g => g.audioSubmitted = true) token
      (after cfg (es ++ .onTtsAudio ctx bytes rate channels :: es')).toSlotStore := by
    rw [after_append, run_cons]
    exact holds_run (fun g g' h hev => hev.audioSubmitted h) (fun g h _ => h)
      (onTtsAudio_accepted hacc hctx hwf) ((step_move cfg _ _).wellformed hwf) es'
  obtain ⟨g, hg⟩ := (sound_after cfg _).wellformed.stored token hslot
  refine frees_audible hg (haudible.2 g hg) ?_
  rcases hg' : (after cfg (es ++ .onTtsAudio ctx bytes rate channels :: es' ++ [e])).generations token
    with _ | g'
  · rfl
  · exact absurd ((sound_after cfg _).wellformed.occupant token g' hg') hfree

/-! ## After the tombstone -/

section Tombstoned

variable {g : SpeechGeneration}

/-- The tombstoned generation `g`, as it is found later. -/
structure Silenced (g g' : SpeechGeneration) : Prop where
  tombstoned : g'.tombstoned = true
  identity : g'.identity = g.identity
  contextId : g'.contextId = g.contextId
  audioSubmitted : g'.audioSubmitted = g.audioSubmitted
  audioDurationSeconds : g'.audioDurationSeconds = g.audioDurationSeconds

theorem Silenced.evolves {g' g'' : SpeechGeneration} (h : Silenced g g') (hev : g'.Evolves g'') :
    Silenced g g'' where
  tombstoned := hev.tombstoned h.tombstoned
  identity := hev.identity.trans h.identity
  contextId := hev.contextId.trans h.contextId
  audioSubmitted := (hev.silent h.tombstoned).1.trans h.audioSubmitted
  audioDurationSeconds := (hev.silent h.tombstoned).2.trans h.audioDurationSeconds

/-- **A tombstoned generation stays tombstoned, and nothing is heard of it.** -/
theorem silenced_run (cfg : LifecycleConfig) (hwf : c.toSlotStore.Wellformed) (hg : c.generations token = some g)
    (htomb : g.tombstoned = true) (es : List Event) :
    Holds (Silenced g) token (run (fun c e => (step cfg c e).1) c es).toSlotStore := by
  refine holds_run (fun _ _ h hev => h.evolves hev) ?_ ?_ hwf es
  · intro g' h hlive
    rw [h.tombstoned] at hlive
    cases hlive
  · refine ⟨hwf.issued token (hwf.occupant token g hg), fun g' hg' => ?_⟩
    obtain rfl : g = g' := Option.some.inj (hg.symm.trans hg')
    exact ⟨htomb, rfl, rfl, rfl, rfl⟩

/-- The utterance `u` is stored under no other token. -/
def Sole (u : UtteranceId) (token : Token) (s : SlotStore) : Prop :=
  ∀ t g, s.generations t = some g → g.identity.utteranceId = u → t = token

/-- No admission among `es` reuses the utterance id `u`. -/
def Unreused (u : UtteranceId) (es : List Event) : Prop :=
  ∀ i, Event.tryAdmit i ∈ es → i.utteranceId ≠ u

theorem sole_step {u : UtteranceId} (hwf : c.toSlotStore.Wellformed) (h : Sole u token c.toSlotStore)
    (he : ∀ i, e = .tryAdmit i → i.utteranceId ≠ u) :
    Sole u token (step cfg c e).1.toSlotStore := by
  intro t g' hg' hu
  have hm := step_move cfg c e
  generalize (step cfg c e).1.toSlotStore = s' at hm hg'
  rcases hg : c.generations t with _ | g
  · rcases hm with _ | ⟨b, f, -⟩ | ⟨identity, rfl, -⟩ | ⟨b, g, -⟩ | ⟨b, g, hb, -⟩ | _
    · exact absurd (hg.symm.trans hg') (by simp)
    · rcases eq_or_ne t b with rfl | hne
      · simp [SlotStore.modify, hg] at hg'
      · simp [SlotStore.modify, hne, hg] at hg'
    · rcases eq_or_ne t c.nextToken with rfl | hne
      · obtain rfl : { identity } = g' := by simpa [SlotStore.enter] using hg'
        exact absurd hu (he identity rfl)
      · simp [SlotStore.enter, hne, hg] at hg'
    · rcases eq_or_ne t b with rfl | hne
      · simp [SlotStore.bind, hg] at hg'
      · simp [SlotStore.bind, hne, hg] at hg'
    · rw [(hwf.reap_empty cfg hb).1 t] at hg'
      cases hg'
    · cases hg'
  · refine h t g hg ?_
    rcases hm.kept hwf hg hg' with hev | ⟨-, rfl⟩
    · rw [← hu, hev.identity]
    · exact hu

theorem sole_run {u : UtteranceId} {es : List Event} (hwf : c.toSlotStore.Wellformed)
    (h : Sole u token c.toSlotStore) (hes : Unreused u es) :
    Sole u token (run (fun c e => (step cfg c e).1) c es).toSlotStore := by
  induction es generalizing c with
  | nil => exact h
  | cons e es ih =>
    refine ih ((step_move cfg c e).wellformed hwf) (sole_step hwf h ?_) ?_
    · rintro i rfl
      exact hes i List.mem_cons_self
    · exact fun i hi => hes i (List.mem_cons_of_mem e hi)

theorem bindContext_eq_false (h : Holds (Silenced g) token c.toSlotStore) (ctx : UtteranceId) :
    (c.bindContext token ctx).2 = false := by
  rw [bindContext]
  split
  · rfl
  · rename_i g' hg'
    rw [if_pos (h.2 g' (live_eq_some.mp hg').1).tombstoned]

theorem heard_eq_none (hwf : c.toSlotStore.Wellformed) (h : Holds (Silenced g) token c.toSlotStore)
    {u : UtteranceId} (hsole : Sole u token c.toSlotStore) : c.heard u = none := by
  rcases hh : c.heard u with _ | ⟨t, g'⟩
  · rfl
  · obtain ⟨hctx, hlive, htomb⟩ := heard_eq_some.mp hh
    obtain ⟨hg', -⟩ := live_eq_some.mp hlive
    obtain ⟨b, hb, hbound⟩ := hwf.bound u t hctx
    obtain rfl : b = g' := Option.some.inj (hb.symm.trans hg')
    obtain rfl := hsole t b hb (hwf.own t b u hb hbound).symm
    rw [(h.2 b hb).tombstoned] at htomb
    cases htomb

/-- **No TTS frame of a tombstoned generation is heard**, while its utterance id is not reused. -/
theorem unheard_run (cfg : LifecycleConfig) {es : List Event} (hwf : c.toSlotStore.Wellformed)
    (hg : c.generations token = some g) (htomb : g.tombstoned = true)
    (hes : Unreused g.identity.utteranceId es) :
    (run (fun c e => (step cfg c e).1) c es).heard g.identity.utteranceId = none := by
  refine heard_eq_none (wellformed_run hwf es) (silenced_run cfg hwf hg htomb es) (sole_run hwf ?_ hes)
  exact fun t g' hg' _ => hwf.eq_of_generations hg hg'

/-! ## The list of retired contexts -/

/-- The step from `s` to `s'` retires a context: a generation with a bound context leaves the slot. -/
def retires (s s' : SlotStore) : Bool :=
  (s.slotToken.bind s.generations).any (·.contextId.isSome) && s'.slotToken.isNone

/-- How many contexts a run retires. -/
def retirements (cfg : LifecycleConfig) : SpeechLifecycleCoordinator → List Event → ℕ
  | _, [] => 0
  | c, e :: es =>
    (if retires c.toSlotStore (step cfg c e).1.toSlotStore then 1 else 0)
      + retirements cfg (step cfg c e).1 es

/-- Fewer than `n` contexts were retired since `ctx` was. -/
def RetiredWithin (n : ℕ) (ctx : UtteranceId) (tombstones : List UtteranceId) : Prop :=
  ∃ since, ctx :: since <:+ tombstones ∧ since.length < n

theorem RetiredWithin.mem {n : ℕ} {ctx : UtteranceId} {tombstones : List UtteranceId}
    (h : RetiredWithin n ctx tombstones) : ctx ∈ tombstones := by
  obtain ⟨since, hsuffix, -⟩ := h
  exact hsuffix.mem List.mem_cons_self

theorem RetiredWithin.drop {n limit : ℕ} {ctx : UtteranceId} {tombstones : List UtteranceId}
    (h : RetiredWithin n ctx tombstones) (hn : n ≤ limit) :
    RetiredWithin n ctx (tombstones.drop (tombstones.length - limit)) := by
  obtain ⟨since, hsuffix, hlen⟩ := h
  refine ⟨since, List.suffix_of_suffix_length_le hsuffix (List.drop_suffix _ _) ?_, hlen⟩
  have hle := hsuffix.length_le
  simp only [List.length_cons, List.length_drop] at hle ⊢
  omega

/-- Retiring a context leaves it the newest. -/
theorem retiredWithin_tombstone (s : SlotStore) {n : ℕ} (ctx : UtteranceId) (hpos : 0 < n)
    (hn : n ≤ cfg.contextTombstoneLimit) : RetiredWithin n ctx (s.tombstone cfg ctx) := by
  rw [SlotStore.tombstone, if_neg (by omega)]
  exact RetiredWithin.drop ⟨[], List.suffix_append _ _, hpos⟩ hn

/-- Retiring another context pushes a retired one back by at most one place. -/
theorem RetiredWithin.tombstone {n : ℕ} {s : SlotStore} {ctx : UtteranceId}
    (h : RetiredWithin n ctx s.contextTombstones) (hn : n + 1 ≤ cfg.contextTombstoneLimit)
    (other : UtteranceId) : RetiredWithin (n + 1) ctx (s.tombstone cfg other) := by
  rcases eq_or_ne other ctx with rfl | hne
  · exact retiredWithin_tombstone s other (Nat.succ_pos n) hn
  · rw [SlotStore.tombstone, if_neg (by omega)]
    refine RetiredWithin.drop ?_ hn
    obtain ⟨since, ⟨older, hold⟩, hlen⟩ := h
    rw [← hold, List.erase_append]
    split_ifs
    · refine ⟨since ++ [other], ⟨older.erase other, by simp⟩, ?_⟩
      simpa using hlen
    · rw [List.erase_cons_tail (by simpa using hne.symm)]
      refine ⟨since.erase other ++ [other], ⟨older, by simp⟩, ?_⟩
      have hle : (since.erase other).length ≤ since.length := List.length_erase_le
      simp only [List.length_append, List.length_singleton]
      omega

/-- The context of a tombstoned generation is bound to it, or was retired with fewer than `n`
contexts since. -/
def Stale (n : ℕ) (ctx : UtteranceId) (s : SlotStore) : Prop :=
  (∃ t g, s.generations t = some g ∧ g.tombstoned = true ∧ g.contextId = some ctx) ∨
    RetiredWithin n ctx s.contextTombstones

theorem Stale.dropStaleFrame {n : ℕ} {ctx : UtteranceId} (hwf : c.toSlotStore.Wellformed)
    (h : Stale n ctx c.toSlotStore) : c.dropStaleFrame ctx = true := by
  rcases h with ⟨t, g, hg, htomb, hctx⟩ | hret
  · simp [SpeechLifecycleCoordinator.dropStaleFrame, hwf.mapped t g ctx hg hctx, hg, htomb]
  · simp [SpeechLifecycleCoordinator.dropStaleFrame, hret.mem]

/-- **A move of the store keeps a stale context stale**, short of closing the connection. -/
theorem Stale.move {n : ℕ} {ctx : UtteranceId} {R : Token → SpeechGeneration → Prop}
    {s s' : SlotStore} (hwf : s.Wellformed) (h : Stale n ctx s) (hm : StoreMove cfg e R s s')
    (he : e ≠ .connectionClosed)
    (hn : n + (if retires s s' then 1 else 0) ≤ cfg.contextTombstoneLimit) :
    Stale (n + if retires s s' then 1 else 0) ctx s' := by
  have hweaken : ∀ {l m}, RetiredWithin n ctx l → RetiredWithin (n + m) ctx l := by
    rintro l m ⟨since, hsuffix, hlen⟩
    exact ⟨since, hsuffix, by omega⟩
  rcases h with ⟨t, g, hg, htomb, hctx⟩ | hret
  · rcases hg' : s'.generations t with _ | g'
    · -- The generation is reaped, and its context retired.
      rcases hm with _ | ⟨b, f, -⟩ | ⟨i, -, hfree⟩ | ⟨b, g, -⟩ | ⟨b, b', hb, -⟩ | hclose
      · exact absurd (hg.symm.trans hg') (by simp)
      · rcases eq_or_ne t b with rfl | hne
        · simp [SlotStore.modify, hg] at hg'
        · simp [SlotStore.modify, hne, hg] at hg'
      · exact absurd ((hwf.occupant t g hg).symm.trans hfree) (by simp)
      · rcases eq_or_ne t b with rfl | hne
        · simp [SlotStore.bind, hg] at hg'
        · simp [SlotStore.bind, hne, hg] at hg'
      · obtain ⟨hb, -⟩ := live_eq_some.mp hb
        obtain rfl := hwf.eq_of_generations hb hg
        obtain rfl : g = b' := Option.some.inj (hg.symm.trans hb)
        have hretires : retires s (s.reap cfg t g) = true := by
          simp [retires, hwf.occupant t g hg, hg, hctx, SlotStore.reap]
        rw [if_pos hretires] at hn ⊢
        right
        simp only [SlotStore.reap, hctx]
        exact retiredWithin_tombstone s ctx (Nat.succ_pos n) hn
      · exact absurd hclose he
    · refine Or.inl ⟨t, g', hg', ?_⟩
      rcases hm.kept hwf hg hg' with hev | ⟨hlive, -⟩
      · exact ⟨hev.tombstoned htomb, hev.contextId.trans hctx⟩
      · rw [htomb] at hlive
        cases hlive
  · right
    rcases hm with _ | _ | _ | _ | ⟨t, g, hg, -⟩ | hclose
    · exact hweaken hret
    · exact hweaken hret
    · exact hweaken hret
    · exact hweaken hret
    · rcases hctx : g.contextId with _ | other
      · simp only [SlotStore.reap, hctx]
        exact hweaken hret
      · obtain ⟨hg, -⟩ := live_eq_some.mp hg
        have hretires : retires s (s.reap cfg t g) = true := by
          simp [retires, hwf.occupant t g hg, hg, hctx, SlotStore.reap]
        rw [if_pos hretires] at hn ⊢
        simp only [SlotStore.reap, hctx]
        exact hret.tombstone hn other
    · exact absurd hclose he

theorem stale_run {n : ℕ} {ctx : UtteranceId} {es : List Event} (hwf : c.toSlotStore.Wellformed)
    (h : Stale n ctx c.toSlotStore) (hes : .connectionClosed ∉ es)
    (hn : n + retirements cfg c es ≤ cfg.contextTombstoneLimit) :
    Stale (n + retirements cfg c es) ctx (run (fun c e => (step cfg c e).1) c es).toSlotStore := by
  induction es generalizing c n with
  | nil => exact h
  | cons e es ih =>
    obtain ⟨he, hes⟩ := List.ne_and_not_mem_of_not_mem_cons hes
    rw [retirements, ← Nat.add_assoc] at hn ⊢
    have hm := step_move cfg c e
    exact ih (hm.wellformed hwf) (h.move hwf hm he.symm (by omega)) hes hn

end Tombstoned

end SpeechLifecycleCoordinator

end SubagentsLab

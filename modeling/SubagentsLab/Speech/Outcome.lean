import SubagentsLab.Speech.Fence

/-!
# Speech/Outcome — what a generation is reported with

A generation is reported with the disposition recorded for it, or as an unknown delivery.  Only an
interruption records any other (`StoreMove.outcome`).  So a generation that was not interrupted and
that the coordinator reaps on its own account is reported as an unknown delivery, in the very step
that reaps it (`reported_of_reaped`).
-/

namespace SubagentsLab

open Machinery

namespace SlotStore

open SpeechLifecycleCoordinator (Event)

variable {cfg : LifecycleConfig} {e : Event} {R : Token → SpeechGeneration → Prop}
  {s s' : SlotStore} {token : Token} {g g' : SpeechGeneration}

theorem StoreMove.identity (hwf : s.Wellformed) (hm : StoreMove cfg e R s s')
    (hg : s.generations token = some g) (hg' : s'.generations token = some g') :
    g'.identity = g.identity := by
  rcases hm.kept hwf hg hg' with hev | ⟨-, rfl⟩
  · exact hev.identity
  · rfl

theorem StoreMove.connectionClosed (hm : StoreMove cfg e R s s') (hclose : e ≠ .connectionClosed) :
    s'.connectionClosed = s.connectionClosed := by
  rcases hm with _ | _ | _ | _ | _ | he
  · rfl
  · rfl
  · rfl
  · rfl
  · rfl
  · exact absurd he hclose

/-- **The outcome of a stored generation changes by an interruption only.** -/
theorem StoreMove.outcome (hwf : s.Wellformed) (hm : StoreMove cfg e R s s')
    (hg : s.generations token = some g) (hg' : s'.generations token = some g') :
    g'.outcome = g.outcome ∨
      (g'.outcome ≠ .deliveryUnknown ∧ ∃ pause, e = .recordInterruption token pause) := by
  rcases hm with _ | ⟨t, f, -, -, hout⟩ | ⟨identity, -, hfree⟩ | ⟨t, b, hb, -, -, -, -, -⟩ |
    ⟨t, b, hb, -⟩ | _
  · exact Or.inl (by rw [Option.some.inj (hg.symm.trans hg')])
  · rcases eq_or_ne token t with rfl | hne
    · obtain rfl : f g = g' := by simpa [SlotStore.modify, hg] using hg'
      exact hout g hg
    · have hsame : s.generations token = some g' := by simpa [SlotStore.modify, hne] using hg'
      exact Or.inl (by rw [Option.some.inj (hg.symm.trans hsame)])
  · exact absurd ((hwf.occupant token g hg).symm.trans hfree) (by simp)
  · rcases eq_or_ne token t with rfl | hne
    · obtain rfl : _ = g' := by simpa [SlotStore.bind, hg] using hg'
      exact Or.inl rfl
    · have hsame : s.generations token = some g' := by simpa [SlotStore.bind, hne] using hg'
      exact Or.inl (by rw [Option.some.inj (hg.symm.trans hsame)])
  · rw [(hwf.reap_empty cfg hb).1 token] at hg'
    cases hg'
  · cases hg'

/-- The generation of an issued token, as long as it is stored, has a known outcome. -/
abbrev Stopped (token : Token) (s : SlotStore) : Prop :=
  Holds (fun g => g.outcome ≠ .deliveryUnknown) token s

theorem Stopped.move (h : Stopped token s) (hwf : s.Wellformed) (hm : StoreMove cfg e R s s') :
    Stopped token s' := by
  refine ⟨Nat.lt_of_lt_of_le h.1 hm.nextToken_le, fun g' hg' => ?_⟩
  rcases hg : s.generations token with _ | g
  · rw [hm.gone h.1 hg] at hg'
    cases hg'
  · rcases hm.outcome hwf hg hg' with heq | ⟨hne, -⟩
    · rw [heq]
      exact h.2 g hg
    · exact hne

end SlotStore

namespace SpeechLifecycleCoordinator

open SlotStore

variable {cfg : LifecycleConfig} {c c' : SpeechLifecycleCoordinator} {token : Token} {e : Event}
  {g : SpeechGeneration}

/-- The store is well formed, a coroutine that terminalizes does so as an unknown delivery, and one
that finalizes an interruption finds its outcome recorded. -/
structure Accountable (c : SpeechLifecycleCoordinator) : Prop where
  wellformed : c.toSlotStore.Wellformed
  unknown : ∀ t ∈ c.transitions, ∀ token d, t.point = .terminalize token d → d = .deliveryUnknown
  stopped : ∀ t ∈ c.transitions, ∀ token, t.point.finalizes token = true →
    Stopped token c.toSlotStore

theorem TransitionPoint.reaps_of_finalizes {point : TransitionPoint}
    (h : point.finalizes token = true) : point.reaps = true := by
  rcases point with _ | _ | _ | _ | _ | _ | _ | _ | _ <;>
    simp_all [TransitionPoint.finalizes, TransitionPoint.reaps]

theorem stopped_recordInterruption (hwf : c.toSlotStore.Wellformed) (hg : c.generations token = some g)
    (pause : Bool) : Stopped token (c.recordInterruption cfg token pause).toSlotStore := by
  have hm := step_move cfg c (.recordInterruption token pause)
  refine ⟨Nat.lt_of_lt_of_le (hwf.issued token (hwf.occupant token g hg)) hm.nextToken_le,
    fun g' hg' => ?_⟩
  have hlive : c.live token = some g := by rw [hwf.live_eq, hg]
  have hout : g'.outcome = if pause then .paused else .interrupted := by
    simp only [recordInterruption, hlive] at hg'
    rcases hctx : g.contextId with _ | _
    all_goals
      obtain rfl : _ = g' := by simpa [hctx, SlotStore.modify, hg] using hg'
      rfl
  change g'.outcome ≠ .deliveryUnknown
  rw [hout]
  split_ifs <;> simp

/-- **Every step leaves the coordinator accountable.** -/
theorem Accountable.step (cfg : LifecycleConfig) (h : c.Accountable) (e : Event) : (step cfg c e).1.Accountable := by
  have hm := step_move cfg c e
  refine ⟨hm.wellformed h.wellformed, fun t ht token d hp => ?_, fun t ht token hf => ?_⟩
  · rcases step_launch ht (by rw [hp]; rfl) with hold | ⟨tok, -⟩ | ⟨tok, g, pause, id, d', hg, -⟩ |
      ⟨t, tok, d', -, -⟩
    · exact h.unknown t hold token d hp
    · cases hp
      rfl
    · cases hp
    · cases hp
  · rcases step_launch ht (TransitionPoint.reaps_of_finalizes hf) with hold | ⟨tok, -⟩ |
      ⟨tok, g, pause, id, d', hg, -⟩ | ⟨t, tok, d', hmem, hp⟩
    · exact (h.stopped t hold token hf).move h.wellformed hm
    · cases hf
    · obtain rfl : tok = token := by simpa [TransitionPoint.finalizes] using hf
      exact stopped_recordInterruption h.wellformed hg pause
    · refine (h.stopped t hmem token ?_).move h.wellformed hm
      simpa [TransitionPoint.finalizes, hp] using hf

/-- Coroutines may end at any time. -/
theorem Accountable.fewer (h : c.Accountable) (hstore : c'.toSlotStore = c.toSlotStore)
    (hsub : ∀ t ∈ c'.transitions, t ∈ c.transitions) : c'.Accountable where
  wellformed := hstore ▸ h.wellformed
  unknown := fun t ht => h.unknown t (hsub t ht)
  stopped := fun t ht token hf => hstore ▸ h.stopped t (hsub t ht) token hf

theorem terminalReported_toSlotStore (cfg : LifecycleConfig) (c : SpeechLifecycleCoordinator) (id : ℕ) (ok : Bool) :
    (c.terminalReported cfg id ok).toSlotStore = c.toSlotStore ∧
      ∀ t ∈ (c.terminalReported cfg id ok).transitions, t ∈ c.transitions := by
  rw [terminalReported]
  split
  · exact ⟨rfl, fun _ ht => ht⟩
  · rename_i t ht
    have hrep : t.point.reporting = true := by
      have := List.find?_some ht
      simp_all
    rcases hp : t.point with _ | _ | _ | _ | _ | _ | _ | _ | ⟨token, teardown⟩ <;>
      rw [hp] at hrep
    case reportingTerminal =>
      rw [afterCallback]
      split_ifs
      all_goals exact ⟨rfl, fun _ ht' => List.mem_of_mem_erase ht'⟩
    all_goals cases hrep

theorem accountable_init : ({} : SpeechLifecycleCoordinator).Accountable :=
  ⟨wellformed_init, by simp, by simp⟩

/-! ## The report -/

/-- `_terminalize` of a live generation without a known outcome reports an unknown delivery. -/
theorem terminalize_report (hlive : c.live token = some g) (hout : g.outcome = .deliveryUnknown)
    {d : DeliveryDisposition} (hd : d = .deliveryUnknown) (me : Coroutine) (teardown : Bool) :
    (c.terminalize cfg me token d teardown).2
      = [.onTerminal me.id token g.identity .deliveryUnknown] := by
  rw [terminalize_of_some hlive, hd]
  exact congrArg (fun d => [Effect.onTerminal me.id token g.identity d]) hout

/-- **What is reaped is reported**, in the same step and as an unknown delivery, unless its outcome
was known, the scheduler releases it or the connection closes. -/
theorem reported_of_reaped (h : c.Accountable) (hg : c.generations token = some g)
    (hout : g.outcome = .deliveryUnknown) (hnone : (step cfg c e).1.generations token = none)
    (hrelease : ∀ t notify d, e ≠ .releaseGeneration t notify d) (hclose : e ≠ .connectionClosed) :
    ∃ id, (step cfg c e).2 = [.onTerminal id token g.identity .deliveryUnknown] := by
  have hlive : c.live token = some g := by rw [h.wellformed.live_eq, hg]
  have hR := ((step_move cfg c e).left h.wellformed hg hnone).resolve_right hclose
  rcases e with _ | _ | _ | _ | _ | _ | _ | _ | _ | ⟨t, notify, d⟩ | _ | t | t | _ | _ | _ | id | ⟨id, ok⟩
  case releaseGeneration => exact absurd rfl (hrelease t notify d)
  case acknowledgeTtsLaneFlush =>
    obtain ⟨rfl, -⟩ := hR
    simp only [step, acknowledgeTtsLaneFlush, hg] at hnone ⊢
    split_ifs at hnone ⊢
    · rw [hg] at hnone
      cases hnone
    · exact ⟨_, terminalize_report (c := c.drawId) hlive hout hout _ false⟩
  case teardownComplete =>
    obtain rfl : t = token := hR
    simp only [step, teardownComplete, hg]
    exact ⟨_, terminalize_report (c := c.drawId) hlive hout hout _ true⟩
  case run =>
    obtain ⟨t, ht, d, hp⟩ := hR
    have hd := h.unknown t (List.mem_of_find?_eq_some ht) token d hp
    simp only [step, ht, hp, TransitionPoint.begun, Bool.false_eq_true, if_false, firstStep]
    exact ⟨_, terminalize_report (c := c.take t) hlive hout hd _ false⟩
  case callbackDone =>
    obtain ⟨t, ht, d, hp⟩ := hR
    have hstopped := h.stopped t (List.mem_of_find?_eq_some ht) token
      (by simp [hp, TransitionPoint.finalizes])
    exact absurd hout (hstopped.2 g hg)
  all_goals exact hR.elim

end SpeechLifecycleCoordinator

end SubagentsLab

import Mathlib.Data.List.Count
import Mathlib.Data.List.Induction
import SubagentsLab.Speech.Slot

/-!
# Speech/Terminal — a generation is reported terminal at most once

A token's **credit** is its stored generation plus the coroutines scheduled to report it.  Admission
gives a fresh token a credit of one, reaping a generation spends it, on the spot or through a
scheduled report, and no other step raises it.  So `on_terminal` is invoked at most once for each
token (`terminalReports_le_one`).
-/

namespace SubagentsLab

open Machinery

/-- The effect is `on_terminal` for `token`. -/
def Effect.reports (token : Token) : Effect → Bool
  | .onTerminal _ t _ _ => t = token
  | _ => false

/-- The coroutine is scheduled to invoke `on_terminal` for `token`. -/
def TransitionPoint.reports (token : Token) : TransitionPoint → Bool
  | .callOnTerminal t _ _ => t = token
  | _ => false

namespace SpeechLifecycleCoordinator

open SlotStore

/-- How often `on_terminal` was invoked for `token`. -/
def terminalReports (out : List Effect) (token : Token) : ℕ := out.countP (·.reports token)

/-- The reports `token` still has coming: its stored generation's, and those scheduled. -/
def credit (c : SpeechLifecycleCoordinator) (token : Token) : ℕ :=
  (c.generations token).toList.length + c.transitions.countP (·.point.reports token)

variable {cfg : LifecycleConfig} {c : SpeechLifecycleCoordinator} {me : Coroutine} {token : Token}

section Simp

variable (c) (t : Token)

@[simp] theorem credit_cancelTimer : (c.cancelTimer token).credit t = c.credit t := rfl

@[simp] theorem credit_arm (due : ℚ) (d : Deadline) : (c.arm token due d).credit t = c.credit t := rfl

@[simp] theorem credit_drawId : c.drawId.credit t = c.credit t := rfl

@[simp] theorem credit_modify (f : SpeechGeneration → SpeechGeneration) :
    (c.modify token f).credit t = c.credit t := by
  have hlen : ((c.modify token f).generations t).toList.length = (c.generations t).toList.length := by
    rcases eq_or_ne t token with rfl | hne
    · rcases hg : c.generations t with _ | g <;> simp [modify, upon, SlotStore.modify, hg]
    · simp [modify, upon, SlotStore.modify, hne]
  rw [credit, hlen]
  rfl

@[simp] theorem credit_suspend (point : TransitionPoint) :
    (c.suspend me point).credit t = c.credit t + if point.reports t then 1 else 0 := by
  simp only [credit, suspend, List.countP_append, List.countP_singleton, Nat.add_assoc]

@[simp] theorem credit_schedule (point : TransitionPoint) :
    (c.schedule point).credit t = c.credit t + if point.reports t then 1 else 0 := by
  simp [schedule]

theorem credit_take_le (tr : Transition) : (c.take tr).credit t ≤ c.credit t :=
  Nat.add_le_add_left List.erase_sublist.countP_le _

/-- Taking up a scheduled report uses it. -/
theorem credit_take_report {tr : Transition} (htr : tr ∈ c.transitions)
    (hrep : tr.point.reports t = true) : (c.take tr).credit t + 1 ≤ c.credit t := by
  have hpos : 0 < c.transitions.countP (·.point.reports t) := List.countP_pos_iff.mpr ⟨tr, htr, hrep⟩
  have herase : (c.transitions.erase tr).countP (·.point.reports t)
      = c.transitions.countP (·.point.reports t) - 1 := by
    simp [List.countP_erase, htr, hrep]
  simp only [credit, take, herase]
  omega

end Simp

/-- The outcome `r` of a step from `c` spends no more than `c` has. -/
def Spends (c : SpeechLifecycleCoordinator) (r : SpeechLifecycleCoordinator × List Effect) : Prop :=
  ∀ t, r.1.credit t + terminalReports r.2 t ≤ c.credit t

theorem Spends.rest (c : SpeechLifecycleCoordinator) : Spends c (c, []) := fun t => by
  simp [terminalReports]

theorem spends_requestTeardown : Spends c (c.requestTeardown me token) := by
  intro t
  rw [requestTeardown]
  split
  · exact Spends.rest c t
  · split_ifs
    · exact Spends.rest c t
    · simp [terminalReports, Effect.reports, TransitionPoint.reports]

theorem spends_beginCleanup : Spends c (c.beginCleanup me token) := by
  intro t
  rw [beginCleanup]
  split
  · exact Spends.rest c t
  · split_ifs
    · exact Spends.rest c t
    · simp [terminalReports, Effect.reports, TransitionPoint.reports]

theorem spends_beginDeliveryUnknown : Spends c (c.beginDeliveryUnknown me token) := by
  intro t
  rw [beginDeliveryUnknown]
  split
  · exact Spends.rest c t
  · exact (spends_beginCleanup t).trans_eq (credit_modify c t _)

theorem spends_endCleanup (ok : Bool) : Spends c (c.endCleanup cfg me token ok) := by
  intro t
  rw [endCleanup]
  split_ifs
  · split
    · exact Spends.rest c t
    · split_ifs
      · exact spends_requestTeardown t
      · simp [terminalReports]
  · exact spends_requestTeardown t

/-- **Reaping spends the credit of the reaped generation.** -/
theorem credit_terminalizeState (cfg : LifecycleConfig) (c : SpeechLifecycleCoordinator)
    (token : Token) (d : DeliveryDisposition) (t : Token) :
    (c.terminalizeState cfg token d).1.credit t
      + (if (c.terminalizeState cfg token d).2.isSome ∧ t = token then 1 else 0) = c.credit t := by
  rw [terminalizeState]
  split
  · simp
  · rename_i g hg
    have hg' := (live_eq_some.mp hg).1
    rcases eq_or_ne t token with rfl | hne
    · simp [credit, upon, cancelTimer, SlotStore.reap, hg']
      omega
    · simp [credit, upon, cancelTimer, SlotStore.reap, hne]

theorem spends_terminalize (d : DeliveryDisposition) (teardown : Bool) :
    Spends c (c.terminalize cfg me token d teardown) := by
  intro t
  have h := credit_terminalizeState cfg c token d t
  rw [terminalize]
  split
  · rename_i c' heq
    rw [heq] at h
    have hcount : (if teardown then { c' with teardownGeneration := c'.teardownGeneration + 1 }
        else c').credit t = c'.credit t := by split_ifs <;> rfl
    simpa [hcount, terminalReports] using Nat.le_of_eq h
  · rename_i c' g heq
    rw [heq] at h
    rcases eq_or_ne t token with rfl | hne
    · simpa [terminalReports, Effect.reports, TransitionPoint.reports] using Nat.le_of_eq h
    · simpa [terminalReports, Effect.reports, TransitionPoint.reports, hne, hne.symm]
        using Nat.le_of_eq h

theorem spends_firstStep (point : TransitionPoint) (hrep : ∀ t, point.reports t = false) :
    Spends c (c.firstStep cfg me point) := by
  rcases point with ⟨d, token⟩ | ⟨token, d⟩ | ⟨token, d⟩ | ⟨token, i, d⟩ | _ | _ | _ | _ | _
  case onTimeout =>
    rcases d with _ | _ | _ | _
    · exact spends_beginDeliveryUnknown
    · exact spends_beginDeliveryUnknown
    · simp only [firstStep]
      split
      · exact Spends.rest c
      · exact spends_beginCleanup
    · exact spends_requestTeardown
  case finalizeUncontextedInterruption =>
    intro t
    simp only [firstStep, finalizeUncontextedInterruption]
    split
    · exact Spends.rest c t
    · simp [terminalReports, Effect.reports, TransitionPoint.reports]
  case terminalize => exact spends_terminalize d false
  case callOnTerminal => simp [TransitionPoint.reports] at hrep
  all_goals exact Spends.rest c

theorem spends_afterCallback (ok : Bool) (point : TransitionPoint) :
    Spends c (c.afterCallback cfg me ok point) := by
  rcases point with _ | _ | _ | _ | _ | token | ⟨token, d⟩ | token | ⟨token, teardown⟩
  case dispatchingCleanup => exact spends_endCleanup ok
  case dispatchingFinalCleanup =>
    simp only [afterCallback]
    split_ifs
    · exact spends_terminalize d false
    · exact spends_requestTeardown
  case reportingTerminal =>
    intro t
    simp only [afterCallback]
    split_ifs <;> exact Spends.rest c t
  all_goals exact Spends.rest c

theorem spends_releaseGeneration (notify : Bool) (d : DeliveryDisposition) :
    Spends c (c.releaseGeneration cfg token notify d, []) := by
  intro t
  have h := credit_terminalizeState cfg c token d t
  rw [releaseGeneration]
  split
  · rename_i c' heq
    rw [heq] at h
    simpa [terminalReports] using Nat.le_of_eq h
  · rename_i c' g heq
    rw [heq] at h
    split_ifs
    · rcases eq_or_ne t token with rfl | hne
      · simpa [terminalReports, TransitionPoint.reports] using Nat.le_of_eq h
      · simpa [terminalReports, TransitionPoint.reports, hne, hne.symm] using Nat.le_of_eq h
    · simp only [terminalReports, List.countP_nil, Nat.add_zero]
      rw [← h]
      exact Nat.le_add_right _ _

theorem spends_run (id : ℕ) : Spends c (step cfg c (.run id)) := by
  intro t
  simp only [step]
  split
  · exact Spends.rest c t
  · rename_i tr htr
    split_ifs
    · exact Spends.rest c t
    · by_cases hrep : ∀ t, tr.point.reports t = false
      · exact (spends_firstStep tr.point hrep t).trans (credit_take_le c t tr)
      · rcases hp : tr.point with _ | _ | _ | ⟨token, i, d⟩ | _ | _ | _ | _ | _
        case callOnTerminal =>
          have htake := credit_take_le c t tr
          rcases eq_or_ne t token with rfl | hne
          · have hused := credit_take_report c t (List.mem_of_find?_eq_some htr) (by simp [hp, TransitionPoint.reports])
            simpa [firstStep, terminalReports, Effect.reports, TransitionPoint.reports] using hused
          · simpa [firstStep, terminalReports, Effect.reports, TransitionPoint.reports, hne.symm]
              using htake
        all_goals simp [hp, TransitionPoint.reports] at hrep

theorem spends_callbackDone (id : ℕ) (ok : Bool) : Spends c (step cfg c (.callbackDone id ok)) := by
  intro t
  simp only [step]
  split
  · exact Spends.rest c t
  · split_ifs
    · exact (spends_afterCallback ok _ t).trans (credit_take_le c t _)
    · exact Spends.rest c t

theorem spends_closeConnection : Spends c (c.closeConnection, []) := by
  intro t
  simp only [terminalReports, List.countP_nil, Nat.add_zero, credit, closeConnection,
    SlotStore.close]
  exact Nat.add_le_add (Nat.zero_le _) List.filter_sublist.countP_le

/-- **No step raises a credit, but for the admission of a fresh token.** -/
theorem step_credit (cfg : LifecycleConfig) (c : SpeechLifecycleCoordinator) (e : Event) (t : Token) :
    (step cfg c e).1.credit t + terminalReports (step cfg c e).2 t
      ≤ c.credit t + if t = c.nextToken ∧ (step cfg c e).1.nextToken = c.nextToken + 1 then 1 else 0 := by
  have hspend : Spends c (step cfg c e) → (step cfg c e).1.credit t
      + terminalReports (step cfg c e).2 t ≤ c.credit t +
        if t = c.nextToken ∧ (step cfg c e).1.nextToken = c.nextToken + 1 then 1 else 0 :=
    fun h => (h t).trans (Nat.le_add_right _ _)
  have hquiet : ∀ c' : SpeechLifecycleCoordinator, (∀ t, c'.credit t = c.credit t) →
      Spends c (c', []) := fun c' h t => by simp [terminalReports, h t]
  rcases e with identity | token | ⟨token, ctx⟩ | ctx | ⟨ctx, n, r, k⟩ | ctx | _ | _ | ⟨token, pause⟩ |
    ⟨token, notify, d⟩ | token | token | token | _ | now | token | id | ⟨id, ok⟩
  case tryAdmit =>
    simp only [step, tryAdmit]
    by_cases hrefuse : (c.connectionClosed || c.slotToken.isSome) = true
    · simp [hrefuse, terminalReports]
    · simp only [if_neg hrefuse]
      rcases eq_or_ne t c.nextToken with rfl | hne
      · simp only [credit, upon, SlotStore.enter, terminalReports, Function.update_self,
          Option.toList_some, List.length_singleton, List.countP_nil, and_self, if_true]
        omega
      · simp [credit, upon, SlotStore.enter, terminalReports, hne]
  case markHandedToTts =>
    refine hspend (hquiet _ fun t => ?_)
    rw [markHandedToTts]
    split
    · rfl
    · split_ifs
      · rfl
      · simp
  case bindContext =>
    refine hspend (hquiet _ fun t => ?_)
    rcases bindContext_cases c token ctx with h | h
    · rw [h]
    · rw [h]
      exact credit_modify c t _
  case onTtsStarted =>
    refine hspend (hquiet _ fun t => ?_)
    rw [onTtsStarted]
    split <;> simp
  case onTtsAudio =>
    refine hspend (hquiet _ fun t => ?_)
    rw [onTtsAudio]
    split <;> simp
  case onTtsStopped =>
    refine hspend (hquiet _ fun t => ?_)
    rw [onTtsStopped]
    split <;> simp
  case onTransportBotStarted =>
    refine hspend (hquiet _ fun t => ?_)
    rw [onTransportBotStarted]
    split <;> simp
  case onTransportBotStopped =>
    refine hspend (hquiet _ fun t => ?_)
    rw [onTransportBotStopped]
    split
    · simp [TransitionPoint.reports]
    · split <;> simp [TransitionPoint.reports]
  case recordInterruption =>
    refine hspend (hquiet _ fun t => ?_)
    rw [recordInterruption]
    split
    · rfl
    · dsimp only
      split <;> simp [TransitionPoint.reports]
  case releaseGeneration => exact hspend (spends_releaseGeneration notify d)
  case providerError =>
    exact hspend fun t => (spends_beginDeliveryUnknown t).trans_eq (credit_drawId c t)
  case acknowledgeTtsLaneFlush =>
    refine hspend fun t => ?_
    simp only [step, acknowledgeTtsLaneFlush]
    split
    · exact Spends.rest c t
    · split_ifs
      · exact Spends.rest c t
      · exact (spends_terminalize _ false t).trans_eq (credit_drawId c t)
  case teardownComplete =>
    refine hspend fun t => ?_
    simp only [step, teardownComplete]
    split
    · exact Spends.rest c t
    · exact (spends_terminalize _ true t).trans_eq (credit_drawId c t)
  case connectionClosed => exact hspend spends_closeConnection
  case tick => exact hspend (hquiet _ fun t => rfl)
  case timerFires =>
    refine hspend (hquiet _ fun t => ?_)
    rw [fireTimer]
    split
    · rfl
    · split_ifs
      · rfl
      · simp [TransitionPoint.reports]
        rfl
  case run => exact hspend (spends_run id)
  case callbackDone => exact hspend (spends_callbackDone id ok)

theorem within_one {t n n' r k r' k' : ℕ} (h : r + k ≤ if t < n then 1 else 0)
    (hstep : k' + r' ≤ k + if t = n ∧ n' = n + 1 then 1 else 0) (hnext : n' = n ∨ n' = n + 1) :
    r + r' + k' ≤ if t < n' then 1 else 0 := by
  split_ifs at h hstep ⊢ <;> omega

/-- Reports made and reports to come, of a whole run. -/
theorem reports_add_credit_le (cfg : LifecycleConfig) (es : List Event) (token : Token) :
    terminalReports (effects cfg es) token + (after cfg es).credit token
      ≤ if token < (after cfg es).nextToken then 1 else 0 := by
  induction es using List.reverseRecOn with
  | nil => simp [effects, outputs, after, credit, terminalReports]
  | append_singleton es e ih =>
    have hafter : after cfg (es ++ [e]) = (step cfg (after cfg es) e).1 := by simp [after]
    have heff : terminalReports (effects cfg (es ++ [e])) token
        = terminalReports (effects cfg es) token
          + terminalReports (step cfg (after cfg es) e).2 token := by
      simp [effects, outputs, after, terminalReports, List.countP_append]
    have hstep := step_credit cfg (after cfg es) e token
    have hnext := nextToken_step cfg (after cfg es) e
    rw [hafter, heff]
    exact within_one ih hstep hnext

/-- **`on_terminal` is invoked at most once for each token.** -/
theorem terminalReports_le_one (cfg : LifecycleConfig) (es : List Event) (token : Token) :
    terminalReports (effects cfg es) token ≤ 1 := by
  have h := reports_add_credit_le cfg es token
  split_ifs at h <;> omega

end SpeechLifecycleCoordinator

end SubagentsLab

import Mathlib.Data.List.Induction
import SubagentsLab.Workers.Accounts

/-!
# Workers/Late — a pending item concludes once

The completion callback of a pending item runs once; it hands the late result on, queues it, or is
stopped by a shutdown.  Only a task that ended with a `BaseException` that is no `Exception` slips
through: the callback lets it out, and the item is never reported (`base_exception_lost`).
-/

namespace SubagentsLab

open Machinery

/-- The task whose late completion a report is about. -/
def WorkReport.late? {α : Type} : WorkReport α → Option ℕ
  | .terminal t _ _ => some t
  | .delivered t _ _ => some t
  | .queued t _ => some t
  | .suppressed t => some t
  | .returned _ _ => none
  | .raised _ _ => none

/-- The reports about the late completion of a task. -/
def lateReports {α : Type} (t : ℕ) (rs : List (WorkReport α)) : List (WorkReport α) :=
  rs.filter fun r => r.late? = some t

namespace WorkItemCoordinator

variable {α : Type} {cfg : CoordinatorConfig} {s s' : WorkItemCoordinator α} {t c : ℕ}
  {es : List (Event α)} {item : SelectedItem} {hooks : LateHooks}

/-! ## What is claimed of a run -/

/-- What became of a late result, at a callback that found the coordinator shut down or not. -/
def Disposes (shutdown : Bool) (t : ℕ) (item : SelectedItem) (hooks : LateHooks)
    (ending : Ending α) : WorkReport α → Prop
  | .delivered u late started =>
    u = t ∧ shutdown = false ∧ ending.lateResult item.workItemId item.workerId = some late ∧
      ∃ callback, hooks.onLateComplete = some callback ∧
        (started.isSome = true ↔ callback = .coroutine)
  | .queued u late =>
    u = t ∧ shutdown = false ∧ ending.lateResult item.workItemId item.workerId = some late ∧
      hooks.onLateComplete = none
  | .suppressed u => u = t ∧ shutdown = true
  | _ => False

/-- **How a pending item stands**: its completion callback is outstanding and nothing is reported,
or it ran once, with one call of `on_late_terminal` and one disposition. -/
inductive Settled (cfg : CoordinatorConfig) (es : List (Event α)) (t : ℕ) (item : SelectedItem)
    (hooks : LateHooks) : Prop
  | outstanding
      (scheduled : (after cfg es).lateQueue t
        = [.lateCompleted item.workItemId item.workerId hooks])
      (unreported : lateReports t (reports cfg es) = [])
  | concluded (es₁ : List (Event α)) (ending : Ending α) (disposition : WorkReport α)
      (ran : es₁ ++ [.callback t] <+: es)
      (drained : (after cfg es).lateQueue t = [])
      (ended : (after cfg es).ended t = some ending)
      (disposes : Disposes (after cfg es₁).shutdown t item hooks ending disposition)
      (reported : lateReports t (reports cfg es)
        = terminalReports t item.workItemId ending hooks ++ [disposition])

/-- **No work item is lost or reported twice**, in a run and after it. -/
structure Conserved (cfg : CoordinatorConfig) (es : List (Event α)) : Prop where
  /-- A call that nobody cancelled hands back an outcome. -/
  returns : ∀ c call, (after cfg es).calls c = some call → call.phase = .settling →
    call.cancelRequested = false →
      ∃ outcome, (step cfg (after cfg es) (.resume c)).2 = [.returned c outcome]
  /-- An outcome places every item once. -/
  accounted : ∀ es₀ c call outcome, es₀ ++ [.resume c] <+: es →
    (after cfg es₀).calls c = some call →
    .returned c outcome ∈ (step cfg (after cfg es₀) (.resume c)).2 →
      ∃ places, outcome.Accounts (after cfg es₀).ended call.slots places
  /-- A pending item concludes once. -/
  settled : ∀ es₀ c call outcome, es₀ ++ [.resume c] <+: es →
    (after cfg es₀).calls c = some call →
    .returned c outcome ∈ (step cfg (after cfg es₀) (.resume c)).2 →
    (call.slots.map (·.item.workItemId)).Nodup →
      ∀ item t, ⟨item, some t⟩ ∈ call.slots → item.workItemId ∈ outcome.pendingWorkItemIds →
        Settled cfg es t item call.hooks
  /-- The callbacks of a task that ended are run. -/
  drains : ∀ t, (after cfg es).ended t ≠ none →
    (after cfg (es ++ List.replicate ((after cfg es).callbacks t).length (.callback t))).callbacks t
      = []
  /-- A mandatory task is refused only by a shutdown. -/
  mandatoryAdmitted : (after cfg es).shutdown = false →
    ((after cfg es).startTask cfg (.started true) true).1.isSome = true
  /-- The budget counts exactly what was not admitted as mandatory. -/
  mandatoryExempt : (after cfg es).ownedTasks \ (after cfg es).mandatoryTasks
    = (after cfg es).ownedTasks.filter fun t => (after cfg es).origin t ≠ some (.started true)

/-- A completion callback that runs before a shutdown finds a value, a cancellation or an
`Exception`. -/
def Catches (s : WorkItemCoordinator α) : Event α → Prop
  | .callback t =>
    match s.shutdown, s.ended t, s.callbacks t with
    | false, some (.raised exc), .lateCompleted _ _ _ :: _ => exc.isException = true
    | _, _, _ => True
  | _ => True

instance (s : WorkItemCoordinator α) : (e : Event α) → Decidable (s.Catches e)
  | .callback t =>
    match h₁ : s.shutdown, h₂ : s.ended t, h₃ : s.callbacks t with
    | false, some (.raised exc), .lateCompleted _ _ _ :: _ =>
      decidable_of_iff (exc.isException = true) (by simp [Catches, h₁, h₂, h₃])
    | true, _, _ => isTrue (by simp [Catches, h₁])
    | false, none, _ => isTrue (by simp [Catches, h₂])
    | false, some (.value _), _ => isTrue (by simp [Catches, h₂])
    | false, some .cancelled, _ => isTrue (by simp [Catches, h₂])
    | false, some (.raised _), [] => isTrue (by simp [Catches, h₃])
    | false, some (.raised _), .discardOwned :: _ => isTrue (by simp [Catches, h₃])
    | false, some (.raised _), .discardMandatory :: _ => isTrue (by simp [Catches, h₃])
    | false, some (.raised _), .discardCancelling :: _ => isTrue (by simp [Catches, h₃])
    | false, some (.raised _), .discardSubmit :: _ => isTrue (by simp [Catches, h₃])
    | false, some (.raised _), .workTaskCleanup _ :: _ => isTrue (by simp [Catches, h₃])
    | false, some (.raised _), .callbackCompleted :: _ => isTrue (by simp [Catches, h₃])
  | .submit _ _ _ _ | .waited _ | .resume _ | .gathered _ | .cancelCall _ | .startTask _
  | .createTask | .retainLateTask _ _ _ _ | .finish _ _ | .drainLateResults | .shutdown
  | .shutdownOver => isTrue trivial

/-! ## What a step adds -/

/-- Tasks stay what they are and as they ended; a call under way was so before, or is new and has
new tasks. -/
structure Grows (s s' : WorkItemCoordinator α) : Prop where
  nextTask_le : s.nextTask ≤ s'.nextTask
  origin_eq : ∀ t < s.nextTask, s'.origin t = s.origin t
  ended_eq : ∀ t ending, s.ended t = some ending → s'.ended t = some ending
  nextCall_le : s.nextCall ≤ s'.nextCall
  calls : ∀ c call', s'.calls c = some call' →
    (∃ call, s.calls c = some call ∧ call'.tasks = call.tasks) ∨
      (c = s.nextCall ∧ ∀ t ∈ call'.tasks, s.nextTask ≤ t)

theorem Carries.grows {extra : ℕ → List DoneCallback} (h : Carries extra s s') : s.Grows s' where
  nextTask_le := h.nextTask_le
  origin_eq := h.origin_eq
  ended_eq := fun t ending ht => by rwa [h.ended_eq]
  nextCall_le := Nat.le_of_eq h.nextCall_eq.symm
  calls := fun c call' hc => Or.inl ⟨call', h.calls_eq ▸ hc, rfl⟩

theorem Grows.refl (s : WorkItemCoordinator α) : s.Grows s := (Keeps.refl s).grows

/-- Calls moved on or are over, and nothing else happened to the tasks. -/
theorem Grows.of_calls (hnext : s'.nextTask = s.nextTask) (horigin : s'.origin = s.origin)
    (hended : s'.ended = s.ended) (hnextCall : s'.nextCall = s.nextCall)
    (hcalls : ∀ c call', s'.calls c = some call' →
      ∃ call, s.calls c = some call ∧ call'.tasks = call.tasks) : s.Grows s' where
  nextTask_le := Nat.le_of_eq hnext.symm
  origin_eq := fun t _ => congrFun horigin t
  ended_eq := fun t ending ht => by rwa [hended]
  nextCall_le := Nat.le_of_eq hnextCall.symm
  calls := fun c call' hc => Or.inl (hcalls c call' hc)

theorem Grows.endCall (h : s.Grows s') (c : ℕ) : s.Grows (s'.endCall c) where
  nextTask_le := h.nextTask_le
  origin_eq := h.origin_eq
  ended_eq := h.ended_eq
  nextCall_le := h.nextCall_le
  calls := by
    intro d call' hd
    dsimp only [WorkItemCoordinator.endCall] at hd
    rcases eq_or_ne d c with rfl | hne
    · simp at hd
    · rw [Function.update_of_ne hne] at hd
      exact h.calls d call' hd

theorem Grows.setCall {call call' : SubmitCall} (hc : s.calls c = some call)
    (htasks : call'.tasks = call.tasks) :
    s.Grows { s with calls := Function.update s.calls c (some call') } := by
  refine .of_calls rfl rfl rfl rfl fun d e hd => ?_
  dsimp only at hd
  rcases eq_or_ne d c with rfl | hne
  · rw [Function.update_self] at hd
    exact ⟨call, hc, Option.some.inj hd ▸ htasks⟩
  · rw [Function.update_of_ne hne] at hd
    exact ⟨e, hd, rfl⟩

theorem grows_submit (h : s.Booked) (turnId : String) (items : List (String × String))
    (workItemIds : Option (List String)) (hooks : LateHooks) :
    s.Grows (s.submit cfg turnId items workItemIds hooks).1 := by
  have hnumbered : s.Grows { s with nextCall := s.nextCall + 1 } :=
    ⟨Nat.le_refl _, fun _ _ => rfl, fun _ _ ht => ht, Nat.le_succ _,
      fun _ call hc => Or.inl ⟨call, hc, rfl⟩⟩
  simp only [WorkItemCoordinator.submit]
  split_ifs
  · exact hnumbered
  · split
    · exact hnumbered
    · rename_i selected _
      have hlaunch := launched_startItems cfg s.nextCall selected
        (s := { s with nextCall := s.nextCall + 1 })
        (h.of_grown rfl rfl rfl rfl fun _ => Or.inl rfl)
      generalize startItems cfg s.nextCall { s with nextCall := s.nextCall + 1 } selected = started
        at hlaunch
      obtain ⟨slots, s₁⟩ := started
      refine ⟨hlaunch.keeps.nextTask_le, hlaunch.keeps.origin_eq, fun t ending ht => ?_, ?_, ?_⟩
      · exact (congrFun hlaunch.keeps.ended_eq t).trans ht
      · exact Nat.le_trans (Nat.le_succ _) (Nat.le_of_eq hlaunch.keeps.nextCall_eq.symm)
      · intro d call' hd
        dsimp only at hd
        rcases eq_or_ne d s.nextCall with rfl | hne
        · rw [Function.update_self] at hd
          exact Or.inr ⟨rfl, Option.some.inj hd ▸ hlaunch.fresh⟩
        · rw [Function.update_of_ne hne, hlaunch.keeps.calls_eq] at hd
          exact Or.inl ⟨call', hd, rfl⟩

variable (cfg) in
theorem grows_settle (h : s.Booked) {call : SubmitCall} (hc : s.calls c = some call) :
    s.Grows (s.settle cfg call).2 :=
  (retainAll_spec cfg call.hooks (call.slots.filterMap (unfinished s.ended)) h.toBudgeted
    fun x hx => h.items c call hc x.2 (mem_tasks_of_unfinished hx)).2.2.grows

variable (cfg) in
theorem grows_step (h : s.Booked) (e : Event α) : s.Grows (step cfg s e).1 := by
  rcases e with ⟨turn, items, ids, hooks⟩ | d | d | d | d | mandatory | _ | ⟨u, id, worker, hooks⟩ |
    ⟨u, ending⟩ | u | _ | _ | _ <;> simp only [step]
  · exact grows_submit h turn items ids hooks
  · split
    · rename_i call hd
      split_ifs
      · exact .setCall hd rfl
      · exact .setCall hd rfl
      · exact .refl s
    · exact .refl s
  · split
    · rename_i call hd
      split_ifs
      · exact (Grows.refl s).endCall d
      · exact (grows_settle cfg h hd).endCall d
      · exact .refl s
    · exact .refl s
  · split
    · split_ifs
      · exact (Grows.refl s).endCall d
      · exact .refl s
    · exact .refl s
  · split
    · rename_i call hd
      exact .setCall hd rfl
    · exact .refl s
  · exact (keeps_startTask cfg s _ mandatory).grows
  · exact (keeps_createTask s _).grows
  · split_ifs
    · exact (carries_retainLateTask cfg s u id worker hooks).grows
    · exact .refl s
  · split_ifs with hu
    · refine ⟨Nat.le_refl _, fun _ _ => rfl, fun t x ht => ?_, Nat.le_refl _,
        fun _ call hd => Or.inl ⟨call, hd, rfl⟩⟩
      have hne : t ≠ u := by
        rintro rfl
        rw [hu.2] at ht
        cases ht
      exact (Function.update_of_ne hne _ _).trans ht
    · exact .refl s
  · split
    · rename_i ending cb rest hended hqueue
      have hkeeps := keeps_runCallback cfg
        { s with callbacks := Function.update s.callbacks u rest } u ending cb
      exact ⟨hkeeps.nextTask_le, hkeeps.origin_eq,
        fun t x ht => (congrFun hkeeps.ended_eq t).trans ht, Nat.le_of_eq hkeeps.nextCall_eq.symm,
        fun d call hd => Or.inl ⟨call, (congrFun hkeeps.calls_eq d).symm.trans hd, rfl⟩⟩
    · exact .refl s
  · exact .of_calls rfl rfl rfl rfl fun _ call hd => ⟨call, hd, rfl⟩
  · refine .of_calls rfl rfl rfl rfl fun d call' hd => ?_
    obtain ⟨call, hcall, rfl⟩ := Option.map_eq_some_iff.mp hd
    exact ⟨call, hcall, rfl⟩
  · split_ifs
    · exact .of_calls rfl rfl rfl rfl fun _ call hd => ⟨call, hd, rfl⟩
    · exact .refl s

/-! ## Who reports -/

theorem late?_deliver (cfg : CoordinatorConfig) (s : WorkItemCoordinator α) (t : ℕ)
    (late : LateResult α) (hooks : LateHooks) : (s.deliver cfg t late hooks).2.late? = some t := by
  simp only [deliver]
  split
  · rfl
  · rfl
  · split <;> rfl

/-- A completion callback reports about its own task. -/
theorem late?_completed {ending : Ending α} {workItemId workerId : String} {r : WorkReport α}
    (hr : r ∈ (s.completed cfg t ending workItemId workerId hooks).2) : r.late? = some t := by
  have hterminal : ∀ r ∈ terminalReports t workItemId ending hooks, r.late? = some t := by
    intro r hr
    simp only [terminalReports] at hr
    split_ifs at hr
    · rw [List.mem_singleton.mp hr]
      rfl
    · cases hr
  simp only [completed] at hr
  split_ifs at hr
  · rcases List.mem_append.mp hr with hr | hr
    · exact hterminal r hr
    · rw [List.mem_singleton.mp hr]
      rfl
  · split at hr
    · exact hterminal r hr
    · rcases List.mem_append.mp hr with hr | hr
      · exact hterminal r hr
      · rw [List.mem_singleton.mp hr]
        exact late?_deliver cfg _ t _ hooks

theorem late_submit (h : s.Booked) (turnId : String) (items : List (String × String))
    (workItemIds : Option (List String)) (hooks : LateHooks) (t : ℕ) :
    lateReports t (s.submit cfg turnId items workItemIds hooks).2 = [] ∧
      ∀ c, s.origin t = some (.item c) → s.calls c = none →
        (s.submit cfg turnId items workItemIds hooks).1.lateQueue t = s.lateQueue t := by
  simp only [submit]
  split_ifs
  · exact ⟨rfl, fun _ _ _ => rfl⟩
  · split
    · exact ⟨rfl, fun _ _ _ => rfl⟩
    · rename_i selected _
      have hlaunch := launched_startItems cfg s.nextCall selected
        (s := { s with nextCall := s.nextCall + 1 })
        (h.of_grown rfl rfl rfl rfl fun _ => Or.inl rfl)
      exact ⟨rfl, fun _ _ _ => (hlaunch.keeps.lateQueue_eq t).trans (List.append_nil _)⟩

/-- A call retains its own tasks only. -/
theorem lateQueue_settle_of_over (h : s.Booked) {d : ℕ} {call : SubmitCall}
    (hd : s.calls d = some call) (ho : s.origin t = some (.item c)) (hc : s.calls c = none) :
    (s.settle cfg call).2.lateQueue t = s.lateQueue t := by
  obtain ⟨hfst, -, hcarries⟩ := retainAll_spec cfg call.hooks
    (call.slots.filterMap (unfinished s.ended)) h.toBudgeted
    fun x hx => h.items d call hd x.2 (mem_tasks_of_unfinished hx)
  refine (hcarries.lateQueue_eq t).trans ?_
  have hnone : retained call.hooks
      (retainAll cfg call.hooks s (call.slots.filterMap (unfinished s.ended))).1 t = [] := by
    refine List.filterMap_eq_nil_iff.mpr fun v hv => if_neg ?_
    rintro ⟨rfl, -⟩
    have hx := h.items d call hd v.1.2 (mem_tasks_of_unfinished (hfst ▸ List.mem_map_of_mem hv))
    rw [ho, Option.some.injEq, Origin.item.injEq] at hx
    rw [← hx, hc] at hd
    cases hd
  rw [hnone, List.append_nil]

theorem late_callback_of_not_late {cb : DoneCallback} {rest : List DoneCallback}
    (hqueue : s.callbacks t = cb :: rest) (hcb : cb.isLate = false) (ending : Ending α) :
    lateReports t ({ s with callbacks := Function.update s.callbacks t rest }.runCallback cfg t
        ending cb).2 = [] ∧
      ∀ c, s.origin t = some (.item c) → s.calls c = none →
        ({ s with callbacks := Function.update s.callbacks t rest }.runCallback cfg t ending
          cb).1.lateQueue t = s.lateQueue t := by
  constructor
  · rcases cb with _ | _ | _ | _ | id | ⟨id, worker, hooks⟩ | _
    all_goals first | rfl | cases hcb
  · intro _ _ _
    rw [(keeps_runCallback cfg _ t ending cb).lateQueue_eq, List.append_nil]
    simp [lateQueue, hqueue, hcb]

theorem late_callback_of_ne {u : ℕ} (hne : t ≠ u) (ending : Ending α) (cb : DoneCallback)
    (rest : List DoneCallback) :
    lateReports t ({ s with callbacks := Function.update s.callbacks u rest }.runCallback cfg u
        ending cb).2 = [] ∧
      ∀ c, s.origin t = some (.item c) → s.calls c = none →
        ({ s with callbacks := Function.update s.callbacks u rest }.runCallback cfg u ending
          cb).1.lateQueue t = s.lateQueue t := by
  constructor
  · rcases cb with _ | _ | _ | _ | id | ⟨id, worker, hooks⟩ | _
    case lateCompleted =>
      refine List.filter_eq_nil_iff.mpr fun r hr => ?_
      simp [late?_completed hr, hne.symm]
    all_goals rfl
  · intro _ _ _
    rw [(keeps_runCallback cfg _ u ending cb).lateQueue_eq, List.append_nil]
    simp [lateQueue, hne]

variable (cfg) in
/-- **Only the completion callback of a task reports its late completion**, and only `retain_late_task`
gives it one: to a task whose call is over neither happens otherwise. -/
theorem step_late (h : s.Booked) (e : Event α) (t : ℕ) :
    (∃ ending workItemId workerId hooks rest, e = .callback t ∧ s.ended t = some ending ∧
        s.callbacks t = .lateCompleted workItemId workerId hooks :: rest ∧
        (step cfg s e).1.lateQueue t = rest.filter DoneCallback.isLate ∧
        (step cfg s e).2 = ({ s with callbacks := Function.update s.callbacks t rest }.completed cfg t
          ending workItemId workerId hooks).2) ∨
      (lateReports t (step cfg s e).2 = [] ∧
        ∀ c, s.origin t = some (.item c) → s.calls c = none →
          (step cfg s e).1.lateQueue t = s.lateQueue t) := by
  rcases e with ⟨turn, items, ids, hooks⟩ | d | d | d | d | mandatory | _ | ⟨u, id, worker, hooks⟩ |
    ⟨u, ending⟩ | u | _ | _ | _ <;> simp only [step]
  · exact Or.inr (late_submit h turn items ids hooks t)
  · refine Or.inr ?_
    split
    · split_ifs <;> exact ⟨rfl, fun _ _ _ => rfl⟩
    · exact ⟨rfl, fun _ _ _ => rfl⟩
  · refine Or.inr ?_
    split
    · rename_i call hd
      split_ifs
      · exact ⟨rfl, fun _ _ _ => rfl⟩
      · exact ⟨rfl, fun c ho hc => lateQueue_settle_of_over h hd ho hc⟩
      · exact ⟨rfl, fun _ _ _ => rfl⟩
    · exact ⟨rfl, fun _ _ _ => rfl⟩
  · refine Or.inr ?_
    split
    · split_ifs <;> exact ⟨rfl, fun _ _ _ => rfl⟩
    · exact ⟨rfl, fun _ _ _ => rfl⟩
  · refine Or.inr ?_
    split <;> exact ⟨rfl, fun _ _ _ => rfl⟩
  · refine Or.inr ⟨rfl, fun _ _ _ => ?_⟩
    rw [(keeps_startTask cfg s _ mandatory).lateQueue_eq, List.append_nil]
  · exact Or.inr ⟨rfl, fun _ _ _ => rfl⟩
  · refine Or.inr ?_
    split_ifs with ho
    · refine ⟨rfl, fun c hc _ => ?_⟩
      have hne : t ≠ u := by
        rintro rfl
        rcases ho with ho | ho <;> simp [ho] at hc
      rw [(carries_retainLateTask cfg s u id worker hooks).lateQueue_eq]
      simp [hne]
    · exact ⟨rfl, fun _ _ _ => rfl⟩
  · refine Or.inr ?_
    split_ifs <;> exact ⟨rfl, fun _ _ _ => rfl⟩
  · split
    · rename_i ending cb rest hended hqueue
      rcases eq_or_ne t u with rfl | hne
      · rcases hlate : cb.isLate with _ | _
        · exact Or.inr (late_callback_of_not_late hqueue hlate ending)
        · obtain ⟨id, worker, hooks, rfl⟩ := DoneCallback.exists_of_isLate hlate
          refine Or.inl ⟨ending, id, worker, hooks, rest, rfl, hended, hqueue, ?_, rfl⟩
          simp only [runCallback]
          rw [(keeps_completed cfg _ t ending id worker hooks).lateQueue_eq, List.append_nil]
          simp [lateQueue]
      · exact Or.inr (late_callback_of_ne hne ending cb rest)
    · exact Or.inr ⟨rfl, fun _ _ _ => rfl⟩
  · exact Or.inr ⟨rfl, fun _ _ _ => rfl⟩
  · exact Or.inr ⟨rfl, fun _ _ _ => rfl⟩
  · refine Or.inr ?_
    split_ifs <;> exact ⟨rfl, fun _ _ _ => rfl⟩

/-! ## Whole runs -/

theorem lateReports_concat (t : ℕ) (es : List (Event α)) (e : Event α) :
    lateReports t (reports cfg (es ++ [e]))
      = lateReports t (reports cfg es) ++ lateReports t (step cfg (after cfg es) e).2 := by
  simp [lateReports, List.filter_append]

/-- **Nothing is reported of a task that is not retained yet**: it is not made yet, or its call is
under way. -/
theorem lateReports_eq_nil (es : List (Event α)) (t : ℕ)
    (h : (after cfg es).nextTask ≤ t ∨
      ∃ c call, (after cfg es).calls c = some call ∧ t ∈ call.tasks) :
    lateReports t (reports cfg es) = [] := by
  induction es using List.reverseRecOn with
  | nil => rfl
  | append_singleton es e ih =>
    have hbooked := booked_after cfg es
    have hgrows := grows_step cfg hbooked e
    rw [after_concat] at h
    have hearly : (after cfg es).nextTask ≤ t ∨
        ∃ c call, (after cfg es).calls c = some call ∧ t ∈ call.tasks := by
      rcases h with hge | ⟨c, call', hc, ht⟩
      · exact Or.inl (Nat.le_trans hgrows.nextTask_le hge)
      · rcases hgrows.calls c call' hc with ⟨call, hcall, htasks⟩ | ⟨-, hnew⟩
        · exact Or.inr ⟨c, call, hcall, htasks ▸ ht⟩
        · exact Or.inl (hnew t ht)
    have hidle : (after cfg es).lateQueue t = [] := by
      rcases hearly with hge | ⟨c, call, hc, ht⟩
      · simp [lateQueue, (hbooked.unborn t hge).2.2.1]
      · exact hbooked.unretained c call hc t ht
    rw [lateReports_concat, ih hearly, List.nil_append]
    rcases step_late cfg hbooked e t with ⟨_, _, _, _, _, _, _, hqueue, _⟩ | ⟨hquiet, -⟩
    · simp [lateQueue, hqueue, DoneCallback.isLate] at hidle
    · exact hquiet

/-- A pending item, tracked along a run: its call is over, and it stands as `Settled` says. -/
structure Tracked (cfg : CoordinatorConfig) (es : List (Event α)) (c t : ℕ) (item : SelectedItem)
    (hooks : LateHooks) : Prop where
  origin_eq : (after cfg es).origin t = some (.item c)
  called : c < (after cfg es).nextCall
  ended : (after cfg es).calls c = none
  settled : Settled cfg es t item hooks

variable (cfg) in
/-- **An open coordinator hands a late result on or queues it**, and starts the coroutine. -/
theorem disposes_deliver (h : s.Budgeted) (hopen : s.shutdown = false) {ending : Ending α}
    {late : LateResult α} (hlate : ending.lateResult item.workItemId item.workerId = some late) :
    Disposes s.shutdown t item hooks ending (s.deliver cfg t late hooks).2 := by
  simp only [deliver]
  split
  · rename_i hnone
    exact ⟨rfl, hopen, hlate, hnone⟩
  · rename_i hplain
    exact ⟨rfl, hopen, hlate, .plain, hplain, by simp⟩
  · rename_i hcoroutine
    have hstart := startTask_mandatory h cfg hopen
    split
    · exact ⟨rfl, hopen, hlate, .coroutine, hcoroutine, by simp⟩
    · rename_i heq
      rw [heq] at hstart
      cases hstart

variable (hooks) in
/-- **What a completion callback reports**: the call of `on_late_terminal`, and one disposition. -/
theorem completed_reports (cfg : CoordinatorConfig) (h : s.Budgeted) {ending : Ending α}
    (hcatches : s.shutdown = false →
      ending.lateResult item.workItemId item.workerId ≠ none) :
    ∃ disposition, Disposes s.shutdown t item hooks ending disposition ∧
      (s.completed cfg t ending item.workItemId item.workerId hooks).2
        = terminalReports t item.workItemId ending hooks ++ [disposition] := by
  have hdiscard : Budgeted { s with
      lateTasks := s.lateTasks.erase t
      backgroundTaskOrder := s.backgroundTaskOrder.erase t } :=
    h.of_grown rfl rfl rfl rfl fun _ => Or.inl rfl
  simp only [completed]
  split_ifs with hshut
  · exact ⟨.suppressed t, ⟨rfl, hshut⟩, rfl⟩
  · split
    · rename_i hnone
      exact absurd hnone (hcatches (by simpa using hshut))
    · rename_i late hlate
      exact ⟨_, disposes_deliver cfg hdiscard (by simpa using hshut) hlate, rfl⟩

/-- A callback that catches what its task raised has a late result. -/
theorem Catches.lateResult {ending : Ending α} {workItemId workerId : String}
    {rest : List DoneCallback} (h : s.Catches (.callback t)) (hended : s.ended t = some ending)
    (hqueue : s.callbacks t = .lateCompleted workItemId workerId hooks :: rest)
    (hopen : s.shutdown = false) : ending.lateResult workItemId workerId ≠ none := by
  rcases ending with v | exc | _
  · simp [Ending.lateResult]
  · have hexc : exc.isException = true := by simpa [Catches, hopen, hended, hqueue] using h
    simp [Ending.lateResult, hexc]
  · simp [Ending.lateResult]

/-- **One step of a tracked item.** -/
theorem Tracked.step (h : Tracked cfg es c t item hooks) {e : Event α}
    (he : (after cfg es).Catches e) : Tracked cfg (es ++ [e]) c t item hooks := by
  have hbooked := booked_after cfg es
  have hgrows := grows_step cfg hbooked e
  have ht : t < (after cfg es).nextTask := hbooked.lt_nextTask (by simp [h.origin_eq])
  refine ⟨?_, ?_, ?_, ?_⟩
  · rw [after_concat, hgrows.origin_eq t ht, h.origin_eq]
  · exact Nat.lt_of_lt_of_le h.called (by simpa using hgrows.nextCall_le)
  · rw [after_concat, Option.eq_none_iff_forall_ne_some]
    intro call' hc
    rcases hgrows.calls c call' hc with ⟨call, hcall, -⟩ | ⟨hc', -⟩
    · rw [h.ended] at hcall
      cases hcall
    · exact absurd h.called (by rw [hc']; exact Nat.lt_irrefl _)
  rcases step_late cfg hbooked e t with
    ⟨ending, id, worker, hk, rest, rfl, hended, hqueue, hlate, hout⟩ | ⟨hquiet, hkept⟩
  · have hself : (after cfg es).lateQueue t
        = .lateCompleted id worker hk :: rest.filter DoneCallback.isLate := by
      rw [lateQueue, hqueue]
      rfl
    rcases h.settled with ⟨hsched, hunrep⟩ | ⟨es₁, x, d, hran, hover, hx, hd, hrep⟩
    · -- the callback outstanding is the one that runs
      rw [hself, List.cons.injEq, DoneCallback.lateCompleted.injEq] at hsched
      obtain ⟨⟨rfl, rfl, rfl⟩, hrest⟩ := hsched
      have hpopped : Budgeted { after cfg es with
          callbacks := Function.update (after cfg es).callbacks t rest } :=
        hbooked.popped hqueue (by simp)
      obtain ⟨d, hd, hreports⟩ := completed_reports (t := t) hk cfg hpopped
        fun hopen => he.lateResult hended hqueue hopen
      refine .concluded es ending d (List.prefix_refl _) ?_ ?_ hd ?_
      · rw [after_concat, hlate, hrest]
      · rw [after_concat]
        exact hgrows.ended_eq t ending hended
      · rw [lateReports_concat, hunrep, List.nil_append, hout, ← hreports]
        exact List.filter_eq_self.mpr fun r hr => by simp [late?_completed hr]
    · rw [hself] at hover
      cases hover
  · have hsame := hkept c h.origin_eq h.ended
    rcases h.settled with ⟨hsched, hunrep⟩ | ⟨es₁, x, d, hran, hover, hx, hd, hrep⟩
    · refine .outstanding ?_ ?_
      · rw [after_concat, hsame, hsched]
      · rw [lateReports_concat, hunrep, hquiet, List.append_nil]
    · refine .concluded es₁ x d (hran.trans (List.prefix_append _ _)) ?_ ?_ hd ?_
      · rw [after_concat, hsame, hover]
      · rw [after_concat]
        exact hgrows.ended_eq t x hx
      · rw [lateReports_concat, hrep, hquiet, List.append_nil]

theorem Tracked.run (h : Tracked cfg es c t item hooks) {rest : List (Event α)}
    (hg : Guarded (fun s e => (WorkItemCoordinator.step cfg s e).1) Catches (after cfg es) rest) :
    Tracked cfg (es ++ rest) c t item hooks := by
  induction rest generalizing es with
  | nil => rwa [List.append_nil]
  | cons e rest ih =>
    rw [List.append_cons]
    exact ih (h.step hg.1) (by rw [after_concat]; exact hg.2)

/-- What a call that resumes hands back. -/
theorem resume_returned {call : SubmitCall} {outcome : SubmittedOutcome α}
    (hc : s.calls c = some call) (hout : .returned c outcome ∈ (step cfg s (.resume c)).2) :
    outcome = (s.settle cfg call).1 ∧
      (step cfg s (.resume c)).1 = (s.settle cfg call).2.endCall c := by
  simp only [step, hc] at hout ⊢
  split_ifs at hout ⊢
  · simp at hout
  · exact ⟨by simpa using hout, rfl⟩
  · simp at hout

/-- **A pending item is tracked from the moment its call hands it back.** -/
theorem tracked_resume {call : SubmitCall} {outcome : SubmittedOutcome α}
    (hc : (after cfg es).calls c = some call)
    (hout : .returned c outcome ∈ (WorkItemCoordinator.step cfg (after cfg es) (.resume c)).2)
    (hdistinct : (call.slots.map (·.item.workItemId)).Nodup) (hslot : ⟨item, some t⟩ ∈ call.slots)
    (hpending : item.workItemId ∈ outcome.pendingWorkItemIds) :
    Tracked cfg (es ++ [.resume c]) c t item call.hooks := by
  have hbooked := booked_after cfg es
  have ht : t ∈ call.tasks := List.mem_filterMap.mpr ⟨_, hslot, rfl⟩
  have ho := hbooked.items c call hc t ht
  have hgrows := grows_settle cfg hbooked hc
  obtain ⟨rfl, hstep⟩ := resume_returned hc hout
  have hquiet : lateReports t (WorkItemCoordinator.step cfg (after cfg es) (.resume c)).2 = [] := by
    rcases step_late cfg hbooked (.resume c) t with ⟨_, _, _, _, _, he, _⟩ | ⟨hquiet, -⟩
    · cases he
    · exact hquiet
  refine ⟨?_, ?_, ?_, .outstanding ?_ ?_⟩
  · rw [after_concat, hstep]
    exact (hgrows.origin_eq t (hbooked.lt_nextTask (by simp [ho]))).trans ho
  · rw [after_concat, hstep]
    exact Nat.lt_of_lt_of_le (hbooked.called c call hc) hgrows.nextCall_le
  · rw [after_concat, hstep]
    exact Function.update_self _ _ _
  · rw [after_concat, hstep]
    exact lateQueue_settle hbooked hc hdistinct hslot hpending
  · rw [lateReports_concat, hquiet, lateReports_eq_nil es t (Or.inr ⟨c, call, hc, ht⟩)]
    rfl

/-! ## The loop runs what it owes -/

theorem callbacks_adoptTask {u : ℕ} (hu : u ≠ t) (force : Bool) :
    (s.adoptTask cfg t force).2.callbacks u = s.callbacks u := by
  simp only [adoptTask]
  split_ifs
  · rfl
  · rfl
  · exact Function.update_of_ne hu _ _

variable (cfg) in
theorem callbacks_startTask {u : ℕ} (hu : u ≠ s.nextTask) (origin : Origin) (mandatory : Bool) :
    (s.startTask cfg origin mandatory).2.callbacks u = s.callbacks u := by
  have hadopt : ((s.createTask origin).adoptTask cfg s.nextTask true).2.callbacks u
      = s.callbacks u := callbacks_adoptTask hu true
  simp only [startTask]
  split_ifs
  · rfl
  · exact (Function.update_of_ne hu _ _).trans hadopt
  · exact hadopt

theorem callbacks_trackCallbackTask {u : ℕ} (hu : u ≠ t) :
    (s.trackCallbackTask cfg t).callbacks u = s.callbacks u := by
  simp only [trackCallbackTask, trackCancellingTask]
  split_ifs
  · exact (Function.update_of_ne hu _ _).trans (callbacks_adoptTask hu false)
  · exact ((Function.update_of_ne hu _ _).trans (callbacks_adoptTask hu true)).trans
      (callbacks_adoptTask hu false)

/-- A done-callback registers nothing on a task that exists. -/
theorem callbacks_runCallback {u : ℕ} (hu : u < s.nextTask) (ending : Ending α)
    (cb : DoneCallback) : (s.runCallback cfg t ending cb).1.callbacks u = s.callbacks u := by
  rcases cb with _ | _ | _ | _ | id | ⟨id, worker, hooks⟩ | _ <;> simp only [runCallback]
  · split_ifs <;> rfl
  · simp only [completed, deliver]
    split_ifs
    · rfl
    split
    · rfl
    split
    · rfl
    · rfl
    · have hstart := callbacks_startTask cfg (s := { s with
        lateTasks := s.lateTasks.erase t
        backgroundTaskOrder := s.backgroundTaskOrder.erase t }) (Nat.ne_of_lt hu) (.started true) true
      split
      · rename_i v s' heq
        have hv : v = s.nextTask := by
          simp only [startTask] at heq
          split_ifs at heq
          · cases heq
          · exact (Option.some.inj (Prod.mk.inj heq).1).symm
        rw [heq] at hstart
        exact (callbacks_trackCallbackTask (hv ▸ Nat.ne_of_lt hu)).trans hstart
      · rename_i s' heq
        rw [heq] at hstart
        exact hstart

/-- One callback of an ended task is run and gone. -/
theorem callbacks_step (h : s.Booked) {ending : Ending α} {cb : DoneCallback}
    {rest : List DoneCallback} (hended : s.ended t = some ending)
    (hqueue : s.callbacks t = cb :: rest) : (step cfg s (.callback t)).1.callbacks t = rest := by
  have ht : t < s.nextTask := by
    by_contra hge
    rw [(h.unborn t (Nat.le_of_not_lt hge)).2.2.1] at hqueue
    cases hqueue
  simp only [step, hended, hqueue]
  rw [callbacks_runCallback (s := { s with callbacks := Function.update s.callbacks t rest }) ht]
  exact Function.update_self _ _ _

/-- **The callbacks of an ended task run out.** -/
theorem callbacks_replicate (es : List (Event α)) {n : ℕ}
    (hended : (after cfg es).ended t ≠ none) (hn : ((after cfg es).callbacks t).length = n) :
    (after cfg (es ++ List.replicate n (.callback t))).callbacks t = [] := by
  induction n generalizing es with
  | zero => simpa using hn
  | succ n ih =>
    obtain ⟨ending, hending⟩ := Option.ne_none_iff_exists'.mp hended
    obtain ⟨cb, rest, hqueue⟩ := List.exists_cons_of_length_eq_add_one hn
    have hgrows := grows_step cfg (booked_after cfg es) (.callback t)
    rw [List.replicate_succ, List.append_cons]
    refine ih (es ++ [.callback t]) ?_ ?_
    · rw [after_concat, hgrows.ended_eq t ending hending]
      exact Option.some_ne_none ending
    · rw [after_concat, callbacks_step (booked_after cfg es) hending hqueue]
      simpa [hqueue] using hn

/-- A coordinator with room for two tasks. -/
def tightConfig : CoordinatorConfig := ⟨4, 2⟩

/-- The hooks of the runs below. -/
def bothHooks : LateHooks := ⟨some .coroutine, true⟩

/-- Three items for two places: one fails at once, one is retained and fails late. -/
def lateFailure : List (Event String) :=
  [.submit "turn" [("w", "a"), ("w", "b"), ("w", "c")] none bothHooks,
    .finish 0 (.raised ⟨"ValueError", "bad", true⟩), .waited 0, .resume 0,
    .finish 1 (.raised ⟨"TimeoutError", "late", true⟩), .callback 1, .callback 1, .callback 1,
    .callback 1]

/-- The retained item ends with a `BaseException` that is no `Exception`. -/
def lateGroup : List (Event String) :=
  [.submit "turn" [("w", "a")] none bothHooks, .waited 0, .resume 0,
    .finish 0 (.raised ⟨"BaseExceptionGroup", "unhandled errors", false⟩), .callback 0, .callback 0,
    .callback 0, .callback 0]

end WorkItemCoordinator

end SubagentsLab

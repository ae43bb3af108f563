import SubagentsLab.Workers.Coordinator

/-!
# Workers/Carry — what the coordinator's operations leave alone

Owning, starting and retaining tasks end no task, move no submission and begin no shutdown; of the
callbacks they register, only the one of `retain_late_task` completes a late item (`Carries`).
-/

namespace SubagentsLab

open Machinery

namespace WorkItemCoordinator

variable {α : Type} {s s' : WorkItemCoordinator α}

/-- The completion callbacks outstanding on a task. -/
def lateQueue (s : WorkItemCoordinator α) (t : ℕ) : List DoneCallback :=
  (s.callbacks t).filter DoneCallback.isLate

/-- From `s` to `s'` tasks were at most made, owned and given callbacks; of these, `extra` are
completion callbacks. -/
structure Carries (extra : ℕ → List DoneCallback) (s s' : WorkItemCoordinator α) : Prop where
  nextTask_le : s.nextTask ≤ s'.nextTask
  origin_eq : ∀ t < s.nextTask, s'.origin t = s.origin t
  ended_eq : s'.ended = s.ended
  shutdown_eq : s'.shutdown = s.shutdown
  nextCall_eq : s'.nextCall = s.nextCall
  calls_eq : s'.calls = s.calls
  lateQueue_eq : ∀ t, s'.lateQueue t = s.lateQueue t ++ extra t

/-- Nothing was retained. -/
abbrev Keeps (s s' : WorkItemCoordinator α) : Prop := Carries (fun _ => []) s s'

theorem Keeps.refl (s : WorkItemCoordinator α) : Keeps s s :=
  ⟨Nat.le_refl _, fun _ _ => rfl, rfl, rfl, rfl, rfl, fun _ => (List.append_nil _).symm⟩

theorem Carries.trans {extra extra' : ℕ → List DoneCallback} {s'' : WorkItemCoordinator α}
    (h : Carries extra s s') (h' : Carries extra' s' s'') :
    Carries (fun t => extra t ++ extra' t) s s'' where
  nextTask_le := Nat.le_trans h.nextTask_le h'.nextTask_le
  origin_eq := fun t ht =>
    (h'.origin_eq t (Nat.lt_of_lt_of_le ht h.nextTask_le)).trans (h.origin_eq t ht)
  ended_eq := h'.ended_eq.trans h.ended_eq
  shutdown_eq := h'.shutdown_eq.trans h.shutdown_eq
  nextCall_eq := h'.nextCall_eq.trans h.nextCall_eq
  calls_eq := h'.calls_eq.trans h.calls_eq
  lateQueue_eq := fun t => by rw [h'.lateQueue_eq, h.lateQueue_eq, List.append_assoc]

/-- A callback was registered on task `t`. -/
theorem Carries.registered {t : ℕ} {c : DoneCallback} (hnext : s'.nextTask = s.nextTask)
    (horigin : s'.origin = s.origin) (hended : s'.ended = s.ended)
    (hshutdown : s'.shutdown = s.shutdown) (hnextCall : s'.nextCall = s.nextCall)
    (hcalls : s'.calls = s.calls)
    (hcallbacks : s'.callbacks = Function.update s.callbacks t (s.callbacks t ++ [c])) :
    Carries (fun u => if u = t then [c].filter DoneCallback.isLate else []) s s' where
  nextTask_le := Nat.le_of_eq hnext.symm
  origin_eq := fun u _ => congrFun horigin u
  ended_eq := hended
  shutdown_eq := hshutdown
  nextCall_eq := hnextCall
  calls_eq := hcalls
  lateQueue_eq := by
    intro u
    rcases eq_or_ne u t with rfl | hu
    · simp [lateQueue, hcallbacks, List.filter_append]
    · simp [lateQueue, hcallbacks, hu]

/-- A step that touches neither tasks nor callbacks nor submissions. -/
theorem Keeps.of_eq (hnext : s'.nextTask = s.nextTask) (horigin : s'.origin = s.origin)
    (hended : s'.ended = s.ended) (hshutdown : s'.shutdown = s.shutdown)
    (hnextCall : s'.nextCall = s.nextCall) (hcalls : s'.calls = s.calls)
    (hcallbacks : s'.callbacks = s.callbacks) : Keeps s s' :=
  ⟨Nat.le_of_eq hnext.symm, fun t _ => congrFun horigin t, hended, hshutdown, hnextCall, hcalls,
    fun t => by rw [lateQueue, hcallbacks, List.append_nil, lateQueue]⟩

theorem Keeps.trans {s'' : WorkItemCoordinator α} (h : Keeps s s') (h' : Keeps s' s'') :
    Keeps s s'' := Carries.trans h h'

/-- A callback that completes nothing was registered on task `t`. -/
theorem Keeps.registered {t : ℕ} {c : DoneCallback} (hnext : s'.nextTask = s.nextTask)
    (horigin : s'.origin = s.origin) (hended : s'.ended = s.ended)
    (hshutdown : s'.shutdown = s.shutdown) (hnextCall : s'.nextCall = s.nextCall)
    (hcalls : s'.calls = s.calls)
    (hcallbacks : s'.callbacks = Function.update s.callbacks t (s.callbacks t ++ [c]))
    (hc : c.isLate = false) : Keeps s s' := by
  simpa [hc] using Carries.registered hnext horigin hended hshutdown hnextCall hcalls hcallbacks

theorem keeps_createTask (s : WorkItemCoordinator α) (origin : Origin) :
    Keeps s (s.createTask origin) where
  nextTask_le := Nat.le_succ _
  origin_eq := fun _ ht => Function.update_of_ne (Nat.ne_of_lt ht) _ _
  ended_eq := rfl
  shutdown_eq := rfl
  nextCall_eq := rfl
  calls_eq := rfl
  lateQueue_eq := fun _ => (List.append_nil _).symm

theorem keeps_adoptTask (cfg : CoordinatorConfig) (s : WorkItemCoordinator α) (t : ℕ)
    (force : Bool) : Keeps s (s.adoptTask cfg t force).2 := by
  simp only [adoptTask]
  split_ifs
  · exact .refl s
  · exact .refl s
  · exact .registered rfl rfl rfl rfl rfl rfl rfl rfl

theorem keeps_startTask (cfg : CoordinatorConfig) (s : WorkItemCoordinator α) (origin : Origin)
    (mandatory : Bool) : Keeps s (s.startTask cfg origin mandatory).2 := by
  simp only [startTask]
  have hadopt := (keeps_createTask s origin).trans
    (keeps_adoptTask cfg (s.createTask origin) s.nextTask true)
  split_ifs
  · exact .refl s
  · exact hadopt.trans (.registered rfl rfl rfl rfl rfl rfl rfl rfl)
  · exact hadopt

theorem keeps_trackCancellingTask (cfg : CoordinatorConfig) (s : WorkItemCoordinator α) (t : ℕ) :
    Keeps s (s.trackCancellingTask cfg t) :=
  (keeps_adoptTask cfg s t true).trans (.registered rfl rfl rfl rfl rfl rfl rfl rfl)

theorem keeps_trackCallbackTask (cfg : CoordinatorConfig) (s : WorkItemCoordinator α) (t : ℕ) :
    Keeps s (s.trackCallbackTask cfg t) := by
  simp only [trackCallbackTask]
  have hadopt := keeps_adoptTask cfg s t false
  split_ifs
  · exact hadopt.trans (.registered rfl rfl rfl rfl rfl rfl rfl rfl)
  · exact hadopt.trans (keeps_trackCancellingTask cfg _ t)

theorem keeps_trackItem (s : WorkItemCoordinator α) (item : SelectedItem) (t : ℕ) :
    Keeps s (s.trackItem item t) :=
  (Keeps.registered rfl rfl rfl rfl rfl rfl rfl rfl : Keeps s ({ s with
    workTasks := s.workTasks.set item.workItemId t
    submitTasks := insert t s.submitTasks }.addDoneCallback t .discardSubmit)).trans
    (.registered rfl rfl rfl rfl rfl rfl rfl rfl)

/-- **An accepted task gets one completion callback**, a refused one none. -/
theorem carries_retainLateTask (cfg : CoordinatorConfig) (s : WorkItemCoordinator α) (t : ℕ)
    (workItemId workerId : String) (hooks : LateHooks) :
    Carries (fun u => if u = t ∧ (s.retainLateTask cfg t workItemId workerId hooks).1 = true then
        [.lateCompleted workItemId workerId hooks] else []) s
      (s.retainLateTask cfg t workItemId workerId hooks).2 := by
  simp only [retainLateTask]
  have hadopt := keeps_adoptTask cfg s t false
  split_ifs with hshut hadopted
  · simpa using keeps_trackCancellingTask cfg s t
  · have hlate : Carries _ (s.adoptTask cfg t false).2
        ({ (s.adoptTask cfg t false).2 with
          lateTasks := insert t (s.adoptTask cfg t false).2.lateTasks
          backgroundTaskOrder := (s.adoptTask cfg t false).2.backgroundTaskOrder ++ [t]
          }.addDoneCallback t (.lateCompleted workItemId workerId hooks)) :=
      .registered rfl rfl rfl rfl rfl rfl rfl
    have hself : [DoneCallback.lateCompleted workItemId workerId hooks].filter DoneCallback.isLate
        = [.lateCompleted workItemId workerId hooks] := rfl
    simpa [hself] using Carries.trans hadopt hlate
  · simpa using hadopt.trans (keeps_trackCancellingTask cfg _ t)

theorem keeps_deliver (cfg : CoordinatorConfig) (s : WorkItemCoordinator α) (t : ℕ)
    (late : LateResult α) (hooks : LateHooks) : Keeps s (s.deliver cfg t late hooks).1 := by
  simp only [deliver]
  split
  · exact .of_eq rfl rfl rfl rfl rfl rfl rfl
  · exact .refl s
  · have hstart := keeps_startTask cfg s (.started true) true
    split
    · rename_i u s' heq
      rw [heq] at hstart
      exact hstart.trans (keeps_trackCallbackTask cfg s' u)
    · rename_i s' heq
      rwa [heq] at hstart

/-- **The completion callback registers no completion callback.** -/
theorem keeps_completed (cfg : CoordinatorConfig) (s : WorkItemCoordinator α) (t : ℕ)
    (ending : Ending α) (workItemId workerId : String) (hooks : LateHooks) :
    Keeps s (s.completed cfg t ending workItemId workerId hooks).1 := by
  have hdiscard : Keeps s { s with
      lateTasks := s.lateTasks.erase t
      backgroundTaskOrder := s.backgroundTaskOrder.erase t } := .of_eq rfl rfl rfl rfl rfl rfl rfl
  simp only [completed]
  split_ifs
  · exact hdiscard
  · split
    · exact hdiscard
    · exact hdiscard.trans (keeps_deliver cfg _ t _ hooks)

theorem keeps_runCallback (cfg : CoordinatorConfig) (s : WorkItemCoordinator α) (t : ℕ)
    (ending : Ending α) (c : DoneCallback) : Keeps s (s.runCallback cfg t ending c).1 := by
  rcases c with _ | _ | _ | _ | id | ⟨id, worker, hooks⟩ | _ <;> simp only [runCallback]
  · exact .of_eq rfl rfl rfl rfl rfl rfl rfl
  · exact .of_eq rfl rfl rfl rfl rfl rfl rfl
  · exact .of_eq rfl rfl rfl rfl rfl rfl rfl
  · exact .of_eq rfl rfl rfl rfl rfl rfl rfl
  · split_ifs
    · exact .of_eq rfl rfl rfl rfl rfl rfl rfl
    · exact .refl s
  · exact keeps_completed cfg s t ending id worker hooks
  · exact .of_eq rfl rfl rfl rfl rfl rfl rfl

end WorkItemCoordinator

end SubagentsLab

import Mathlib.Logic.Function.Basic
import Mathlib.Data.List.Basic

/-!
# Machinery/Tasks — cooperative tasks and their cancellation

One event loop runs its tasks a step at a time; between two steps a task is `fresh` (created, not
run yet), suspended on what it awaits, or done.  Cancelling a task cancels **what it currently
awaits**: the request walks down a chain of direct awaits, stops at a `shield`, and is parked in
`mustCancel` where there is nothing to cancel — in a fresh task, whose body then never runs, and in
a task whose awaited task is already done.
-/

namespace Machinery

/-- How a coroutine ended. -/
inductive Outcome
  | value
  | raised
  | cancelled
  deriving DecidableEq, Repr

/-- What a suspended task awaits: another task, the outer future of a shield around another task
(and whether that future was cancelled), or a future of no interest to the model. -/
inductive Awaiting
  | task (id : ℕ)
  | shield (id : ℕ) (cancelled : Bool)
  | outside
  deriving DecidableEq, Repr

/-- Where a task stands between two steps of the loop. -/
inductive TaskPhase
  | fresh
  | suspended (on : Awaiting)
  | done (outcome : Outcome)
  deriving DecidableEq, Repr

/-- A task: its phase, the pending `mustCancel` request, and the number of requests it received
(`cancelling()`). -/
structure Task where
  phase : TaskPhase := .fresh
  mustCancel : Bool := false
  cancelRequests : ℕ := 0
  deriving DecidableEq, Repr

namespace Task

/-- `task.done()`. -/
def isDone (t : Task) : Bool :=
  match t.phase with
  | .done _ => true
  | _ => false

/-- The task runs into `phase`; a request parked in `mustCancel` was delivered on the way. -/
def resume (t : Task) (phase : TaskPhase) : Task := { t with phase, mustCancel := false }

@[simp] theorem resume_phase (t : Task) (phase : TaskPhase) : (t.resume phase).phase = phase := rfl

@[simp] theorem resume_mustCancel (t : Task) (phase : TaskPhase) :
    (t.resume phase).mustCancel = false := rfl

@[simp] theorem resume_cancelRequests (t : Task) (phase : TaskPhase) :
    (t.resume phase).cancelRequests = t.cancelRequests := rfl

/-- The request as the task itself sees it: noted, parked in a fresh task, and passed to the outer
future of a shield. -/
def request (t : Task) : Task :=
  let noted := { t with cancelRequests := t.cancelRequests + 1 }
  match t.phase with
  | .done _ => t
  | .fresh => { noted with mustCancel := true }
  | .suspended (.shield j _) => { noted with phase := .suspended (.shield j true) }
  | .suspended _ => noted

theorem request_of_done {t : Task} {o : Outcome} (h : t.phase = .done o) : t.request = t := by
  simp [request, h]

theorem request_of_fresh {t : Task} (h : t.phase = .fresh) :
    t.request.phase = .fresh ∧ t.request.mustCancel = true := by
  simp [request, h]

theorem request_of_outside {t : Task} (h : t.phase = .suspended .outside) :
    t.request.phase = .suspended .outside := by
  simp [request, h]

/-- What cancellation requests may do to a task between its steps: they are counted, and the outer
future of a shield may be marked. -/
def Disturbed (t t' : Task) : Prop :=
  t.cancelRequests ≤ t'.cancelRequests ∧
    (t'.phase = t.phase ∨ ∃ j c, t.phase = .suspended (.shield j c) ∧
      t'.phase = .suspended (.shield j true) ∧ 0 < t'.cancelRequests)

theorem Disturbed.refl (t : Task) : t.Disturbed t := ⟨Nat.le_refl _, Or.inl rfl⟩

theorem Disturbed.trans {t t' t'' : Task} (h : t.Disturbed t') (h' : t'.Disturbed t'') :
    t.Disturbed t'' := by
  refine ⟨Nat.le_trans h.1 h'.1, ?_⟩
  rcases h'.2 with heq | ⟨j, c, hj, hj', hpos⟩
  · rw [heq]
    exact h.2.imp_right fun ⟨j, c, hj, hj', hpos⟩ => ⟨j, c, hj, hj', Nat.lt_of_lt_of_le hpos h'.1⟩
  · rcases h.2 with heq | ⟨i, d, hi, hi', -⟩
    · exact Or.inr ⟨j, c, heq ▸ hj, hj', hpos⟩
    · rw [hi'] at hj
      cases hj
      exact Or.inr ⟨_, d, hi, hj', hpos⟩

theorem disturbed_request (t : Task) : t.Disturbed t.request := by
  rcases hp : t.phase with _ | (j | ⟨j, c⟩ | _) | o <;> simp [Disturbed, request, hp]

theorem isDone_iff {t : Task} : t.isDone = true ↔ ∃ o, t.phase = .done o := by
  obtain ⟨phase, _, _⟩ := t
  rcases phase with _ | _ | o <;> simp [isDone]

end Task

/-- `task.cancel()`: the tasks after it, and whether the request was accepted.  `fuel` bounds the
chain of awaits the request walks; no chain is longer than the number of tasks. -/
def cancel : ℕ → (ℕ → Task) → ℕ → (ℕ → Task) × Bool
  | 0, tasks, _ => (tasks, false)
  | fuel + 1, tasks, i =>
    match (tasks i).phase with
    | .done _ => (tasks, false)
    | .suspended (.task j) =>
      let (tasks', accepted) := cancel fuel (Function.update tasks i (tasks i).request) j
      if accepted then (tasks', true)
      else (Function.update tasks' i { (tasks i).request with mustCancel := true }, true)
    | _ => (Function.update tasks i (tasks i).request, true)

/-- **Cancelling a task that awaits no other task touches that task only.** -/
theorem cancel_eq_update {fuel i : ℕ} {tasks : ℕ → Task}
    (h : ∀ j, (tasks i).phase ≠ .suspended (.task j)) :
    (cancel (fuel + 1) tasks i).1 = Function.update tasks i (tasks i).request := by
  rcases hp : (tasks i).phase with _ | (j | ⟨j, c⟩ | _) | o
  · simp [cancel, hp]
  · exact absurd hp (h j)
  · simp [cancel, hp]
  · simp [cancel, hp]
  · simp [cancel, hp, Task.request_of_done hp]

/-- **Cancelling moves no task**: at most the outer future of a shield is marked, and the request
noted. -/
theorem cancel_disturbs (fuel : ℕ) (tasks : ℕ → Task) (i k : ℕ) :
    (tasks k).Disturbed ((cancel fuel tasks i).1 k) := by
  induction fuel generalizing tasks i with
  | zero => exact .refl _
  | succ fuel ih =>
    have hreq : (tasks k).Disturbed (Function.update tasks i (tasks i).request k) := by
      rcases eq_or_ne k i with rfl | hk
      · rw [Function.update_self]
        exact (tasks k).disturbed_request
      · rw [Function.update_of_ne hk]
        exact .refl _
    rcases hp : (tasks i).phase with _ | (j | ⟨j, c⟩ | _) | o
    · simpa [cancel, hp] using hreq
    · have hdeep := hreq.trans (ih (Function.update tasks i (tasks i).request) j)
      simp only [cancel, hp]
      split_ifs
      · exact hdeep
      · rcases eq_or_ne k i with rfl | hk
        · simpa [Task.Disturbed] using (tasks k).disturbed_request
        · simpa only [Function.update_of_ne hk] using hdeep
    · simpa [cancel, hp] using hreq
    · simpa [cancel, hp] using hreq
    · simpa [cancel, hp] using Task.Disturbed.refl (tasks k)

end Machinery

import SubagentsLab.Machinery.Runs
import SubagentsLab.Machinery.Tasks

/-!
# Workers/ItemLoop — the tasks of submitted work items

`WorkItemCoordinator.submit` makes one task per item.  An item waits for its worker's **tail** — the
provider task last created for that worker — behind a shield, and then creates its own provider task
and makes it the tail.  All tasks share one loop, which takes first steps in creation order.
-/

namespace SubagentsLab

open Machinery

/-- What a task of the coordinator is: `one(worker_id, text)`, or the provider task
`worker(worker_id, text)` that an item created. -/
inductive TaskKind
  | item (workerId text : String)
  | provider (workerId text : String) (item : ℕ)
  deriving DecidableEq, Repr

/-- The configuration `submit` reads. -/
structure CoordinatorConfig where
  maxWorkItemsPerTurn : ℕ
  maxBackgroundTasks : ℕ

/-- The part of the coordinator that runs submitted items.  Tasks are numbered in creation order,
and the loop takes first steps in that order: `stepped` of the `created` tasks have had theirs.
`otherOwned` counts the owned tasks that are no item (`start_task` callers elsewhere). -/
structure ItemLoop where
  tasks : ℕ → Task := fun _ => {}
  kind : ℕ → Option TaskKind := fun _ => none
  created : ℕ := 0
  stepped : ℕ := 0
  tails : String → Option ℕ := fun _ => none
  ownedTasks : List ℕ := []
  otherOwned : ℕ := 0
  providerTasks : List ℕ := []

namespace ItemLoop

/-- What can happen to the submitted items. -/
inductive Event
  /-- `submit(turn_id, items, worker)` runs up to its wait. -/
  | submit (items : List (String × String))
  /-- The coordinator owns `n` tasks that are no item. -/
  | owns (n : ℕ)
  /-- The loop takes the next first step. -/
  | run
  /-- The loop resumes an item whose await is over. -/
  | wake (i : ℕ)
  /-- The coroutine of a provider task ends. -/
  | finish (p : ℕ) (outcome : Outcome)
  /-- Somebody cancels a task (`cancel`, a cancelled or timed-out `submit`, shutdown). -/
  | cancel (i : ℕ)
  /-- The done-callback of an item gives its capacity back. -/
  | release (i : ℕ)
  deriving DecidableEq, Repr

/-- `asyncio.create_task`. -/
def createTask (s : ItemLoop) (kind : TaskKind) : ItemLoop :=
  { s with
    tasks := Function.update s.tasks s.created {}
    kind := Function.update s.kind s.created (some kind)
    created := s.created + 1 }

/-- `_has_background_capacity`; mandatory tasks are outside the budget and outside `otherOwned`. -/
def hasBackgroundCapacity (cfg : CoordinatorConfig) (s : ItemLoop) : Bool :=
  s.ownedTasks.length + s.otherOwned < cfg.maxBackgroundTasks

/-- `start_task(one(worker_id, text))`; a refused item leaves a capacity failure and no task. -/
def startTask (cfg : CoordinatorConfig) (s : ItemLoop) (item : String × String) : ItemLoop :=
  if s.hasBackgroundCapacity cfg then
    { s.createTask (.item item.1 item.2) with ownedTasks := s.ownedTasks ++ [s.created] }
  else s

/-- `one` past its wait: item `i` creates its provider task, makes it the tail and awaits it. -/
def createProvider (s : ItemLoop) (i : ℕ) (workerId text : String) : ItemLoop :=
  let p := s.created
  let s' := s.createTask (.provider workerId text i)
  { s' with
    tasks := Function.update s'.tasks i ((s.tasks i).resume (.suspended (.task p)))
    tails := Function.update s.tails workerId (some p)
    providerTasks := s.providerTasks ++ [p] }

/-- Task `i` runs into `phase`. -/
def resume (s : ItemLoop) (i : ℕ) (phase : TaskPhase) : ItemLoop :=
  { s with tasks := Function.update s.tasks i ((s.tasks i).resume phase) }

/-- `one` up to its wait. -/
def enter (s : ItemLoop) (i : ℕ) (workerId text : String) : ItemLoop :=
  match s.tails workerId with
  | none => s.createProvider i workerId text
  | some p =>
    -- `shield` of a finished task is that task, and awaiting it does not suspend; what it raises
    -- is swallowed, for an item that took its first step was not cancelled
    if (s.tasks p).isDone then s.createProvider i workerId text
    else s.resume i (.suspended (.shield p false))

/-- How `await task` ends for item `i` when its provider task `p` is done. -/
def awaitOutcome (s : ItemLoop) (i p : ℕ) : Outcome :=
  if (s.tasks i).mustCancel then .cancelled
  else
    match (s.tasks p).phase with
    | .done outcome => outcome
    | _ => .raised

/-- `one` past `await task`: the `finally` block. -/
def leave (s : ItemLoop) (i p : ℕ) (workerId : String) : ItemLoop :=
  { s.resume i (.done (s.awaitOutcome i p)) with
    providerTasks := s.providerTasks.erase p
    tails := if s.tails workerId = some p then Function.update s.tails workerId none else s.tails }

/-- One step, with the worker and the item of the provider task it starts. -/
def step (cfg : CoordinatorConfig) (s : ItemLoop) : Event → ItemLoop × List (String × ℕ)
  | .submit items => ((items.take cfg.maxWorkItemsPerTurn).foldl (startTask cfg) s, [])
  | .owns n => ({ s with otherOwned := n }, [])
  | .run =>
    let i := s.stepped
    let s' := { s with stepped := s.stepped + 1 }
    if i < s.created then
      if (s.tasks i).mustCancel then (s'.resume i (.done .cancelled), [])
      else
        match s.kind i with
        | some (.item workerId text) => (s'.enter i workerId text, [])
        | some (.provider workerId _ item) =>
          (s'.resume i (.suspended .outside), [(workerId, item)])
        | none => (s, [])
    else (s, [])
  | .wake i =>
    match s.kind i, (s.tasks i).phase with
    | some (.item workerId text), .suspended (.shield p cancelled) =>
      if cancelled || (s.tasks p).isDone then
        -- `cancelling()` is set: the cancellation is this item's own and is raised
        if 0 < (s.tasks i).cancelRequests then (s.resume i (.done .cancelled), [])
        else (s.createProvider i workerId text, [])
      else (s, [])
    | some (.item workerId _), .suspended (.task p) =>
      if (s.tasks p).isDone then (s.leave i p workerId, []) else (s, [])
    | _, _ => (s, [])
  | .finish p outcome =>
    if (s.tasks p).phase = .suspended .outside then (s.resume p (.done outcome), []) else (s, [])
  | .cancel i =>
    if i < s.created then ({ s with tasks := (Machinery.cancel s.created s.tasks i).1 }, [])
    else (s, [])
  | .release i =>
    if (s.tasks i).isDone then ({ s with ownedTasks := s.ownedTasks.erase i }, []) else (s, [])

/-- The loop after a run. -/
def after (cfg : CoordinatorConfig) (es : List Event) : ItemLoop :=
  run (fun s e => (step cfg s e).1) {} es

/-- The provider tasks a run starts, in order: their worker and their item. -/
def starts (cfg : CoordinatorConfig) (es : List Event) : List (String × ℕ) :=
  outputs (step cfg) {} es

/-- Task `p` is a provider task of the worker, created and not done. -/
def InFlight (s : ItemLoop) (workerId : String) (p : ℕ) : Prop :=
  (∃ text item, s.kind p = some (.provider workerId text item)) ∧ (s.tasks p).isDone = false

/-- **Per-worker serialisation**, of a whole run: at no moment are two provider tasks of a worker in
flight, and they start in the order their items were submitted. -/
structure Serialized (cfg : CoordinatorConfig) (es : List Event) : Prop where
  exclusive : ∀ es₀, es₀ <+: es → ∀ w p q,
    (after cfg es₀).InFlight w p → (after cfg es₀).InFlight w q → p = q
  inOrder : (starts cfg es).Pairwise fun a b => a.1 = b.1 → a.2 < b.2

/-! ## What a step keeps -/

variable {cfg : CoordinatorConfig} {s s' : ItemLoop}

/-- What was created stays what it is, and first steps stay taken. -/
structure Grows (s s' : ItemLoop) : Prop where
  stepped_le : s.stepped ≤ s'.stepped
  created_le : s.created ≤ s'.created
  kind_eq : ∀ p < s.created, s'.kind p = s.kind p

theorem Grows.refl (s : ItemLoop) : s.Grows s :=
  ⟨Nat.le_refl _, Nat.le_refl _, fun _ _ => rfl⟩

theorem Grows.trans {s'' : ItemLoop} (h : s.Grows s') (h' : s'.Grows s'') : s.Grows s'' :=
  ⟨Nat.le_trans h.stepped_le h'.stepped_le, Nat.le_trans h.created_le h'.created_le, fun p hp =>
    (h'.kind_eq p (Nat.lt_of_lt_of_le hp h.created_le)).trans (h.kind_eq p hp)⟩

theorem grows_createTask (s : ItemLoop) (kind : TaskKind) : s.Grows (s.createTask kind) :=
  ⟨Nat.le_refl _, Nat.le_succ _, fun _ hp => Function.update_of_ne (Nat.ne_of_lt hp) _ _⟩

theorem grows_createProvider (s : ItemLoop) (i : ℕ) (w text : String) :
    s.Grows (s.createProvider i w text) :=
  ⟨Nat.le_refl _, Nat.le_succ _, (grows_createTask s _).kind_eq⟩

theorem grows_submit (s : ItemLoop) (items : List (String × String)) :
    s.Grows (items.foldl (ItemLoop.startTask cfg) s) := by
  induction items generalizing s with
  | nil => exact .refl s
  | cons item items ih =>
    refine Grows.trans ?_ (ih _)
    simp only [ItemLoop.startTask]
    split_ifs
    · exact ⟨Nat.le_refl _, Nat.le_succ _, (grows_createTask s (.item item.1 item.2)).kind_eq⟩
    · exact .refl s

theorem grows_step (cfg : CoordinatorConfig) (s : ItemLoop) (e : Event) :
    s.Grows (ItemLoop.step cfg s e).1 := by
  have hrest : ∀ {s' : ItemLoop}, s'.stepped = s.stepped → s'.created = s.created →
      s'.kind = s.kind → s.Grows s' := fun h₁ h₂ h₃ =>
    ⟨Nat.le_of_eq h₁.symm, Nat.le_of_eq h₂.symm, fun _ _ => by rw [h₃]⟩
  have hnext : ∀ {s' : ItemLoop}, s'.stepped = s.stepped + 1 → s'.created = s.created →
      s'.kind = s.kind → s.Grows s' := fun h₁ h₂ h₃ =>
    ⟨h₁ ▸ Nat.le_succ _, Nat.le_of_eq h₂.symm, fun _ _ => by rw [h₃]⟩
  rcases e with items | n | _ | i | ⟨p, o⟩ | i | i <;> simp only [ItemLoop.step]
  · exact grows_submit s _
  · exact hrest rfl rfl rfl
  · split_ifs
    · exact hnext rfl rfl rfl
    · split
      · simp only [ItemLoop.enter]
        have hcreate := fun w text =>
          (hnext rfl rfl rfl : s.Grows { s with stepped := s.stepped + 1 }).trans
            (grows_createProvider _ s.stepped w text)
        split
        · exact hcreate _ _
        · split_ifs
          · exact hcreate _ _
          · exact hnext rfl rfl rfl
      · exact hnext rfl rfl rfl
      · exact .refl s
    · exact .refl s
  · split
    · split_ifs
      · exact hrest rfl rfl rfl
      · exact grows_createProvider s i _ _
      · exact .refl s
    · split_ifs
      · exact hrest rfl rfl rfl
      · exact .refl s
    · exact .refl s
  · split_ifs
    · exact hrest rfl rfl rfl
    · exact .refl s
  · split_ifs
    · exact hrest rfl rfl rfl
    · exact .refl s
  · split_ifs
    · exact hrest rfl rfl rfl
    · exact .refl s

/-- **A step starts at most one provider task**, the one whose first step it takes. -/
theorem step_starts_provider (cfg : CoordinatorConfig) (s : ItemLoop) (e : Event) :
    (ItemLoop.step cfg s e).2 = [] ∨ ∃ w text i, (ItemLoop.step cfg s e).2 = [(w, i)] ∧
      s.kind s.stepped = some (.provider w text i) ∧ s.stepped < s.created ∧
      (ItemLoop.step cfg s e).1.stepped = s.stepped + 1 := by
  rcases e with items | n | _ | i | ⟨p, o⟩ | i | i <;> simp only [ItemLoop.step]
  · exact Or.inl trivial
  · exact Or.inl trivial
  · split_ifs with hlt
    · exact Or.inl rfl
    · split
      · exact Or.inl rfl
      · rename_i w text i hkind
        exact Or.inr ⟨w, text, i, rfl, hkind, hlt, rfl⟩
      · exact Or.inl rfl
    · exact Or.inl rfl
  · split
    · split_ifs <;> exact Or.inl rfl
    · split_ifs <;> exact Or.inl rfl
    · exact Or.inl rfl
  · split_ifs <;> exact Or.inl rfl
  · split_ifs <;> exact Or.inl rfl
  · split_ifs <;> exact Or.inl rfl

end ItemLoop

end SubagentsLab

import SubagentsLab.Machinery.Dict
import SubagentsLab.Machinery.Protocol
import SubagentsLab.Machinery.Tasks

/-!
# Host/Runner — registering workers with the runner

`RunnerSupervisor.register_worker` of `server/runner_supervisor.py`.  The first call for a worker creates a task
that calls `add_workers`, and files it under the worker; a call that finds a task filed waits for it behind a
shield, so that cancelling the caller does not cancel the task.  The task is taken off the file by its done
callback, one turn of the loop after it ends, and until then later callers are given its outcome.

Callers and tasks interleave in any order, and any of them may be cancelled at any time.  What `add_workers` does
is decided by the events: it may return, raise, be cancelled, or go on.

* `registrations_serial`: what a worker's calls of `add_workers` and its callers go through is a run of `AddStage`,
  and what is filed is what has not been taken off.
-/

namespace SubagentsLab

open Machinery

/-! ## The data -/

/-- A value that `getattr` may find, as `register_worker` looks at it. -/
inductive WorkerAttr
  | text (s : String)
  | other (truthy : Bool)
  deriving DecidableEq, Repr

namespace WorkerAttr

def truthy : WorkerAttr → Bool
  | text s => s ≠ ""
  | other truthy => truthy

end WorkerAttr

/-- A worker, as far as it is asked for an id: `metadata.worker_id` and `name`. -/
structure RunnerWorker where
  metadataWorkerId : Option WorkerAttr := none
  name : Option WorkerAttr := none
  deriving DecidableEq, Repr

/-- The id of a worker, if it is a string that is not empty. -/
def RunnerWorker.workerId (worker : RunnerWorker) : Option String :=
  match if worker.metadataWorkerId.any WorkerAttr.truthy then worker.metadataWorkerId else worker.name with
  | some (.text s) => if s = "" then none else some s
  | _ => none

/-- What `add_workers`, or the rest of it, comes to when it runs: it goes on, or it ends. -/
inductive AddResult
  | pending
  | ended (outcome : Outcome)
  deriving DecidableEq, Repr

/-- A registration: a task of `register()`, and whether its done callback has run. -/
structure RunnerRegistration where
  workerId : String
  task : Task := {}
  finalized : Bool := false
  deriving DecidableEq, Repr

/-- A call of `register_worker` that waits. -/
structure RegistrationCaller where
  workerId : String
  task : Task
  deriving DecidableEq, Repr

/-- `RunnerSupervisor`, with every registration and every caller there has been. -/
structure RunnerSupervisor where
  runnerRegistered : Finset String := ∅
  runnerRegistrations : Dict String ℕ := ∅
  registrations : ℕ → Option RunnerRegistration := fun _ => none
  created : ℕ := 0
  callers : ℕ → Option RegistrationCaller := fun _ => none
  called : ℕ := 0

/-- What an observer of the runner and of the callers sees of one worker. -/
inductive AddEvent
  /-- `add_workers` is called. -/
  | started
  /-- It has returned, and the worker is registered. -/
  | added
  /-- It has raised, or was cancelled. -/
  | failed
  /-- A call of `register_worker` that found a runner with `add_workers`, or the worker registered, has ended. -/
  | answered (outcome : Outcome)
  /-- A call of `register_worker` has returned at once: the runner has no `add_workers`. -/
  | passedBy
  deriving DecidableEq, Repr

namespace RunnerSupervisor

variable (s : RunnerSupervisor)

/-! ## The operations -/

/-- Where the task of a registration stands. -/
def phase (id : ℕ) : Option TaskPhase := (s.registrations id).map fun r => r.task.phase

/-- `register_worker`, up to its `await`: `offered` says whether the runner has an `add_workers`.  A shield around a
task that is done is that task, so the caller is answered at once.  A worker without an id is passed by, under no
name. -/
def registerWorker (worker : RunnerWorker) (offered : Bool) : RunnerSupervisor × List (String × AddEvent) :=
  match worker.workerId with
  | none => (s, [])
  | some workerId =>
    if workerId ∈ s.runnerRegistered then (s, [(workerId, .answered .value)])
    else if !offered then (s, [(workerId, .passedBy)])
    else
      match s.runnerRegistrations.get? workerId with
      | none =>
        ({ s with
            runnerRegistrations := s.runnerRegistrations.set workerId s.created
            registrations := Function.update s.registrations s.created (some { workerId })
            created := s.created + 1
            callers := Function.update s.callers s.called
              (some ⟨workerId, { phase := .suspended (.shield s.created false) }⟩)
            called := s.called + 1 }, [])
      | some id =>
        match s.phase id with
        | some (.done outcome) => (s, [(workerId, .answered outcome)])
        | _ =>
          ({ s with
              callers := Function.update s.callers s.called
                (some ⟨workerId, { phase := .suspended (.shield id false) }⟩)
              called := s.called + 1 }, [])

/-- A registration is given another task. -/
def withTask (id : ℕ) (r : RunnerRegistration) (task : Task) : RunnerSupervisor :=
  { s with registrations := Function.update s.registrations id (some { r with task }) }

/-- `register()` from the call of `add_workers`, or from where it was suspended. -/
def proceed (id : ℕ) (r : RunnerRegistration) : AddResult → RunnerSupervisor × List (String × AddEvent)
  | .pending => (s.withTask id r (r.task.resume (.suspended .outside)), [])
  | .ended .value =>
    ({ s.withTask id r (r.task.resume (.done .value)) with runnerRegistered := insert r.workerId s.runnerRegistered },
      [(r.workerId, .added)])
  | .ended outcome => (s.withTask id r (r.task.resume (.done outcome)), [(r.workerId, .failed)])

/-- The first step of a registration.  A task that was cancelled before it never runs. -/
def begin (id : ℕ) (result : AddResult) : RunnerSupervisor × List (String × AddEvent) :=
  match s.registrations id with
  | none => (s, [])
  | some r =>
    if r.task.phase ≠ .fresh then (s, [])
    else if r.task.mustCancel then (s.withTask id r (r.task.resume (.done .cancelled)), [])
    else ((s.proceed id r result).1, (r.workerId, .started) :: (s.proceed id r result).2)

/-- A later step of a registration: a request to cancel it is thrown into `add_workers`, which may end in any way. -/
def resume (id : ℕ) (result : AddResult) : RunnerSupervisor × List (String × AddEvent) :=
  match s.registrations id with
  | none => (s, [])
  | some r => if r.task.phase = .suspended .outside then s.proceed id r result else (s, [])

/-- `completed`, the done callback of a registration. -/
def completed (id : ℕ) : RunnerSupervisor :=
  match s.registrations id with
  | none => s
  | some r =>
    if r.task.isDone ∧ r.finalized = false then
      { s with
        registrations := Function.update s.registrations id (some { r with finalized := true })
        runnerRegistrations :=
          if s.runnerRegistrations.get? r.workerId = some id then s.runnerRegistrations.pop r.workerId
          else s.runnerRegistrations }
    else s

/-- A caller wakes: it was cancelled, or the registration it waits for has ended. -/
def wake (i : ℕ) : RunnerSupervisor × List (String × AddEvent) :=
  match s.callers i with
  | none => (s, [])
  | some c =>
    let answer outcome : RunnerSupervisor × List (String × AddEvent) :=
      ({ s with callers := Function.update s.callers i (some { c with task := c.task.resume (.done outcome) }) },
        [(c.workerId, .answered outcome)])
    match c.task.phase with
    | .suspended (.shield _ true) => answer .cancelled
    | .suspended (.shield id false) =>
      match s.phase id with
      | some (.done outcome) => answer outcome
      | _ => (s, [])
    | _ => (s, [])

/-- A caller is cancelled. -/
def cancelCaller (i : ℕ) : RunnerSupervisor :=
  { s with callers := Function.update s.callers i ((s.callers i).map fun c => { c with task := c.task.request }) }

/-- A registration is cancelled. -/
def cancelRegistration (id : ℕ) : RunnerSupervisor :=
  { s with
    registrations := Function.update s.registrations id ((s.registrations id).map fun r => { r with task := r.task.request }) }

/-- `cancel_registrations`, up to its `await`. -/
def cancelRegistrations : RunnerSupervisor := s.runnerRegistrations.values.foldl cancelRegistration s

/-- What may happen next. -/
inductive Event
  | registerWorker (worker : RunnerWorker) (offered : Bool)
  | begin (id : ℕ) (result : AddResult)
  | resume (id : ℕ) (result : AddResult)
  | completed (id : ℕ)
  | wake (i : ℕ)
  | cancelCaller (i : ℕ)
  /-- Cancelling the `gather` of `cancel_registrations` cancels what it waits for. -/
  | cancelRegistration (id : ℕ)
  | cancelRegistrations
  deriving Repr

/-- One step. -/
def step : Event → RunnerSupervisor × List (String × AddEvent)
  | .registerWorker worker offered => s.registerWorker worker offered
  | .begin id result => s.begin id result
  | .resume id result => s.resume id result
  | .completed id => (s.completed id, [])
  | .wake i => s.wake i
  | .cancelCaller i => (s.cancelCaller i, [])
  | .cancelRegistration id => (s.cancelRegistration id, [])
  | .cancelRegistrations => (s.cancelRegistrations, [])

end RunnerSupervisor

/-! ## What one worker goes through -/

/-- Where a worker stands with the runner. -/
inductive AddStage
  /-- No `add_workers` is in flight. -/
  | absent
  | adding
  | present
  deriving DecidableEq, Repr

/-- Where a worker stands whose registration is not done with. -/
def AddStage.ofPhase : TaskPhase → AddStage
  | .suspended _ => adding
  | _ => absent

/-- **The protocol of one worker**: one `add_workers` at a time, none after one has returned, and a caller returns
normally only when one has, or when it was passed by before that. -/
def AddStage.next : AddStage → AddEvent → Option AddStage
  | absent, .started => some adding
  | adding, .added => some present
  | adding, .failed => some absent
  | present, .answered _ => some present
  | stage, .answered outcome => if outcome = .value then none else some stage
  | absent, .passedBy => some absent
  | adding, .passedBy => some adding
  | _, _ => none

namespace RunnerSupervisor

variable {s : RunnerSupervisor}

/-- Where the supervisor has a worker. -/
def stage (s : RunnerSupervisor) (workerId : String) : AddStage :=
  if workerId ∈ s.runnerRegistered then .present
  else ((s.runnerRegistrations.get? workerId).bind s.phase).elim .absent AddStage.ofPhase

/-- What concerns one worker. -/
def about (workerId : String) (e : String × AddEvent) : Option AddEvent := if e.1 = workerId then some e.2 else none

theorem filterMap_about_self (workerId : String) (e : AddEvent) (es : List (String × AddEvent)) :
    ((workerId, e) :: es).filterMap (about workerId) = e :: es.filterMap (about workerId) :=
  List.filterMap_cons_some (if_pos rfl)

theorem filterMap_about_of_ne {workerId w : String} (hne : w ≠ workerId) (e : AddEvent) (es : List (String × AddEvent)) :
    ((workerId, e) :: es).filterMap (about w) = es.filterMap (about w) :=
  List.filterMap_cons_none (if_neg hne.symm)

/-! ## The file and the set -/

/-- **The invariant**: what is filed is what has not been taken off, and who is registered has nothing going on. -/
structure Kept (s : RunnerSupervisor) : Prop where
  filed : ∀ w id, s.runnerRegistrations.get? w = some id →
    ∃ r, s.registrations id = some r ∧ r.workerId = w ∧ r.finalized = false
  live : ∀ id r, s.registrations id = some r → r.finalized = false → s.runnerRegistrations.get? r.workerId = some id
  finalized : ∀ id r, s.registrations id = some r → r.finalized = true → r.task.isDone = true
  value : ∀ id r, s.registrations id = some r → r.task.phase = .done .value → r.workerId ∈ s.runnerRegistered
  settled : ∀ id r, s.registrations id = some r → r.workerId ∈ s.runnerRegistered → r.task.isDone = true
  awaits : ∀ id r on, s.registrations id = some r → r.task.phase = .suspended on → on = .outside
  created : ∀ id, s.created ≤ id → s.registrations id = none
  callers : ∀ i c id shut, s.callers i = some c → c.task.phase = .suspended (.shield id shut) →
    ∃ r, s.registrations id = some r ∧ r.workerId = c.workerId

theorem kept_start : Kept {} where
  filed _ _ h := by cases h
  live _ _ h := by cases h
  finalized _ _ h := by cases h
  value _ _ h := by cases h
  settled _ _ h := by cases h
  awaits _ _ _ h := by cases h
  created _ _ := rfl
  callers _ _ _ _ h := by cases h

variable {id : ℕ} {r : RunnerRegistration} {w : String}

theorem phase_of (hr : s.registrations id = some r) : s.phase id = some r.task.phase := by
  rw [phase, hr]
  rfl

theorem stage_of_registered (h : w ∈ s.runnerRegistered) : s.stage w = .present := if_pos h

theorem stage_of_unfiled (h : w ∉ s.runnerRegistered) (hnone : s.runnerRegistrations.get? w = none) : s.stage w = .absent := by
  rw [stage, if_neg h, hnone]
  rfl

/-- Where a worker stands whose registration is filed. -/
theorem stage_of_filed (h : w ∉ s.runnerRegistered) (hfiled : s.runnerRegistrations.get? w = some id)
    (hr : s.registrations id = some r) :
    s.stage w = .ofPhase r.task.phase := by
  rw [stage, if_neg h, hfiled, Option.bind_some, phase_of hr]
  rfl

/-- A worker stands where it stood if its set, its file and its filed task are as they were. -/
theorem stage_congr {s' : RunnerSupervisor} (hset : w ∈ s'.runnerRegistered ↔ w ∈ s.runnerRegistered)
    (hget : s'.runnerRegistrations.get? w = s.runnerRegistrations.get? w)
    (hphase : ∀ id, s.runnerRegistrations.get? w = some id → s'.phase id = s.phase id) : s'.stage w = s.stage w := by
  rw [stage, stage, hget]
  simp only [hset]
  rcases hfiled : s.runnerRegistrations.get? w with _ | id
  · rfl
  · rw [Option.bind_some, Option.bind_some, hphase id hfiled]

theorem Kept.unfinalized (h : Kept s) (hr : s.registrations id = some r) (hdone : r.task.isDone = false) :
    r.finalized = false := by
  by_contra hfinal
  rw [h.finalized id r hr (Bool.not_eq_false _ ▸ hfinal)] at hdone
  cases hdone

theorem Kept.unregistered (h : Kept s) (hr : s.registrations id = some r) (hdone : r.task.isDone = false) :
    r.workerId ∉ s.runnerRegistered := by
  intro hin
  rw [h.settled id r hr hin] at hdone
  cases hdone

/-- What is filed under another worker is another registration. -/
theorem Kept.filed_ne (h : Kept s) (hr : s.registrations id = some r) (hw : w ≠ r.workerId) {id' : ℕ}
    (hfiled : s.runnerRegistrations.get? w = some id') : id' ≠ id := by
  rintro rfl
  obtain ⟨r', hr', hworker, -⟩ := h.filed w id' hfiled
  rw [hr] at hr'
  exact hw (hworker.symm.trans (congrArg RunnerRegistration.workerId (Option.some.inj hr').symm))

/-! ## A step of a registration -/

/-- The task of a registration goes on, and its worker may be registered on the way. -/
def advance (s : RunnerSupervisor) (id : ℕ) (r : RunnerRegistration) (task : Task) (registered : Finset String) :
    RunnerSupervisor :=
  { s.withTask id r task with runnerRegistered := registered }

variable {task : Task} {registered : Finset String}

theorem registrations_advance (id' : ℕ) : (s.advance id r task registered).registrations id'
    = if id' = id then some { r with task } else s.registrations id' := Function.update_apply ..

theorem phase_advance_self : (s.advance id r task registered).phase id = some task.phase := by
  rw [phase, registrations_advance, if_pos rfl]
  rfl

theorem phase_advance_of_ne {id' : ℕ} (hne : id' ≠ id) : (s.advance id r task registered).phase id' = s.phase id' := by
  rw [phase, phase, registrations_advance, if_neg hne]

/-- **A step of a registration keeps the file**, if it registers nobody but its own worker, and that at its end. -/
theorem Kept.advance (h : Kept s) (hr : s.registrations id = some r) (hsub : s.runnerRegistered ⊆ registered)
    (hgrow : ∀ w ∈ registered, w ∈ s.runnerRegistered ∨ w = r.workerId ∧ r.finalized = false)
    (hfinal : r.finalized = true → task.isDone = true) (hvalue : task.phase = .done .value → r.workerId ∈ registered)
    (hsettled : r.workerId ∈ registered → task.isDone = true) (hawaits : ∀ on, task.phase = .suspended on → on = .outside) :
    Kept (s.advance id r task registered) := by
  have hcases : ∀ {id' r'}, (s.advance id r task registered).registrations id' = some r' →
      id' = id ∧ { r with task } = r' ∨ id' ≠ id ∧ s.registrations id' = some r' := by
    intro id' r' hr'
    rw [registrations_advance] at hr'
    split_ifs at hr' with hid
    · exact .inl ⟨hid, Option.some.inj hr'⟩
    · exact .inr ⟨hid, hr'⟩
  refine ⟨fun w id' hfiled => ?_, fun id' r' hr' hlive => ?_, fun id' r' hr' hfin => ?_, fun id' r' hr' hend => ?_,
    fun id' r' hr' hin => ?_, fun id' r' on hr' hon => ?_, fun id' hid => ?_, fun i c id' shut hc hshield => ?_⟩
  · obtain ⟨r', hr', hworker, hlive⟩ := h.filed w id' hfiled
    rw [registrations_advance]
    split_ifs with hid
    · obtain rfl : r = r' := Option.some.inj (hr.symm.trans (hid ▸ hr'))
      exact ⟨_, rfl, hworker, hlive⟩
    · exact ⟨r', hr', hworker, hlive⟩
  · rcases hcases hr' with ⟨rfl, rfl⟩ | ⟨-, hr'⟩
    · exact h.live _ r hr hlive
    · exact h.live id' r' hr' hlive
  · rcases hcases hr' with ⟨rfl, rfl⟩ | ⟨-, hr'⟩
    · exact hfinal hfin
    · exact h.finalized id' r' hr' hfin
  · rcases hcases hr' with ⟨rfl, rfl⟩ | ⟨-, hr'⟩
    · exact hvalue hend
    · exact hsub (h.value id' r' hr' hend)
  · rcases hcases hr' with ⟨rfl, rfl⟩ | ⟨hid, hr'⟩
    · exact hsettled hin
    · rcases hgrow _ hin with hold | ⟨hworker, hlive⟩
      · exact h.settled id' r' hr' hold
      · -- two live registrations of one worker would be filed together
        refine h.finalized id' r' hr' (Bool.eq_true_of_not_eq_false fun hlive' => hid ?_)
        have hfiled := h.live id' r' hr' hlive'
        rw [hworker, h.live id r hr hlive] at hfiled
        exact (Option.some.inj hfiled).symm
  · rcases hcases hr' with ⟨rfl, rfl⟩ | ⟨-, hr'⟩
    · exact hawaits on hon
    · exact h.awaits id' r' on hr' hon
  · have hnone := h.created id' hid
    rw [registrations_advance, if_neg, hnone]
    rintro rfl
    exact Option.some_ne_none _ (hr.symm.trans hnone)
  · obtain ⟨r', hr', hworker⟩ := h.callers i c id' shut hc hshield
    rw [registrations_advance]
    split_ifs with hid
    · obtain rfl : r = r' := Option.some.inj (hr.symm.trans (hid ▸ hr'))
      exact ⟨_, rfl, hworker⟩
    · exact ⟨r', hr', hworker⟩

theorem Kept.stage_advance_of_ne (h : Kept s) (hr : s.registrations id = some r)
    (hset : w ∈ registered ↔ w ∈ s.runnerRegistered) (hw : w ≠ r.workerId) :
    (s.advance id r task registered).stage w = s.stage w :=
  stage_congr hset rfl fun _ hfiled => phase_advance_of_ne (h.filed_ne hr hw hfiled)

/-- Where the worker of a registration stands that goes on without registering it. -/
theorem Kept.stage_advance_self (h : Kept s) (hr : s.registrations id = some r) (hlive : r.finalized = false)
    (hnot : r.workerId ∉ registered) : (s.advance id r task registered).stage r.workerId = .ofPhase task.phase := by
  have hthere : (s.advance id r task registered).registrations id = some { r with task } := by
    rw [registrations_advance, if_pos rfl]
  exact stage_of_filed (s := s.advance id r task registered) hnot (h.live id r hr hlive) hthere

/-- A step keeps the invariant, and what is seen of it follows the protocol of every worker. -/
def Serial (s : RunnerSupervisor) (r : RunnerSupervisor × List (String × AddEvent)) : Prop :=
  Kept r.1 ∧ ∀ w, Follows AddStage.next (s.stage w) (r.2.filterMap (about w)) (r.1.stage w)

/-- A step that shows nothing and moves nobody. -/
theorem serial_silent {s' : RunnerSupervisor} (h : Kept s') (hstage : ∀ w, s'.stage w = s.stage w) : Serial s (s', []) :=
  ⟨h, fun w => by rw [hstage]; exact .refl _⟩

/-- A step that answers one caller. -/
theorem serial_answered {s' : RunnerSupervisor} (h : Kept s') (hstage : ∀ w, s'.stage w = s.stage w) {outcome : Outcome}
    (hvalue : outcome = .value → w ∈ s.runnerRegistered) : Serial s (s', [(w, .answered outcome)]) := by
  refine ⟨h, fun w' => ?_⟩
  rw [hstage]
  by_cases hw : w' = w
  · subst hw
    rw [filterMap_about_self, List.filterMap_nil]
    refine .single ?_
    by_cases hin : w' ∈ s.runnerRegistered
    · rw [stage_of_registered hin, AddStage.next]
    · have hne : outcome ≠ .value := fun hc => hin (hvalue hc)
      rcases s.stage w' with _ | _ | _
      · exact if_neg hne
      · exact if_neg hne
      · rfl
  · rw [filterMap_about_of_ne hw, List.filterMap_nil]
    exact .refl _

/-- Who is not registered does not stand as present. -/
theorem stage_of_not_registered (h : w ∉ s.runnerRegistered) : s.stage w = .absent ∨ s.stage w = .adding := by
  rw [stage, if_neg h]
  rcases (s.runnerRegistrations.get? w).bind s.phase with _ | (_ | _ | _)
  · exact .inl rfl
  · exact .inl rfl
  · exact .inr rfl
  · exact .inl rfl

/-- A call that finds no `add_workers`. -/
theorem serial_passedBy (h : Kept s) (hnot : w ∉ s.runnerRegistered) : Serial s (s, [(w, .passedBy)]) := by
  refine ⟨h, fun w' => ?_⟩
  by_cases hw : w' = w
  · subst hw
    rw [filterMap_about_self, List.filterMap_nil]
    refine .single ?_
    rcases stage_of_not_registered hnot with hstage | hstage
    · rw [hstage, AddStage.next]
    · rw [hstage, AddStage.next]
  · rw [filterMap_about_of_ne hw, List.filterMap_nil]
    exact .refl _

/-- **`register()` goes on** for a worker whose `add_workers` is in flight. -/
theorem Kept.proceed (h : Kept s) (hr : s.registrations id = some r) (hopen : r.task.isDone = false) (result : AddResult) :
    Kept (s.proceed id r result).1 ∧ ∀ w, Follows AddStage.next (if w = r.workerId then .adding else s.stage w)
      ((s.proceed id r result).2.filterMap (about w)) ((s.proceed id r result).1.stage w) := by
  have hlive := h.unfinalized hr hopen
  have hnot := h.unregistered hr hopen
  have hold : ∀ w ∈ s.runnerRegistered, w ∈ s.runnerRegistered ∨ w = r.workerId ∧ r.finalized = false := fun w hw => .inl hw
  have hfinal : ∀ task : Task, r.finalized = true → task.isDone = true := fun _ hc => by
    rw [hlive] at hc
    cases hc
  -- a task that ends without registering its worker
  have hfailed : ∀ outcome, outcome ≠ .value → Kept (s.withTask id r (r.task.resume (.done outcome))) ∧
      ∀ w, Follows AddStage.next (if w = r.workerId then .adding else s.stage w)
        ([(r.workerId, AddEvent.failed)].filterMap (about w)) ((s.withTask id r (r.task.resume (.done outcome))).stage w) := by
    intro outcome hne
    refine ⟨h.advance hr (Finset.Subset.refl _) hold (hfinal _) (fun hc => absurd (TaskPhase.done.inj hc) hne)
      (fun _ => rfl) (fun _ hc => by cases hc), fun w => ?_⟩
    by_cases hw : w = r.workerId
    · rw [hw, if_pos rfl, filterMap_about_self, List.filterMap_nil]
      have hstage : (s.advance id r (r.task.resume (.done outcome)) s.runnerRegistered).stage r.workerId = .absent :=
        h.stage_advance_self hr hlive hnot
      exact .single (congrArg some hstage.symm)
    · rw [if_neg hw, filterMap_about_of_ne hw, List.filterMap_nil]
      refine Eq.symm (congrArg some ?_)
      exact h.stage_advance_of_ne hr Iff.rfl hw
  rcases result with _ | outcome
  · refine ⟨h.advance hr (Finset.Subset.refl _) hold (hfinal _) (fun hc => by cases hc)
      (fun hin => absurd hin hnot) (fun on hc => (TaskPhase.suspended.inj hc).symm), fun w => ?_⟩
    refine Eq.symm (congrArg some ?_)
    by_cases hw : w = r.workerId
    · rw [hw, if_pos rfl]
      exact h.stage_advance_self hr hlive hnot
    · rw [if_neg hw]
      exact h.stage_advance_of_ne hr Iff.rfl hw
  rcases outcome with _ | _ | _
  · refine ⟨h.advance hr (Finset.subset_insert _ _) (fun w hw => ?_) (hfinal _) (fun _ => Finset.mem_insert_self _ _)
      (fun _ => rfl) (fun _ hc => by cases hc), fun w => ?_⟩
    · exact (Finset.mem_insert.mp hw).symm.imp_right fun heq => ⟨heq, hlive⟩
    by_cases hw : w = r.workerId
    · rw [hw, if_pos rfl]
      refine .trans ?_ (congrArg some (stage_of_registered (Finset.mem_insert_self _ _)).symm)
      rw [RunnerSupervisor.proceed, filterMap_about_self]
      rfl
    · rw [if_neg hw]
      have hlabels : (s.proceed id r (.ended .value)).2.filterMap (about w) = [] := by
        rw [RunnerSupervisor.proceed]
        exact filterMap_about_of_ne hw _ _
      rw [hlabels]
      refine Eq.symm (congrArg some ?_)
      exact h.stage_advance_of_ne hr (by rw [Finset.mem_insert, or_iff_right hw]) hw
  · exact hfailed .raised Outcome.noConfusion
  · exact hfailed .cancelled Outcome.noConfusion

/-! ## The operations keep the protocol -/

/-- A caller more, or a caller that goes on, moves nobody. -/
theorem Kept.callers_update (h : Kept s) (i n : ℕ) (c : RegistrationCaller)
    (hc : ∀ id shut, c.task.phase = .suspended (.shield id shut) →
      ∃ r, s.registrations id = some r ∧ r.workerId = c.workerId) :
    Kept { s with callers := Function.update s.callers i (some c), called := n } := by
  refine { h with callers := fun i' c' id shut hc' hshield => ?_ }
  dsimp only at hc'
  rw [Function.update_apply] at hc'
  split_ifs at hc'
  · obtain rfl := Option.some.inj hc'
    exact hc id shut hshield
  · exact h.callers i' c' id shut hc' hshield

/-- A new registration is filed, and waits to be run. -/
theorem Kept.create (h : Kept s) (hnot : w ∉ s.runnerRegistered) (hfree : s.runnerRegistrations.get? w = none) :
    let s' := { s with
      runnerRegistrations := s.runnerRegistrations.set w s.created
      registrations := Function.update s.registrations s.created (some { workerId := w })
      created := s.created + 1 }
    Kept s' ∧ ∀ w', s'.stage w' = s.stage w' := by
  intro s'
  have hnew : s.registrations s.created = none := h.created _ le_rfl
  have hreg : ∀ id', s'.registrations id' = if id' = s.created then some { workerId := w } else s.registrations id' :=
    fun id' => Function.update_apply ..
  have hfile : ∀ w', s'.runnerRegistrations.get? w' = if w' = w then some s.created else s.runnerRegistrations.get? w' :=
    fun w' => Dict.get?_set ..
  have hold : ∀ {id' r'}, s.registrations id' = some r' → s'.registrations id' = some r' := by
    intro id' r' hr'
    rw [hreg, if_neg, hr']
    rintro rfl
    exact Option.some_ne_none _ (hr'.symm.trans hnew)
  have hcases : ∀ {id' r'}, s'.registrations id' = some r' →
      id' = s.created ∧ r' = { workerId := w } ∨ s.registrations id' = some r' := by
    intro id' r' hr'
    rw [hreg] at hr'
    split_ifs at hr' with hid
    · exact .inl ⟨hid, (Option.some.inj hr').symm⟩
    · exact .inr hr'
  refine ⟨⟨fun w' id' hfiled => ?_, fun id' r' hr' hlive => ?_, fun id' r' hr' hfin => ?_, fun id' r' hr' hend => ?_,
    fun id' r' hr' hin => ?_, fun id' r' on hr' hon => ?_, fun id' hid => ?_, fun i c id' shut hc hshield => ?_⟩,
    fun w' => ?_⟩
  · rw [hfile] at hfiled
    split_ifs at hfiled with hw
    · exact ⟨_, by rw [hreg, if_pos (Option.some.inj hfiled).symm], hw.symm, rfl⟩
    · obtain ⟨r', hr', hworker, hlive⟩ := h.filed w' id' hfiled
      exact ⟨r', hold hr', hworker, hlive⟩
  · rw [hfile]
    rcases hcases hr' with ⟨rfl, rfl⟩ | hr'
    · exact if_pos rfl
    · have hfiled := h.live id' r' hr' hlive
      rw [if_neg, hfiled]
      intro hw
      rw [hw, hfree] at hfiled
      cases hfiled
  · rcases hcases hr' with ⟨-, rfl⟩ | hr'
    · cases hfin
    · exact h.finalized id' r' hr' hfin
  · rcases hcases hr' with ⟨-, rfl⟩ | hr'
    · cases hend
    · exact h.value id' r' hr' hend
  · rcases hcases hr' with ⟨-, rfl⟩ | hr'
    · exact absurd hin hnot
    · exact h.settled id' r' hr' hin
  · rcases hcases hr' with ⟨-, rfl⟩ | hr'
    · cases hon
    · exact h.awaits id' r' on hr' hon
  · have hlt : s.created < id' := hid
    rw [hreg, if_neg hlt.ne']
    exact h.created id' hlt.le
  · obtain ⟨r', hr', hworker⟩ := h.callers i c id' shut hc hshield
    exact ⟨r', hold hr', hworker⟩
  · by_cases hw : w' = w
    · subst hw
      have hthere : s'.registrations s.created = some { workerId := w' } := by rw [hreg, if_pos rfl]
      rw [stage_of_unfiled hnot hfree]
      exact stage_of_filed (s := s') hnot ((hfile w').trans (if_pos rfl)) hthere
    · refine stage_congr Iff.rfl ((hfile w').trans (if_neg hw)) fun id' hfiled => ?_
      obtain ⟨r', hr', -, -⟩ := h.filed w' id' hfiled
      rw [phase_of hr', phase_of (s := s') (hold hr')]

theorem Kept.registerWorker (h : Kept s) (worker : RunnerWorker) (offered : Bool) :
    Serial s (s.registerWorker worker offered) := by
  rw [RunnerSupervisor.registerWorker]
  rcases worker.workerId with _ | w
  · exact serial_silent h fun _ => rfl
  dsimp only
  by_cases hin : w ∈ s.runnerRegistered
  · rw [if_pos hin]
    exact serial_answered h (fun _ => rfl) fun _ => hin
  rw [if_neg hin]
  rcases offered with _ | _
  · exact serial_passedBy h hin
  rw [if_neg (by decide)]
  rcases hfiled : s.runnerRegistrations.get? w with _ | id
  · obtain ⟨hkept, hstage⟩ := h.create hin hfiled
    refine serial_silent (hkept.callers_update s.called _ _ fun id shut hshield => ?_) hstage
    cases hshield
    exact ⟨_, Function.update_self .., rfl⟩
  obtain ⟨r, hr, hworker, -⟩ := h.filed w id hfiled
  have hwaits : Serial s ({ s with
      callers := Function.update s.callers s.called (some ⟨w, { phase := .suspended (.shield id false) }⟩)
      called := s.called + 1 }, []) := by
    refine serial_silent (h.callers_update s.called _ _ fun id' shut hshield => ?_) fun _ => rfl
    cases hshield
    exact ⟨r, hr, hworker⟩
  dsimp only
  rw [phase_of hr]
  rcases hphase : r.task.phase with _ | on | outcome
  · exact hwaits
  · exact hwaits
  · refine serial_answered h (fun _ => rfl) fun hvalue => ?_
    exact hworker ▸ h.value id r hr (hvalue ▸ hphase)

theorem Kept.begin (h : Kept s) (id : ℕ) (result : AddResult) : Serial s (s.begin id result) := by
  rw [RunnerSupervisor.begin]
  rcases hr : s.registrations id with _ | r
  · exact serial_silent h fun _ => rfl
  dsimp only
  by_cases hfresh : r.task.phase ≠ .fresh
  · rw [if_pos hfresh]
    exact serial_silent h fun _ => rfl
  rw [if_neg hfresh]
  rw [not_not] at hfresh
  have hopen : r.task.isDone = false := by rw [Task.isDone, hfresh]
  have hlive := h.unfinalized hr hopen
  have hnot := h.unregistered hr hopen
  have habsent : s.stage r.workerId = .absent := by
    rw [stage_of_filed hnot (h.live id r hr hlive) hr, hfresh]
    rfl
  by_cases hcancelled : r.task.mustCancel = true
  · rw [if_pos hcancelled]
    refine serial_silent (h.advance hr (Finset.Subset.refl _) (fun w hw => .inl hw) (fun _ => rfl) (fun hc => by cases hc)
      (fun _ => rfl) (fun _ hc => by cases hc)) fun w => ?_
    by_cases hw : w = r.workerId
    · rw [hw, habsent]
      exact h.stage_advance_self hr hlive hnot
    · exact h.stage_advance_of_ne hr Iff.rfl hw
  · rw [if_neg hcancelled]
    obtain ⟨hkept, hfollows⟩ := h.proceed hr hopen result
    refine ⟨hkept, fun w => ?_⟩
    have hw := hfollows w
    dsimp only
    by_cases hself : w = r.workerId
    · rw [if_pos hself] at hw
      rw [hself, habsent, filterMap_about_self]
      exact follows_cons_iff.mpr ⟨.adding, rfl, hself ▸ hw⟩
    · rw [if_neg hself] at hw
      rw [filterMap_about_of_ne hself]
      exact hw

theorem Kept.resume (h : Kept s) (id : ℕ) (result : AddResult) : Serial s (s.resume id result) := by
  rw [RunnerSupervisor.resume]
  rcases hr : s.registrations id with _ | r
  · exact serial_silent h fun _ => rfl
  dsimp only
  by_cases hphase : r.task.phase = .suspended .outside
  · rw [if_pos hphase]
    have hopen : r.task.isDone = false := by rw [Task.isDone, hphase]
    have hadding : s.stage r.workerId = .adding := by
      rw [stage_of_filed (h.unregistered hr hopen) (h.live id r hr (h.unfinalized hr hopen)) hr, hphase]
      rfl
    obtain ⟨hkept, hfollows⟩ := h.proceed hr hopen result
    refine ⟨hkept, fun w => ?_⟩
    have hw := hfollows w
    split_ifs at hw with hself
    · rwa [hself, hadding, ← hself]
    · exact hw
  · rw [if_neg hphase]
    exact serial_silent h fun _ => rfl

/-- **The done callback takes off the file what is done with**, and nothing else. -/
theorem Kept.completed (h : Kept s) (id : ℕ) : Serial s (s.completed id, []) := by
  rw [RunnerSupervisor.completed]
  rcases hr : s.registrations id with _ | r
  · exact serial_silent h fun _ => rfl
  dsimp only
  split_ifs with hdone hfiled
  · have hreg : ∀ id', Function.update s.registrations id (some { r with finalized := true }) id'
        = if id' = id then some { r with finalized := true } else s.registrations id' := fun id' => Function.update_apply ..
    have hcases : ∀ {id' r'}, Function.update s.registrations id (some { r with finalized := true }) id' = some r' →
        id' = id ∧ r' = { r with finalized := true } ∨ id' ≠ id ∧ s.registrations id' = some r' := by
      intro id' r' hr'
      rw [hreg] at hr'
      split_ifs at hr' with hid
      · exact .inl ⟨hid, (Option.some.inj hr').symm⟩
      · exact .inr ⟨hid, hr'⟩
    refine serial_silent ⟨fun w id' hw => ?_, fun id' r' hr' hlive => ?_, fun id' r' hr' hfin => ?_, fun id' r' hr' hend => ?_,
      fun id' r' hr' hin => ?_, fun id' r' on hr' hon => ?_, fun id' hid => ?_, fun i c id' shut hc hshield => ?_⟩ fun w => ?_
    · dsimp only at hw ⊢
      rw [Dict.get?_pop] at hw
      split_ifs at hw with hself
      obtain ⟨r', hr', hworker, hlive⟩ := h.filed w id' hw
      exact ⟨r', by rw [hreg, if_neg (h.filed_ne hr hself hw), hr'], hworker, hlive⟩
    · rcases hcases hr' with ⟨-, rfl⟩ | ⟨hid, hr'⟩
      · cases hlive
      · have hthere := h.live id' r' hr' hlive
        dsimp only
        rw [Dict.get?_pop, if_neg, hthere]
        intro hworker
        rw [hworker, hfiled] at hthere
        exact hid (Option.some.inj hthere).symm
    · rcases hcases hr' with ⟨-, rfl⟩ | ⟨-, hr'⟩
      · exact hdone.1
      · exact h.finalized id' r' hr' hfin
    · rcases hcases hr' with ⟨-, rfl⟩ | ⟨-, hr'⟩
      · exact h.value id r hr hend
      · exact h.value id' r' hr' hend
    · rcases hcases hr' with ⟨-, rfl⟩ | ⟨-, hr'⟩
      · exact hdone.1
      · exact h.settled id' r' hr' hin
    · rcases hcases hr' with ⟨-, rfl⟩ | ⟨-, hr'⟩
      · exact h.awaits id r on hr hon
      · exact h.awaits id' r' on hr' hon
    · have hnone := h.created id' hid
      dsimp only
      rw [hreg, if_neg, hnone]
      rintro rfl
      exact Option.some_ne_none _ (hr.symm.trans hnone)
    · obtain ⟨r', hr', hworker⟩ := h.callers i c id' shut hc hshield
      dsimp only
      rw [hreg]
      split_ifs with hid
      · obtain rfl : r = r' := Option.some.inj (hr.symm.trans (hid ▸ hr'))
        exact ⟨_, rfl, hworker⟩
      · exact ⟨r', hr', hworker⟩
    · by_cases hw : w = r.workerId
      · by_cases hin : w ∈ s.runnerRegistered
        · rw [stage_of_registered hin]
          exact stage_of_registered hin
        · subst hw
          obtain ⟨outcome, houtcome⟩ := Task.isDone_iff.mp hdone.1
          rw [stage_of_filed hin hfiled hr, houtcome]
          refine stage_of_unfiled hin ?_
          exact (Dict.get?_pop ..).trans (if_pos rfl)
      · refine stage_congr Iff.rfl ((Dict.get?_pop ..).trans (if_neg hw)) fun id' hid' => ?_
        dsimp only [RunnerSupervisor.phase]
        rw [hreg, if_neg (h.filed_ne hr hw hid')]
  · exact absurd (h.live id r hr hdone.2) hfiled
  · exact serial_silent h fun _ => rfl

theorem Kept.wake (h : Kept s) (i : ℕ) : Serial s (s.wake i) := by
  rw [RunnerSupervisor.wake]
  rcases hc : s.callers i with _ | c
  · exact serial_silent h fun _ => rfl
  have hanswer : ∀ outcome, (outcome = .value → c.workerId ∈ s.runnerRegistered) → Serial s
      ({ s with callers := Function.update s.callers i (some { c with task := c.task.resume (.done outcome) }) },
        [(c.workerId, .answered outcome)]) := fun outcome hvalue =>
    serial_answered (h.callers_update i s.called _ fun _ _ hshield => by cases hshield) (fun _ => rfl) hvalue
  dsimp only
  rcases hphase : c.task.phase with _ | (_ | ⟨id, _ | _⟩ | _) | _
  case suspended.shield.false =>
    obtain ⟨r, hr, hworker⟩ := h.callers i c id false hc hphase
    dsimp only
    rw [phase_of hr]
    rcases hend : r.task.phase with _ | _ | outcome
    · exact serial_silent h fun _ => rfl
    · exact serial_silent h fun _ => rfl
    · exact hanswer outcome fun hvalue => hworker ▸ h.value id r hr (hvalue ▸ hend)
  case suspended.shield.true => exact hanswer .cancelled Outcome.noConfusion
  all_goals exact serial_silent h fun _ => rfl

theorem Kept.cancelCaller (h : Kept s) (i : ℕ) : Serial s (s.cancelCaller i, []) := by
  rw [RunnerSupervisor.cancelCaller]
  rcases hc : s.callers i with _ | c
  · rw [Option.map_none, ← hc, Function.update_eq_self]
    exact serial_silent h fun _ => rfl
  rw [Option.map_some]
  refine serial_silent (h.callers_update i s.called _ fun id shut hshield => ?_) fun _ => rfl
  rcases (Task.disturbed_request c.task).2 with hsame | ⟨j, shut', hbefore, hafter, -⟩
  · exact h.callers i c id shut hc (hsame.symm.trans hshield)
  · rw [hafter] at hshield
    cases hshield
    exact h.callers i c _ shut' hc hbefore

/-- **Cancelling a registration moves nobody**: a request is noted, and comes in when the task runs. -/
theorem Kept.cancelRegistration (h : Kept s) (id : ℕ) : Serial s (s.cancelRegistration id, []) := by
  rw [RunnerSupervisor.cancelRegistration]
  rcases hr : s.registrations id with _ | r
  · rw [Option.map_none, ← hr, Function.update_eq_self]
    exact serial_silent h fun _ => rfl
  have hphase : r.task.request.phase = r.task.phase := by
    rcases (Task.disturbed_request r.task).2 with hsame | ⟨j, shut, hbefore, -, -⟩
    · exact hsame
    · cases h.awaits id r _ hr hbefore
  have hdone : r.task.request.isDone = r.task.isDone := by rw [Task.isDone, Task.isDone, hphase]
  refine serial_silent (h.advance hr (Finset.Subset.refl _) (fun w hw => .inl hw)
    (fun hfin => hdone.trans (h.finalized id r hr hfin)) (fun hvalue => h.value id r hr (hphase.symm.trans hvalue))
    (fun hin => hdone.trans (h.settled id r hr hin)) fun on hon => h.awaits id r on hr (hphase.symm.trans hon)) fun w => ?_
  refine stage_congr Iff.rfl rfl fun id' _ => ?_
  by_cases hid : id' = id
  · rw [hid, phase_of hr, ← hphase]
    exact phase_advance_self
  · exact phase_advance_of_ne hid

theorem Kept.cancelRegistrations (h : Kept s) : Serial s (s.cancelRegistrations, []) := by
  have hall : ∀ (ids : List ℕ) (s' : RunnerSupervisor), Kept s' → Serial s' (ids.foldl RunnerSupervisor.cancelRegistration s', []) := by
    intro ids
    induction ids with
    | nil => exact fun s' h' => serial_silent h' fun _ => rfl
    | cons id ids ih =>
      intro s' h'
      obtain ⟨hkept, hfollows⟩ := h'.cancelRegistration id
      obtain ⟨hkept', hfollows'⟩ := ih _ hkept
      exact ⟨hkept', fun w => (hfollows w).append (hfollows' w)⟩
  exact hall _ s h

/-- **One step keeps the protocol.** -/
theorem Kept.step (h : Kept s) (e : Event) : Serial s (s.step e) := by
  cases e with
  | registerWorker worker offered => exact h.registerWorker worker offered
  | begin id result => exact h.begin id result
  | resume id result => exact h.resume id result
  | completed id => exact h.completed id
  | wake i => exact h.wake i
  | cancelCaller i => exact h.cancelCaller i
  | cancelRegistration id => exact h.cancelRegistration id
  | cancelRegistrations => exact h.cancelRegistrations

theorem kept_run (es : List Event) : Kept (run (fun s e => (s.step e).1) {} es) :=
  run_invariant_of_step (fun _ e h => (h.step e).1) kept_start es

/-- **Registrations are coalesced.**  Whoever calls, in whatever order, and whoever is cancelled: each worker goes
through `AddStage`, one `add_workers` at a time and none after one has returned, and a caller that returns normally
finds the worker registered, unless the runner it found had no `add_workers`.  What is filed is what has not been
taken off, so that a worker whose registration has failed and has been taken off is tried again. -/
theorem registrations_serial (es : List Event) (w : String) :
    let s := run (fun s e => (RunnerSupervisor.step s e).1) {} es
    Follows AddStage.next .absent ((outputs RunnerSupervisor.step {} es).filterMap (about w)) (s.stage w) ∧
      ∀ id, s.runnerRegistrations.get? w = some id ↔
        ∃ r, s.registrations id = some r ∧ r.workerId = w ∧ r.finalized = false := by
  refine ⟨?_, fun id => ⟨(kept_run es).filed w id, ?_⟩⟩
  · exact follows_outputs (fun s : RunnerSupervisor => s.stage w) (fun s e h => ⟨(h.step e).1, (h.step e).2 w⟩)
      kept_start es
  · rintro ⟨r, hr, rfl, hlive⟩
    exact (kept_run es).live id r hr hlive

end RunnerSupervisor

end SubagentsLab

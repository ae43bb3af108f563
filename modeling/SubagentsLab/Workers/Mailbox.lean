import Mathlib.Data.List.Induction
import SubagentsLab.Machinery.Runs
import SubagentsLab.Machinery.Tasks

/-!
# Workers/Mailbox — the causal mailbox of a context worker

`ContextWorker.submit` chains its operations: submission `j` is a task that awaits the task of
submission `j - 1`, swallows whatever that await raises, and then runs its own operation; its caller
awaits the task.  The await is direct, so a cancelled caller cancels its task, hence the task's
predecessor, and so on down to the operation that is running (`chain_cancellation_leaks`).  Every
cancellation that hits an operation already running, or a task that has not run and has nothing to
wait for, stays where it belongs, and then the mailbox is what it is meant to be
(`mailbox_isolated`): operations run one at a time, in submission order, and nobody's cancellation
reaches anybody else.
-/

namespace SubagentsLab

open Machinery

/-- `ContextWorker.status`. -/
inductive WorkerStatus
  | idle
  | running
  deriving DecidableEq, Repr

/-- A context worker's mailbox.  SubmitCall `j`'s task is task `j`, and `previous j` is the tail its
`run` closed over. -/
structure Mailbox where
  tasks : ℕ → Task := fun _ => {}
  previous : ℕ → Option ℕ := fun _ => none
  submitted : ℕ := 0
  tail : Option ℕ := none
  status : WorkerStatus := .idle

namespace Mailbox

/-- What can happen to a mailbox. -/
inductive Event
  /-- `submit(operation)` is called: its task is created, the caller awaits it. -/
  | submit
  /-- The loop takes the first step of submission `j`'s task. -/
  | start (j : ℕ)
  /-- The loop resumes submission `j`'s task, whose predecessor is done. -/
  | wake (j : ℕ)
  /-- The operation of submission `j` ends. -/
  | finish (j : ℕ) (outcome : Outcome)
  /-- The caller of submission `j` is cancelled. -/
  | cancelCaller (j : ℕ)
  deriving DecidableEq, Repr

/-- The predecessor of submission `j` is absent or done: `await previous` does not suspend. -/
def unblocked (s : Mailbox) (j : ℕ) : Bool :=
  match s.previous j with
  | none => true
  | some p => (s.tasks p).isDone

/-- `run` calls its operation. -/
def callOperation (s : Mailbox) (j : ℕ) : Mailbox :=
  { s with
    tasks := Function.update s.tasks j ((s.tasks j).resume (.suspended .outside))
    status := .running }

/-- One step of the mailbox, with the submissions whose operation it starts. -/
def step (s : Mailbox) : Event → Mailbox × List ℕ
  | .submit =>
    ({ s with
        tasks := Function.update s.tasks s.submitted {}
        previous := Function.update s.previous s.submitted s.tail
        submitted := s.submitted + 1
        tail := some s.submitted }, [])
  | .start j =>
    if j < s.submitted ∧ (s.tasks j).phase = .fresh then
      if (s.tasks j).mustCancel then
        ({ s with tasks := Function.update s.tasks j ((s.tasks j).resume (.done .cancelled)) }, [])
      else if s.unblocked j then (s.callOperation j, [j])
      else
        let on := Awaiting.task ((s.previous j).getD 0)
        ({ s with tasks := Function.update s.tasks j ((s.tasks j).resume (.suspended on)) }, [])
    else (s, [])
  | .wake j =>
    match (s.tasks j).phase with
    | .suspended (.task p) =>
      -- whatever `await previous` raises is swallowed, a cancellation of this very task included
      if (s.tasks p).isDone then (s.callOperation j, [j]) else (s, [])
    | _ => (s, [])
  | .finish j outcome =>
    if (s.tasks j).phase = .suspended .outside then
      ({ s with
          tasks := Function.update s.tasks j ((s.tasks j).resume (.done outcome))
          status := .idle }, [])
    else (s, [])
  | .cancelCaller j =>
    if j < s.submitted then ({ s with tasks := (cancel s.submitted s.tasks j).1 }, []) else (s, [])

/-- The mailbox after a run. -/
def after (es : List Event) : Mailbox := run (fun s e => (step s e).1) {} es

/-- The submissions whose operation a run starts, in order. -/
def starts (es : List Event) : List ℕ := outputs step {} es

/-- The operation of submission `j` is running. -/
def Operating (s : Mailbox) (j : ℕ) : Prop := (s.tasks j).phase = .suspended .outside

/-- The operation of submission `j` has not started and `j` is not over. -/
def Unstarted (s : Mailbox) (j : ℕ) : Prop :=
  j < s.submitted ∧ ¬ s.Operating j ∧ (s.tasks j).isDone = false

instance (s : Mailbox) (j : ℕ) : Decidable (s.Operating j) :=
  inferInstanceAs (Decidable (_ = _))

/-- **Mailbox isolation**, of a whole run. -/
structure Isolated (es : List Event) : Prop where
  /-- At no moment do two operations run. -/
  exclusive : ∀ es₀, es₀ <+: es → ∀ i j, (after es₀).Operating i → (after es₀).Operating j → i = j
  /-- Operations start in submission order, each at most once. -/
  inOrder : (starts es).Pairwise (· < ·)
  /-- Cancelling the caller of `j` leaves every other submission as it is. -/
  contained : ∀ es₀ j, es₀ ++ [.cancelCaller j] <+: es → ∀ i, i ≠ j →
    (after (es₀ ++ [.cancelCaller j])).tasks i = (after es₀).tasks i
  /-- Whoever is cancelled before its operation has started never runs it. -/
  prevented : ∀ es₀ j, es₀ ++ [.cancelCaller j] <+: es → (after es₀).Unstarted j → j ∉ starts es

/-! ## Timely cancellations -/

/-- The cancellations that stay where they belong: those of a submission whose operation has started
or that is over, and those of a task that has not run yet and has no predecessor to wait for. -/
def Timely (s : Mailbox) : Event → Prop
  | .cancelCaller j =>
    ((s.tasks j).phase = .fresh ∧ s.unblocked j = true) ∨ s.Operating j ∨ (s.tasks j).isDone = true
  | _ => True

instance (s : Mailbox) : (e : Event) → Decidable (s.Timely e)
  | .cancelCaller _ => inferInstanceAs (Decidable ((_ ∧ _) ∨ _ ∨ _))
  | .submit | .start _ | .wake _ | .finish _ _ => inferInstanceAs (Decidable True)

/-- The operation of submission `j` has started, or `j` is over. -/
def Begun (s : Mailbox) (j : ℕ) : Prop := s.Operating j ∨ (s.tasks j).isDone = true

/-- SubmitCall `j` will not run its operation any more. -/
def Doomed (s : Mailbox) (j : ℕ) : Prop :=
  ((s.tasks j).phase = .fresh ∧ (s.tasks j).mustCancel = true) ∨ (s.tasks j).isDone = true

/-- **The mailbox invariant**: each task awaits the submission before it, and whoever has begun, or
is certain to be dropped, has nothing unfinished before it. -/
structure Ordered (s : Mailbox) : Prop where
  tail : s.tail = if s.submitted = 0 then none else some (s.submitted - 1)
  previous : ∀ j < s.submitted, s.previous j = if j = 0 then none else some (j - 1)
  waits : ∀ j p, (s.tasks j).phase = .suspended (.task p) → s.previous j = some p
  unborn : ∀ j, s.submitted ≤ j → (s.tasks j).phase = .fresh
  settled : ∀ j < s.submitted, s.Begun j ∨ s.Doomed j → ∀ k < j, (s.tasks k).isDone = true

variable {s : Mailbox} {e : Event} {i j : ℕ}

theorem Operating.isDone_eq_false (h : s.Operating j) : (s.tasks j).isDone = false := by
  simp only [Operating] at h
  simp [Task.isDone, h]

/-- Where the predecessor is done, everything before is. -/
theorem Ordered.settled_of_unblocked (h : s.Ordered) (hj : j < s.submitted)
    (hu : s.unblocked j = true) : ∀ k < j, (s.tasks k).isDone = true := by
  intro k hk
  have hprev := h.previous j hj
  rw [if_neg (by omega)] at hprev
  have hdone : (s.tasks (j - 1)).isDone = true := by simpa [unblocked, hprev] using hu
  rcases Nat.lt_or_ge k (j - 1) with hlt | hge
  · exact h.settled (j - 1) (by omega) (Or.inl (Or.inr hdone)) k hlt
  · rwa [show k = j - 1 by omega]

/-- Rewriting one task's record, to a phase that lets nobody pass ahead. -/
theorem Ordered.update (h : s.Ordered) (t : Task) (hj : j < s.submitted) (status : WorkerStatus)
    (hdone : (s.tasks j).isDone = true → t.isDone = true)
    (hwait : ∀ p, t.phase = .suspended (.task p) → s.previous j = some p)
    (hset : t.phase = .suspended .outside ∨ t.isDone = true ∨ (t.phase = .fresh ∧ t.mustCancel) →
      ∀ k < j, (s.tasks k).isDone = true) :
    Ordered { s with tasks := Function.update s.tasks j t, status } where
  tail := h.tail
  previous := h.previous
  waits := by
    intro i p hp
    rcases eq_or_ne i j with rfl | hi
    · exact hwait p (by simpa using hp)
    · exact h.waits i p (by simpa [hi] using hp)
  unborn := by
    intro i hi
    have hne : i ≠ j := by
      rintro rfl
      exact absurd hj (Nat.not_lt.mpr hi)
    simpa [hne] using h.unborn i hi
  settled := by
    intro i hi hbd k hk
    have hkeep : (s.tasks k).isDone = true → (Function.update s.tasks j t k).isDone = true := by
      rcases eq_or_ne k j with rfl | hkj
      · simpa using hdone
      · simp [hkj]
    refine hkeep ?_
    rcases eq_or_ne i j with rfl | hij
    · refine hset ?_ k hk
      simp only [Begun, Doomed, Operating, Function.update_self] at hbd
      tauto
    · refine h.settled i hi ?_ k hk
      simpa [Begun, Doomed, Operating, hij] using hbd

theorem ordered_init : Ordered {} where
  tail := rfl
  previous := by simp
  waits := by simp
  unborn := by simp
  settled := by simp

theorem Ordered.submit (h : s.Ordered) : (step s .submit).1.Ordered where
  tail := by simp [step]
  previous := by
    intro j hj
    simp only [step] at hj ⊢
    rcases eq_or_ne j s.submitted with rfl | hne
    · simp [h.tail]
    · simpa [hne] using h.previous j (by omega)
  waits := by
    intro j p hp
    simp only [step] at hp ⊢
    rcases eq_or_ne j s.submitted with rfl | hne
    · simp at hp
    · simpa [hne] using h.waits j p (by simpa [hne] using hp)
  unborn := by
    intro j hj
    simp only [step] at hj ⊢
    simpa [show j ≠ s.submitted by omega] using h.unborn j (by omega)
  settled := by
    intro j hj hbd k hk
    simp only [step] at hj hbd ⊢
    have hjs : j ≠ s.submitted := by
      rintro rfl
      simp [Begun, Doomed, Operating, Task.isDone] at hbd
    have hks : k ≠ s.submitted := by omega
    simpa [hks] using h.settled j (by omega) (by simpa [Begun, Doomed, Operating, hjs] using hbd) k hk

/-- The operation of a submission with everything before it done starts. -/
theorem Ordered.callOperation (h : s.Ordered) (hj : j < s.submitted)
    (hopen : (s.tasks j).isDone = false) (hset : ∀ k < j, (s.tasks k).isDone = true) :
    (s.callOperation j).Ordered :=
  h.update _ hj .running (by simp [hopen]) (by simp) fun _ => hset

theorem Ordered.lt_of_not_fresh (h : s.Ordered) (hj : (s.tasks j).phase ≠ .fresh) :
    j < s.submitted := by
  by_contra hge
  exact hj (h.unborn j (by omega))

/-- What a waiting task awaits is its predecessor. -/
theorem Ordered.unblocked_of_waits (h : s.Ordered) {p : ℕ}
    (hp : (s.tasks j).phase = .suspended (.task p)) (hd : (s.tasks p).isDone = true) :
    s.unblocked j = true := by
  simp [unblocked, h.waits j p hp, hd]

/-! ## One step -/

/-- A timely cancellation rewrites the record of the cancelled submission, and nothing else; a task
that has not run keeps the request for its first step. -/
theorem cancelCaller_eq_update (hj : j < s.submitted) (he : s.Timely (.cancelCaller j)) :
    (cancel s.submitted s.tasks j).1 = Function.update s.tasks j (s.tasks j).request ∧
      (s.tasks j).request.phase = (s.tasks j).phase ∧
      ((s.tasks j).phase = .fresh → (s.tasks j).request.mustCancel = true ∧ s.unblocked j = true) := by
  obtain ⟨n, hn⟩ := Nat.exists_eq_succ_of_ne_zero (Nat.ne_zero_of_lt hj)
  rcases he with ⟨hfresh, hun⟩ | hop | hdone
  · rw [hn, cancel_eq_update (by simp [hfresh])]
    obtain ⟨hphase, hmust⟩ := Task.request_of_fresh hfresh
    exact ⟨rfl, hphase.trans hfresh.symm, fun _ => ⟨hmust, hun⟩⟩
  · rw [Operating] at hop
    rw [hn, cancel_eq_update (by simp [hop])]
    exact ⟨rfl, (Task.request_of_outside hop).trans hop.symm, by simp [hop]⟩
  · obtain ⟨o, ho⟩ := Task.isDone_iff.mp hdone
    rw [hn, cancel_eq_update (by simp [ho])]
    exact ⟨rfl, by rw [Task.request_of_done ho], by simp [ho]⟩

/-- **A timely step keeps the invariant.** -/
theorem Ordered.step (h : s.Ordered) (he : s.Timely e) : (step s e).1.Ordered := by
  rcases e with _ | j | j | ⟨j, o⟩ | j
  · exact h.submit
  · simp only [Mailbox.step]
    split_ifs with hfresh hmust hun
    · exact h.update _ hfresh.1 _ (fun _ => rfl) (by simp) fun _ =>
        h.settled j hfresh.1 (Or.inr (Or.inl ⟨hfresh.2, hmust⟩))
    · exact h.callOperation hfresh.1 (by simp [Task.isDone, hfresh.2])
        (h.settled_of_unblocked hfresh.1 hun)
    · refine h.update _ hfresh.1 _ (by simp [Task.isDone, hfresh.2]) ?_ (by simp [Task.isDone])
      rcases hprev : s.previous j with _ | p
      · simp [unblocked, hprev] at hun
      · simp
    · exact h
  · simp only [Mailbox.step]
    split
    · rename_i p hp
      split_ifs with hd
      · have hj := h.lt_of_not_fresh (j := j) (by simp [hp])
        exact h.callOperation hj (by simp [Task.isDone, hp])
          (h.settled_of_unblocked hj (h.unblocked_of_waits hp hd))
      · exact h
    · exact h
  · simp only [Mailbox.step]
    split_ifs with hop
    · have hj := h.lt_of_not_fresh (j := j) (by simp [hop])
      exact h.update _ hj _ (fun _ => rfl) (by simp) fun _ =>
        h.settled j hj (Or.inl (Or.inl hop))
    · exact h
  · simp only [Mailbox.step]
    split_ifs with hj
    · obtain ⟨ht, hphase, hfresh⟩ := cancelCaller_eq_update hj he
      have hdone : (s.tasks j).request.isDone = (s.tasks j).isDone := by simp [Task.isDone, hphase]
      rw [ht]
      refine h.update _ hj _ (by simp [hdone]) (fun p hp => h.waits j p (hphase ▸ hp)) ?_
      rw [hphase, hdone]
      rintro (hop | hd | hfm)
      · exact h.settled j hj (Or.inl (Or.inl hop))
      · exact h.settled j hj (Or.inl (Or.inr hd))
      · exact h.settled_of_unblocked hj (hfresh hfm.1).2
    · exact h

/-- **A step starts at most one operation**; it had not begun, its submission was not doomed, and it
runs after the step. -/
theorem step_starts (s : Mailbox) (e : Event) : (Mailbox.step s e).2 = [] ∨
    ∃ j, (Mailbox.step s e).2 = [j] ∧ ¬ s.Begun j ∧ ¬ s.Doomed j ∧
      (Mailbox.step s e).1.Operating j := by
  rcases e with _ | i | i | ⟨i, o⟩ | i <;> simp only [Mailbox.step]
  · exact Or.inl trivial
  · split_ifs with hfresh hmust hun
    · exact Or.inl rfl
    · refine Or.inr ⟨i, rfl, ?_⟩
      simp [Begun, Doomed, Operating, Mailbox.callOperation, Task.isDone, hfresh.2, hmust]
    · exact Or.inl rfl
    · exact Or.inl rfl
  · split
    · rename_i p hp
      split_ifs
      · refine Or.inr ⟨i, rfl, ?_⟩
        simp [Begun, Doomed, Operating, Mailbox.callOperation, Task.isDone, hp]
      · exact Or.inl rfl
    · exact Or.inl rfl
  · split_ifs <;> exact Or.inl rfl
  · split_ifs <;> exact Or.inl rfl

/-- The fates of a submission that no timely step takes back. -/
def Kept (t t' : Task) : Prop :=
  (t.phase = .suspended .outside ∨ t.isDone = true →
      t'.phase = .suspended .outside ∨ t'.isDone = true) ∧
    ((t.phase = .fresh ∧ t.mustCancel = true) ∨ t.isDone = true →
      (t'.phase = .fresh ∧ t'.mustCancel = true) ∨ t'.isDone = true)

theorem kept_update {t : Task} (h : i = j → Kept (s.tasks j) t) :
    Kept (s.tasks j) (Function.update s.tasks i t j) := by
  rcases eq_or_ne j i with rfl | hne
  · simpa using h rfl
  · rw [Function.update_of_ne hne]
    exact ⟨id, id⟩

/-- **A timely step undoes neither a beginning nor a doom.** -/
theorem kept_step (he : s.Timely e) (hj : j < s.submitted) :
    Kept (s.tasks j) ((Mailbox.step s e).1.tasks j) := by
  have hrest : Kept (s.tasks j) (s.tasks j) := ⟨id, id⟩
  rcases e with _ | i | i | ⟨i, o⟩ | i
  · exact kept_update fun h => absurd h (Nat.ne_of_gt hj)
  · simp only [Mailbox.step]
    split_ifs with hfresh hmust hun
    · exact kept_update fun _ => ⟨fun _ => Or.inr rfl, fun _ => Or.inr rfl⟩
    · refine kept_update ?_
      rintro rfl
      simp [Kept, Task.isDone, hfresh.2, hmust]
    · refine kept_update ?_
      rintro rfl
      simp [Kept, Task.isDone, hfresh.2, hmust]
    · exact hrest
  · simp only [Mailbox.step]
    split
    · rename_i p hp
      split_ifs
      · refine kept_update ?_
        rintro rfl
        simp [Kept, Task.isDone, hp]
      · exact hrest
    · exact hrest
  · simp only [Mailbox.step]
    split_ifs
    · exact kept_update fun _ => ⟨fun _ => Or.inr rfl, fun _ => Or.inr rfl⟩
    · exact hrest
  · simp only [Mailbox.step]
    split_ifs with hi
    · obtain ⟨ht, hphase, hfresh⟩ := cancelCaller_eq_update hi he
      rw [ht]
      refine kept_update ?_
      rintro rfl
      have hdone : (s.tasks i).request.isDone = (s.tasks i).isDone := by simp [Task.isDone, hphase]
      rw [Kept, hphase, hdone]
      exact ⟨id, Or.imp_left fun h => ⟨h.1, (hfresh h.1).1⟩⟩
    · exact hrest

theorem submitted_le_step (s : Mailbox) (e : Event) :
    s.submitted ≤ (Mailbox.step s e).1.submitted := by
  rcases e with _ | i | i | ⟨i, o⟩ | i <;> simp only [Mailbox.step]
  · exact Nat.le_succ _
  · split_ifs <;> exact Nat.le_refl _
  · split
    · split_ifs <;> exact Nat.le_refl _
    · exact Nat.le_refl _
  · split_ifs <;> exact Nat.le_refl _
  · split_ifs <;> exact Nat.le_refl _

/-! ## Whole runs -/

/-- The runs whose cancellations are all timely. -/
abbrev TimelyRun (es : List Event) : Prop := Guarded (fun s e => (step s e).1) Timely {} es

@[simp] theorem after_concat (es : List Event) (e : Event) :
    after (es ++ [e]) = (Mailbox.step (after es) e).1 := by
  simp [after]

@[simp] theorem starts_concat (es : List Event) (e : Event) :
    starts (es ++ [e]) = starts es ++ (Mailbox.step (after es) e).2 := by
  simp [starts, outputs, after]

theorem timelyRun_concat {es : List Event} {e : Event} :
    TimelyRun (es ++ [e]) ↔ TimelyRun es ∧ (after es).Timely e := by
  simp [TimelyRun, guarded_append, Guarded, after]

theorem TimelyRun.of_prefix {es₀ es : List Event} (hp : es₀ <+: es) (h : TimelyRun es) :
    TimelyRun es₀ := by
  obtain ⟨rest, rfl⟩ := hp
  exact ((guarded_append _ es₀ rest).mp h).1

theorem ordered_after {es : List Event} (h : TimelyRun es) : (after es).Ordered :=
  run_invariant (fun _ _ hs he => hs.step he) ordered_init h

/-- **Whatever has started is running or over, and starts come in submission order.** -/
theorem starts_spec {es : List Event} (h : TimelyRun es) :
    (∀ j ∈ starts es, j < (after es).submitted ∧ (after es).Begun j) ∧
      (starts es).Pairwise (· < ·) := by
  induction es using List.reverseRecOn with
  | nil => exact ⟨by simp [starts, outputs], List.Pairwise.nil⟩
  | append_singleton es e ih =>
    obtain ⟨hes, he⟩ := timelyRun_concat.mp h
    obtain ⟨hbegun, hsorted⟩ := ih hes
    have hord := ordered_after hes
    have hold : ∀ j ∈ starts es,
        j < (after (es ++ [e])).submitted ∧ (after (es ++ [e])).Begun j := by
      intro j hj
      obtain ⟨hlt, hb⟩ := hbegun j hj
      rw [after_concat]
      exact ⟨Nat.lt_of_lt_of_le hlt (submitted_le_step _ e), (kept_step he hlt).1 hb⟩
    rw [starts_concat]
    rcases step_starts (after es) e with hnone | ⟨j, hout, hnot, -, hop⟩
    · rw [hnone, List.append_nil]
      exact ⟨hold, hsorted⟩
    · rw [hout]
      have hj : j < (after (es ++ [e])).submitted := by
        rw [after_concat]
        refine (hord.step he).lt_of_not_fresh ?_
        rw [hop]
        simp
      have hlast : ∀ i ∈ starts es, i < j := by
        intro i hi
        obtain ⟨hlt, hb⟩ := hbegun i hi
        by_contra hge
        rcases Nat.eq_or_lt_of_not_lt hge with rfl | hji
        · exact hnot hb
        · exact hnot (Or.inr (hord.settled i hlt (Or.inl hb) j hji))
      refine ⟨?_, List.pairwise_append.mpr ⟨hsorted, List.pairwise_singleton _ j, ?_⟩⟩
      · intro i hi
        rcases List.mem_append.mp hi with hi | hi
        · exact hold i hi
        · rw [List.mem_singleton.mp hi]
          exact ⟨hj, by rw [after_concat]; exact Or.inl hop⟩
      · intro i hi k hk
        rw [List.mem_singleton.mp hk]
        exact hlast i hi

/-- **Two operations never run at once.** -/
theorem Ordered.exclusive (h : s.Ordered) (hi : s.Operating i) (hj : s.Operating j) : i = j := by
  have hlt : ∀ {i j : ℕ}, s.Operating i → s.Operating j → ¬ i < j := by
    intro i j hi hj hij
    have hlt : j < s.submitted := h.lt_of_not_fresh (by rw [hj]; simp)
    have := h.settled j hlt (Or.inl (Or.inl hj)) i hij
    rw [hi.isDone_eq_false] at this
    cases this
  have := hlt hi hj
  have := hlt hj hi
  omega

/-- A doomed submission is never started by the rest of the run. -/
theorem Doomed.not_mem_outputs {s : Mailbox} (h : s.Doomed j) (hj : j < s.submitted)
    {es : List Event} (hes : Guarded (fun s e => (Mailbox.step s e).1) Timely s es) :
    j ∉ outputs Mailbox.step s es := by
  induction es generalizing s with
  | nil => simp [outputs]
  | cons e es ih =>
    rw [outputs, List.mem_append, not_or]
    refine ⟨?_, ih ((kept_step hes.1 hj).2 h) (Nat.lt_of_lt_of_le hj (submitted_le_step s e)) hes.2⟩
    rcases step_starts s e with hnone | ⟨i, hout, -, hdoom, -⟩
    · simp [hnone]
    · rw [hout, List.mem_singleton]
      rintro rfl
      exact hdoom h

/-- A timely cancellation of a submission that has not started dooms it. -/
theorem doomed_of_cancelCaller (he : s.Timely (.cancelCaller j)) (hj : s.Unstarted j) :
    (Mailbox.step s (.cancelCaller j)).1.Doomed j := by
  obtain ⟨hlt, hop, hopen⟩ := hj
  obtain ⟨ht, hphase, hfresh⟩ := cancelCaller_eq_update hlt he
  have hf : (s.tasks j).phase = .fresh := by
    rcases he with ⟨hf, -⟩ | hop' | hdone
    · exact hf
    · exact absurd hop' hop
    · rw [hopen] at hdone
      cases hdone
  simp only [Mailbox.step, if_pos hlt, ht]
  exact Or.inl (by simp [hphase, hf, (hfresh hf).1])

/-- **Mailbox isolation holds in every run of timely cancellations.** -/
theorem mailbox_isolated (es : List Event) (h : TimelyRun es) : Isolated es where
  exclusive := fun _ hp _ _ hi hj => (ordered_after (h.of_prefix hp)).exclusive hi hj
  inOrder := (starts_spec h).2
  contained := by
    intro es₀ j hp i hij
    obtain ⟨-, he⟩ := timelyRun_concat.mp (h.of_prefix hp)
    rw [after_concat, Mailbox.step]
    split_ifs with hj
    · rw [(cancelCaller_eq_update hj he).1]
      exact Function.update_of_ne hij _ _
    · rfl
  prevented := by
    intro es₀ j hp hj
    obtain ⟨rest, rfl⟩ := hp
    obtain ⟨hes₀, hrest⟩ := (guarded_append _ _ rest).mp h
    obtain ⟨hes₀, he⟩ := timelyRun_concat.mp hes₀
    have hlt := Nat.lt_of_lt_of_le hj.1 (submitted_le_step _ (.cancelCaller j))
    rw [starts, outputs_append, List.mem_append, not_or]
    constructor
    · have hnil : (Mailbox.step (after es₀) (.cancelCaller j)).2 = [] := by
        simp only [Mailbox.step]
        split_ifs <;> rfl
      rw [← starts, starts_concat, hnil, List.append_nil]
      intro hmem
      rcases ((starts_spec hes₀).1 j hmem).2 with hop | hdone
      · exact hj.2.1 hop
      · rw [hj.2.2] at hdone
        cases hdone
    · refine Doomed.not_mem_outputs ?_ ?_ hrest
      · rw [← after, after_concat]
        exact doomed_of_cancelCaller he hj
      · rw [← after, after_concat]
        exact hlt

/-- A run the theorem speaks about: the caller of the running operation is cancelled, and so is the
caller of a task that has not run and has nothing to wait for. -/
def timelyCancellations : List Event :=
  [.submit, .submit, .start 0, .start 1, .cancelCaller 0, .finish 0 .cancelled, .wake 1, .submit,
    .finish 1 .value, .cancelCaller 2, .start 2]

theorem mailbox_isolated_timelyCancellations :
    TimelyRun timelyCancellations ∧ Isolated timelyCancellations ∧
      starts timelyCancellations = [0, 1] := by
  have h : TimelyRun timelyCancellations := by decide
  exact ⟨h, mailbox_isolated _ h, by decide⟩

/-! ## Where the mailbox leaks -/

/-- Three submissions on one worker; the caller of the last is cancelled while it waits its turn. -/
def chainCancellation : List Event :=
  [.submit, .submit, .submit, .start 0, .start 1, .start 2, .cancelCaller 2, .finish 0 .cancelled,
    .wake 1, .finish 1 .value, .wake 2]

/-- Three submissions on one worker; the caller of the second is cancelled before its task has run,
while the first operation is still running. -/
def droppedLink : List Event :=
  [.submit, .submit, .submit, .start 0, .cancelCaller 1, .start 1, .start 2]

/-- **The mailbox is not isolated.**  In `chainCancellation` the cancellation of submission 2 walks
down to the running operation 0 and cancels it, while submission 2 swallows it and runs its
operation all the same; in `droppedLink` the dropped submission 1 is a gap through which operation 2
starts while operation 0 is running. -/
theorem chain_cancellation_leaks :
    ¬ Isolated chainCancellation ∧ ((after chainCancellation).tasks 0).cancelRequests = 1 ∧
      starts chainCancellation = [0, 1, 2] ∧
      ¬ Isolated droppedLink ∧ (after droppedLink).Operating 0 ∧ (after droppedLink).Operating 2 := by
  refine ⟨fun h => ?_, by decide, by decide, fun h => ?_, by decide, by decide⟩
  · have h0 := h.contained (chainCancellation.take 6) 2 (by decide) 0 (by decide)
    exact absurd h0 (by decide)
  · have h02 := h.exclusive droppedLink (List.prefix_refl _) 0 2 (by decide) (by decide)
    exact absurd h02 (by decide)

end Mailbox

end SubagentsLab

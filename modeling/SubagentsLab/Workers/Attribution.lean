import Mathlib.Data.List.Induction
import Mathlib.Data.List.Nodup
import Mathlib.Data.List.Perm.Subperm
import SubagentsLab.Workers.ItemLoop

/-!
# Workers/Attribution — whose result a task of a multi-intent turn returns

A multi-intent turn submits its items and learns only later, when a provider task takes its first step,
which item that task is for: `execute` pops the next index from a queue under the worker and the query, and
the result it returns carries a turn id with that index.  The `n`-th of the equal items to start pops the
`n`-th of their indexes (`Sound.ordered`), which is its own if it is the `n`-th of them; so the results of a
run carry the turn ids of their own work items exactly when the items that return one started in their turn
(`attributed_after`).
-/

namespace SubagentsLab

open Machinery

namespace ItemLoop

variable {cfg : CoordinatorConfig} {s s' : ItemLoop}

/-! ## One provider task an item -/

/-- **An item has at most one provider task**, and then waits for it or is done. -/
structure Paired (s : ItemLoop) : Prop where
  stepped_le : s.stepped ≤ s.created
  unborn : ∀ i, s.created ≤ i → s.kind i = none
  fresh : ∀ i, s.stepped ≤ i → (s.tasks i).phase = .fresh
  engaged : ∀ p w text i, s.kind p = some (.provider w text i) → s.kind i = some (.item w text) ∧
    ((s.tasks i).phase = .suspended (.task p) ∨ (s.tasks i).isDone = true)
  unique : ∀ p q w w' text text' i, s.kind p = some (.provider w text i) →
    s.kind q = some (.provider w' text' i) → p = q

theorem paired_init : Paired {} where
  stepped_le := Nat.le_refl _
  unborn _ _ := rfl
  fresh _ _ := rfl
  engaged := nofun
  unique := nofun

theorem Paired.lt_created (h : s.Paired) {i : ℕ} {k : TaskKind} (hk : s.kind i = some k) : i < s.created := by
  by_contra hge
  rw [h.unborn i (Nat.le_of_not_lt hge)] at hk
  cases hk

theorem Paired.lt_stepped (h : s.Paired) {i : ℕ} (hi : (s.tasks i).phase ≠ .fresh) : i < s.stepped := by
  by_contra hge
  exact hi (h.fresh i (Nat.le_of_not_lt hge))

/-- A step that creates no task, and lets no task go back on its await. -/
theorem Paired.mono (h : s.Paired) (hkind : s'.kind = s.kind) (hcreated : s'.created = s.created)
    (hle : s'.stepped ≤ s.created) (hfresh : ∀ i, s'.stepped ≤ i → (s'.tasks i).phase = .fresh)
    (hawait : ∀ i p, (s.tasks i).phase = .suspended (.task p) ∨ (s.tasks i).isDone = true →
      (s'.tasks i).phase = .suspended (.task p) ∨ (s'.tasks i).isDone = true) : s'.Paired where
  stepped_le := hcreated ▸ hle
  unborn := by rw [hcreated, hkind]; exact h.unborn
  fresh := hfresh
  engaged p w text i hp := by
    rw [hkind] at hp ⊢
    exact ⟨(h.engaged p w text i hp).1, hawait i p (h.engaged p w text i hp).2⟩
  unique := by rw [hkind]; exact h.unique

/-- A task runs on; if it awaited a task, it is done now. -/
theorem Paired.resume (h : s.Paired) {i : ℕ} (hi : i < s.stepped) (phase : TaskPhase)
    (hdone : (∃ p, (s.tasks i).phase = .suspended (.task p)) ∨ (s.tasks i).isDone = true → ∃ o, phase = .done o) :
    (s.resume i phase).Paired := by
  refine h.mono rfl rfl h.stepped_le (fun j hj => ?_) fun j p hj => ?_
  · have hne : j ≠ i := fun heq => absurd hi (Nat.not_lt.mpr (heq ▸ hj))
    rw [ItemLoop.resume]
    dsimp only
    rw [Function.update_of_ne hne]
    exact h.fresh j hj
  · rcases eq_or_ne j i with rfl | hne
    · obtain ⟨o, rfl⟩ := hdone (hj.imp_left fun hphase => ⟨p, hphase⟩)
      refine Or.inr ?_
      rw [ItemLoop.resume]
      dsimp only
      rw [Function.update_self]
      rfl
    · rw [ItemLoop.resume]
      dsimp only
      rw [Function.update_of_ne hne]
      exact hj

/-- The loop has taken the next first step. -/
theorem Paired.advance (h : s.Paired) (hlt : s.stepped < s.created) : Paired { s with stepped := s.stepped + 1 } :=
  h.mono rfl rfl hlt (fun j hj => h.fresh j (Nat.le_of_succ_le hj)) fun _ _ hj => hj

theorem Paired.createItem (h : s.Paired) (w text : String) : (s.createTask (.item w text)).Paired := by
  have hprovider : ∀ p w' text' i, (s.createTask (.item w text)).kind p = some (.provider w' text' i) →
      s.kind p = some (.provider w' text' i) := by
    intro p w' text' i hp
    rw [createTask] at hp
    dsimp only at hp
    rcases eq_or_ne p s.created with rfl | hne
    · rw [Function.update_self] at hp
      cases hp
    · rwa [Function.update_of_ne hne] at hp
  refine ⟨Nat.le_succ_of_le h.stepped_le, fun i hi => ?_, fun i hi => ?_, fun p w' text' i hp => ?_, fun p q _ _ _ _ i hp hq => ?_⟩
  · rw [createTask] at hi ⊢
    dsimp only at hi ⊢
    rw [Function.update_of_ne (by omega)]
    exact h.unborn i (by omega)
  · rw [createTask] at hi ⊢
    dsimp only at hi ⊢
    rcases eq_or_ne i s.created with rfl | hne
    · rw [Function.update_self]
    · rw [Function.update_of_ne hne]
      exact h.fresh i hi
  · obtain ⟨hkind, hphase⟩ := h.engaged p w' text' i (hprovider p w' text' i hp)
    have hne : i ≠ s.created := Nat.ne_of_lt (h.lt_created hkind)
    rw [createTask]
    dsimp only
    rw [Function.update_of_ne hne, Function.update_of_ne hne]
    exact ⟨hkind, hphase⟩
  · exact h.unique p q _ _ _ _ i (hprovider p _ _ i hp) (hprovider q _ _ i hq)

/-- **An item that has no provider task yet creates one.** -/
theorem Paired.createProvider (h : s.Paired) {i : ℕ} {w text : String} (hi : i < s.stepped)
    (hkind : s.kind i = some (.item w text)) (hidle : ∀ p, (s.tasks i).phase ≠ .suspended (.task p))
    (hopen : (s.tasks i).isDone = false) : (s.createProvider i w text).Paired := by
  have hne : i ≠ s.created := Nat.ne_of_lt (Nat.lt_of_lt_of_le hi h.stepped_le)
  have hnone : ∀ p w' text', s.kind p ≠ some (.provider w' text' i) := by
    intro p w' text' hp
    rcases (h.engaged p w' text' i hp).2 with hphase | hdone
    · exact hidle p hphase
    · rw [hopen] at hdone
      cases hdone
  have hnew : (s.createProvider i w text).kind s.created = some (.provider w text i) := Function.update_self _ _ _
  have hold : ∀ p, p ≠ s.created → (s.createProvider i w text).kind p = s.kind p := fun p hp =>
    Function.update_of_ne hp _ _
  have htask : ∀ j, j ≠ i → j ≠ s.created → (s.createProvider i w text).tasks j = s.tasks j := fun j hj hj' => by
    rw [ItemLoop.createProvider]
    dsimp only
    rw [Function.update_of_ne hj, createTask]
    dsimp only
    rw [Function.update_of_ne hj']
  have hself : ((s.createProvider i w text).tasks i).phase = .suspended (.task s.created) := by
    rw [ItemLoop.createProvider]
    dsimp only
    rw [Function.update_self]
    rfl
  refine ⟨Nat.le_succ_of_le h.stepped_le, fun j hj => ?_, fun j hj => ?_, fun p w' text' j hp => ?_,
    fun p q w₁ w₂ t₁ t₂ j hp hq => ?_⟩
  · have hj' : s.created + 1 ≤ j := hj
    rw [hold j (by omega)]
    exact h.unborn j (by omega)
  · have hj' : s.stepped ≤ j := hj
    rcases eq_or_ne j s.created with rfl | hjne
    · rw [ItemLoop.createProvider]
      dsimp only
      rw [Function.update_of_ne hne.symm, createTask]
      dsimp only
      rw [Function.update_self]
    · rw [htask j (by omega) hjne]
      exact h.fresh j hj'
  · rcases eq_or_ne p s.created with rfl | hpne
    · rw [hnew] at hp
      cases hp
      exact ⟨(hold i hne).trans hkind, Or.inl hself⟩
    · rw [hold p hpne] at hp
      obtain ⟨hj, hphase⟩ := h.engaged p w' text' j hp
      have hji : j ≠ i := by
        rintro rfl
        exact hnone p w' text' hp
      have hjc : j ≠ s.created := Nat.ne_of_lt (h.lt_created hj)
      rw [hold j hjc, htask j hji hjc]
      exact ⟨hj, hphase⟩
  · rcases eq_or_ne p s.created with rfl | hpne <;> rcases eq_or_ne q s.created with rfl | hqne
    · rfl
    · rw [hnew] at hp
      rw [hold q hqne] at hq
      cases hp
      exact absurd hq (hnone q w₂ t₂)
    · rw [hnew] at hq
      rw [hold p hpne] at hp
      cases hq
      exact absurd hp (hnone p w₁ t₁)
    · rw [hold p hpne] at hp
      rw [hold q hqne] at hq
      exact h.unique p q w₁ w₂ t₁ t₂ j hp hq

theorem Paired.startTask (h : s.Paired) (item : String × String) : (s.startTask cfg item).Paired := by
  rw [ItemLoop.startTask]
  split_ifs
  · have hnew := h.createItem item.1 item.2
    exact ⟨hnew.stepped_le, hnew.unborn, hnew.fresh, hnew.engaged, hnew.unique⟩
  · exact h

theorem Paired.submit (h : s.Paired) (items : List (String × String)) : (items.foldl (ItemLoop.startTask cfg) s).Paired := by
  induction items generalizing s with
  | nil => exact h
  | cons item items ih => exact ih (h.startTask item)

/-- The first step of an item. -/
theorem Paired.enter (h : s.Paired) {w text : String} (hlt : s.stepped < s.created)
    (hkind : s.kind s.stepped = some (.item w text)) :
    (ItemLoop.enter { s with stepped := s.stepped + 1 } s.stepped w text).Paired := by
  have hphase : (s.tasks s.stepped).phase = .fresh := h.fresh _ (Nat.le_refl _)
  have hidle : ∀ p, (s.tasks s.stepped).phase ≠ .suspended (.task p) := by
    intro p hp
    rw [hphase] at hp
    cases hp
  have hopen : (s.tasks s.stepped).isDone = false := by rw [Task.isDone, hphase]
  have hcreate : (ItemLoop.createProvider { s with stepped := s.stepped + 1 } s.stepped w text).Paired :=
    (h.advance hlt).createProvider (Nat.lt_succ_self _) hkind hidle hopen
  rw [ItemLoop.enter]
  dsimp only
  split
  · exact hcreate
  · split_ifs
    · exact hcreate
    · refine (h.advance hlt).resume (Nat.lt_succ_self _) _ fun hawait => ?_
      rcases hawait with ⟨p, hp⟩ | hdone
      · exact absurd hp (hidle p)
      · exact absurd (hopen.symm.trans hdone) Bool.false_ne_true

theorem Paired.run (h : s.Paired) : (ItemLoop.step cfg s .run).1.Paired := by
  have hphase : (s.tasks s.stepped).phase = .fresh := h.fresh _ (Nat.le_refl _)
  have hidle : ¬((∃ p, (s.tasks s.stepped).phase = .suspended (.task p)) ∨ (s.tasks s.stepped).isDone = true) := by
    rintro (⟨p, hp⟩ | hdone)
    · rw [hphase] at hp
      cases hp
    · rw [Task.isDone, hphase] at hdone
      cases hdone
  rw [ItemLoop.step]
  by_cases hlt : s.stepped < s.created
  · rw [if_pos hlt]
    by_cases hcancel : (s.tasks s.stepped).mustCancel = true
    · rw [if_pos hcancel]
      exact (h.advance hlt).resume (Nat.lt_succ_self _) _ fun hawait => absurd hawait hidle
    · rw [if_neg hcancel]
      rcases hkind : s.kind s.stepped with _ | ⟨w, text⟩ | ⟨w, text, i⟩
      · exact h
      · exact h.enter hlt hkind
      · exact (h.advance hlt).resume (Nat.lt_succ_self _) _ fun hawait => absurd hawait hidle
  · rw [if_neg hlt]
    exact h

theorem Paired.wake (h : s.Paired) (i : ℕ) : (ItemLoop.step cfg s (.wake i)).1.Paired := by
  rw [ItemLoop.step]
  split
  · rename_i w text p cancelled hkind hphase
    have hi : i < s.stepped := h.lt_stepped (by rw [hphase]; rintro ⟨⟩)
    have hidle : ∀ q, (s.tasks i).phase ≠ .suspended (.task q) := by
      intro q hq
      rw [hphase] at hq
      cases hq
    have hopen : (s.tasks i).isDone = false := by rw [Task.isDone, hphase]
    split_ifs
    · exact h.resume hi _ fun _ => ⟨.cancelled, rfl⟩
    · exact h.createProvider hi hkind hidle hopen
    · exact h
  · rename_i w text p hkind hphase
    have hi : i < s.stepped := h.lt_stepped (by rw [hphase]; rintro ⟨⟩)
    split_ifs
    · have hleft : (s.resume i (.done (s.awaitOutcome i p))).Paired := h.resume hi _ fun _ => ⟨_, rfl⟩
      exact ⟨hleft.stepped_le, hleft.unborn, hleft.fresh, hleft.engaged, hleft.unique⟩
    · exact h
  · exact h

theorem Paired.cancel (h : s.Paired) (i : ℕ) :
    Paired { s with tasks := (Machinery.cancel s.created s.tasks i).1 } := by
  have hdisturbed := fun j => cancel_disturbs s.created s.tasks i j
  refine h.mono rfl rfl h.stepped_le (fun j hj => ?_) fun j p hj => ?_
  · rcases (hdisturbed j).2 with heq | ⟨q, c, hq, -, -⟩
    · exact heq.trans (h.fresh j hj)
    · rw [h.fresh j hj] at hq
      cases hq
  · rcases (hdisturbed j).2 with heq | ⟨q, c, hq, -, -⟩
    · dsimp only
      rw [Task.isDone, heq]
      exact hj
    · rcases hj with hphase | hdone
      · rw [hq] at hphase
        cases hphase
      · rw [Task.isDone, hq] at hdone
        cases hdone

/-- **Every step keeps the items and their provider tasks paired.** -/
theorem Paired.step (h : s.Paired) (e : Event) : (ItemLoop.step cfg s e).1.Paired := by
  cases e with
  | submit items => exact h.submit _
  | owns n => exact ⟨h.stepped_le, h.unborn, h.fresh, h.engaged, h.unique⟩
  | run => exact h.run
  | wake i => exact h.wake i
  | finish p outcome =>
    rw [ItemLoop.step]
    split_ifs with hphase
    · exact h.resume (h.lt_stepped (by rw [hphase]; rintro ⟨⟩)) _ fun _ => ⟨outcome, rfl⟩
    · exact h
  | cancel i =>
    rw [ItemLoop.step]
    split_ifs
    · exact h.cancel i
    · exact h
  | release i =>
    rw [ItemLoop.step]
    split_ifs
    · exact ⟨h.stepped_le, h.unborn, h.fresh, h.engaged, h.unique⟩
    · exact h

/-! ## The phase of a task -/

theorem Paired.fresh_created (h : s.Paired) : (s.tasks s.created).phase = .fresh := h.fresh _ h.stepped_le

theorem Paired.phase_createTask (h : s.Paired) (kind : TaskKind) (i : ℕ) :
    ((s.createTask kind).tasks i).phase = (s.tasks i).phase := by
  rw [createTask]
  dsimp only
  rcases eq_or_ne i s.created with rfl | hne
  · rw [Function.update_self, h.fresh_created]
  · rw [Function.update_of_ne hne]

theorem phase_resume (i j : ℕ) (phase : TaskPhase) :
    ((s.resume i phase).tasks j).phase = if j = i then phase else (s.tasks j).phase := by
  rw [ItemLoop.resume]
  dsimp only
  split_ifs with hji
  · rw [hji, Function.update_self]
    rfl
  · rw [Function.update_of_ne hji]

theorem Paired.phase_createProvider (h : s.Paired) (i j : ℕ) (w text : String) :
    ((s.createProvider i w text).tasks j).phase = if j = i then .suspended (.task s.created) else (s.tasks j).phase := by
  rw [ItemLoop.createProvider]
  dsimp only
  split_ifs with hji
  · rw [hji, Function.update_self]
    rfl
  · rw [Function.update_of_ne hji]
    exact h.phase_createTask (.provider w text i) j

theorem Paired.phase_startTask (h : s.Paired) (item : String × String) (i : ℕ) :
    ((s.startTask cfg item).tasks i).phase = (s.tasks i).phase := by
  rw [ItemLoop.startTask]
  split_ifs
  · exact h.phase_createTask (.item item.1 item.2) i
  · rfl

theorem Paired.phase_submit (h : s.Paired) (items : List (String × String)) (i : ℕ) :
    ((items.foldl (ItemLoop.startTask cfg) s).tasks i).phase = (s.tasks i).phase := by
  induction items generalizing s with
  | nil => rfl
  | cons item items ih => exact (ih (h.startTask item)).trans (h.phase_startTask item i)

/-- A task goes on without a result; if it goes on to await a task, then its own provider task. -/
structure GoesOn (s s' : ItemLoop) (i : ℕ) : Prop where
  open_before : (s.tasks i).isDone = false
  no_value : (s'.tasks i).phase ≠ .done .value
  awaits : ∀ p, (s'.tasks i).phase = .suspended (.task p) → ∃ w text, s'.kind p = some (.provider w text i)

/-- Every task stays where it is, or goes on without a result. -/
def Moves (s s' : ItemLoop) : Prop := ∀ i, (s'.tasks i).phase = (s.tasks i).phase ∨ GoesOn s s' i

theorem Moves.of_phase (h : ∀ i, (s'.tasks i).phase = (s.tasks i).phase) : Moves s s' := fun i => Or.inl (h i)

/-- A phase in which a task has no result and awaits no other task. -/
def quiet : TaskPhase → Bool
  | .done .value => false
  | .suspended (.task _) => false
  | _ => true

theorem Moves.resume (htasks : s'.tasks = s.tasks) {i : ℕ} {phase : TaskPhase} (hopen : (s.tasks i).isDone = false)
    (hquiet : quiet phase = true) : Moves s (s'.resume i phase) := by
  intro j
  by_cases hji : j = i
  · subst hji
    have hphase : ((s'.resume j phase).tasks j).phase = phase := by rw [phase_resume, if_pos rfl]
    refine Or.inr ⟨hopen, ?_, fun p hp => ?_⟩
    · rintro hvalue
      rw [← hphase, hvalue] at hquiet
      cases hquiet
    · rw [← hphase, hp] at hquiet
      cases hquiet
  · refine Or.inl ?_
    rw [phase_resume, if_neg hji, htasks]

theorem Moves.createProvider (h : s'.Paired) (htasks : s'.tasks = s.tasks) {i : ℕ} {w text : String}
    (hopen : (s.tasks i).isDone = false) : Moves s (s'.createProvider i w text) := by
  intro j
  have hphase := h.phase_createProvider i j w text
  by_cases hji : j = i
  · rw [if_pos hji] at hphase
    subst hji
    refine Or.inr ⟨hopen, by rw [hphase]; rintro ⟨⟩, fun p hp => ?_⟩
    rw [hphase] at hp
    cases hp
    exact ⟨w, text, Function.update_self _ _ _⟩
  · rw [if_neg hji, htasks] at hphase
    exact Or.inl hphase

theorem isDone_of_phase {i : ℕ} {phase : TaskPhase} (hphase : (s.tasks i).phase = phase) (hopen : ∀ o, phase ≠ .done o) :
    (s.tasks i).isDone = false := by
  rw [Bool.eq_false_iff, ne_eq, Task.isDone_iff, not_exists, hphase]
  exact hopen

/-- The first step of the next task. -/
theorem Paired.moves_run (h : s.Paired) : Moves s (ItemLoop.step cfg s .run).1 := by
  have hopen : (s.tasks s.stepped).isDone = false := by rw [Task.isDone, h.fresh _ (Nat.le_refl _)]
  have hresume : ∀ phase, quiet phase = true →
      Moves s (ItemLoop.resume { s with stepped := s.stepped + 1 } s.stepped phase) := fun _ hquiet =>
    .resume (show ItemLoop.tasks { s with stepped := s.stepped + 1 } = s.tasks from rfl) hopen hquiet
  rw [ItemLoop.step]
  by_cases hlt : s.stepped < s.created
  swap
  · rw [if_neg hlt]
    exact .of_phase fun _ => rfl
  have hcreate : ∀ w text, Moves s (ItemLoop.createProvider { s with stepped := s.stepped + 1 } s.stepped w text) :=
    fun w text => .createProvider (s := s) (h.advance hlt) rfl hopen
  rw [if_pos hlt]
  split_ifs
  · exact hresume _ rfl
  · split
    · rename_i w text _
      rw [ItemLoop.enter]
      dsimp only
      split
      · exact hcreate w text
      · split_ifs
        · exact hcreate w text
        · exact hresume _ rfl
    · exact hresume _ rfl
    · exact .of_phase fun _ => rfl

theorem Paired.moves_cancel (i : ℕ) : Moves s { s with tasks := (Machinery.cancel s.created s.tasks i).1 } := by
  intro j
  rcases (cancel_disturbs s.created s.tasks i j).2 with heq | ⟨q, c, hbefore, hafter, -⟩
  · exact Or.inl heq
  · refine Or.inr ⟨isDone_of_phase hbefore fun _ => by rintro ⟨⟩, ?_, fun p hp => ?_⟩
    · dsimp only
      rw [hafter]
      rintro ⟨⟩
    · dsimp only at hp
      rw [hafter] at hp
      cases hp

variable (cfg) in
/-- **What one step does to the tasks**: they move, or an item comes back from its provider task, or the
coroutine of a provider task ends. -/
theorem Paired.phase_step (h : s.Paired) (e : Event) :
    Moves s (ItemLoop.step cfg s e).1 ∨
    (∃ i w text p, e = .wake i ∧ s.kind i = some (.item w text) ∧ (s.tasks i).phase = .suspended (.task p) ∧
      (s.tasks p).isDone = true ∧ ∀ j, ((ItemLoop.step cfg s e).1.tasks j).phase
        = if j = i then .done (s.awaitOutcome i p) else (s.tasks j).phase) ∨
    ∃ p o, e = .finish p o ∧ (s.tasks p).phase = .suspended .outside ∧ ∀ j, ((ItemLoop.step cfg s e).1.tasks j).phase
      = if j = p then .done o else (s.tasks j).phase := by
  cases e with
  | submit items => exact Or.inl (.of_phase (h.phase_submit _))
  | owns n => exact Or.inl (.of_phase fun _ => rfl)
  | run => exact Or.inl h.moves_run
  | wake i =>
    rw [ItemLoop.step]
    split
    · rename_i w text p cancelled hkind hphase
      have hopen := isDone_of_phase hphase fun _ => by rintro ⟨⟩
      refine Or.inl ?_
      split_ifs
      · exact .resume rfl hopen rfl
      · exact .createProvider h rfl hopen
      · exact .of_phase fun _ => rfl
    · rename_i w text p hkind hphase
      split_ifs with hdone
      · exact Or.inr (Or.inl ⟨i, w, text, p, rfl, hkind, hphase, hdone, fun j => phase_resume i j _⟩)
      · exact Or.inl (.of_phase fun _ => rfl)
    · exact Or.inl (.of_phase fun _ => rfl)
  | finish p o =>
    rw [ItemLoop.step]
    split_ifs with hphase
    · exact Or.inr (Or.inr ⟨p, o, rfl, hphase, fun j => phase_resume p j _⟩)
    · exact Or.inl (.of_phase fun _ => rfl)
  | cancel i =>
    rw [ItemLoop.step]
    split_ifs
    · exact Or.inl (Paired.moves_cancel i)
    · exact Or.inl (.of_phase fun _ => rfl)
  | release i =>
    rw [ItemLoop.step]
    split_ifs
    · exact Or.inl (.of_phase fun _ => rfl)
    · exact Or.inl (.of_phase fun _ => rfl)

variable (cfg) in
/-- What is done stays done. -/
theorem Paired.done_step (h : s.Paired) (e : Event) {i : ℕ} {o : Outcome} (hi : (s.tasks i).phase = .done o) :
    ((ItemLoop.step cfg s e).1.tasks i).phase = .done o := by
  rcases h.phase_step cfg e with hmoves | ⟨j, w, text, p, -, -, hphase, -, hafter⟩ | ⟨p, o', -, hphase, hafter⟩
  · refine (hmoves i).elim (fun hsame => hsame.trans hi) fun hgoes => ?_
    have hopen := hgoes.open_before
    rw [Task.isDone, hi] at hopen
    cases hopen
  · rw [hafter, if_neg, hi]
    rintro rfl
    rw [hi] at hphase
    cases hphase
  · rw [hafter, if_neg, hi]
    rintro rfl
    rw [hi] at hphase
    cases hphase

/-- **An item awaits its own provider task.** -/
def Awaits (s : ItemLoop) : Prop :=
  ∀ i p, (s.tasks i).phase = .suspended (.task p) → ∃ w text, s.kind p = some (.provider w text i)

theorem Awaits.step (h : s.Paired) (ha : s.Awaits) (e : Event) : (ItemLoop.step cfg s e).1.Awaits := by
  intro i p hi
  have hold : (s.tasks i).phase = .suspended (.task p) →
      ∃ w text, (ItemLoop.step cfg s e).1.kind p = some (.provider w text i) := by
    intro hphase
    obtain ⟨w, text, hkind⟩ := ha i p hphase
    exact ⟨w, text, ((grows_step cfg s e).kind_eq p (h.lt_created hkind)).trans hkind⟩
  rcases h.phase_step cfg e with hmoves | ⟨j, _, _, _, -, -, -, -, hafter⟩ | ⟨q, _, -, -, hafter⟩
  · exact (hmoves i).elim (fun hsame => hold (hsame.symm.trans hi)) fun hgoes => hgoes.awaits p hi
  · rw [hafter] at hi
    split_ifs at hi
    exact hold hi
  · rw [hafter] at hi
    split_ifs at hi
    exact hold hi

theorem Awaits.submit (h : s.Paired) (ha : s.Awaits) (item : String × String) : (s.startTask cfg item).Awaits := by
  intro i p hi
  rw [h.phase_startTask] at hi
  obtain ⟨w, text, hkind⟩ := ha i p hi
  refine ⟨w, text, ?_⟩
  rw [ItemLoop.startTask]
  split_ifs
  · exact (Function.update_of_ne (Nat.ne_of_lt (h.lt_created hkind)) _ _).trans hkind
  · exact hkind

end ItemLoop

/-! ## Multi-intent turns -/

/-- The items a multi-intent turn submits: their indexes, in order, each with its worker and its query. -/
structure Runnable where
  turnId : String
  items : List (ℕ × String × String)
  ascending : (items.map Prod.fst).Pairwise (· < ·)

/-- `execution_indexes`: the indexes of the items with a worker and a query. -/
def Runnable.executionIndexes (r : Runnable) (pair : String × String) : List ℕ :=
  (r.items.filter fun item => item.2 = pair).map Prod.fst

/-- What `execute` returns: the result of the search, a clarification of the worker's, or the text for a worker
that declined.  It is also the label it leaves in `outcome_labels`. -/
inductive Answered
  | completed
  | clarify
  | declined
  deriving DecidableEq, Repr

/-- How a search ends: `execute` catches `WorkerClarify` and `WorkerDeclined`, and nothing else. -/
inductive SearchEnd
  | answered (a : Answered)
  | raised
  | cancelled
  deriving DecidableEq, Repr

/-- A call of `execute`: by the provider task of an item that is registered under `work-T-index`; what it
returns carries the turn id `T-popped`, and it raises if there was no index to pop. -/
structure Execution where
  item : ℕ
  turn : ℕ
  pair : String × String
  index : ℕ
  popped : Option ℕ
  deriving DecidableEq, Repr

/-- The coordinator's loop, and what the multi-intent turns know of it: the items they registered, the
indexes still to be popped, the calls of `execute` so far, the `outcome_labels` of each turn, and what the
call for an item returned. -/
structure FanIn where
  loop : ItemLoop := {}
  turns : List Runnable := []
  registered : ℕ → Option (ℕ × ℕ) := fun _ => none
  pending : ℕ → String × String → List ℕ := fun _ _ => []
  executions : List Execution := []
  outcomeLabels : ℕ → ℕ → Option Answered := fun _ _ => none
  answers : ℕ → Option Answered := fun _ => none

namespace FanIn

/-- What happens: a multi-intent turn submits its items, the loop goes on, or the search that provider task
`p` runs for such an item ends. -/
inductive Event
  | dispatch (r : Runnable)
  | loop (e : ItemLoop.Event)
  | searched (p : ℕ) (how : SearchEnd)

/-- One item of `coordinator.submit`, registered under its work item id. -/
def admitItem (cfg : CoordinatorConfig) (turn : ℕ) (s : FanIn) (item : ℕ × String × String) : FanIn :=
  if s.loop.hasBackgroundCapacity cfg then
    { s with
      loop := s.loop.startTask cfg item.2
      registered := Function.update s.registered s.loop.created (some (turn, item.1)) }
  else s

/-- `execute`, when the provider task of an item takes its first step. -/
def execute (s : FanIn) (item : ℕ) (pair : String × String) : FanIn :=
  match s.registered item with
  | none => s
  | some (turn, index) =>
    { s with
      pending := Function.update s.pending turn (Function.update (s.pending turn) pair (s.pending turn pair).tail)
      executions := s.executions ++ [⟨item, turn, pair, index, (s.pending turn pair).head?⟩] }

/-- The call of `execute` an event makes, if any: for which item, with which worker and query. -/
def call (cfg : CoordinatorConfig) (s : FanIn) : Event → Option (ℕ × String × String)
  | .loop e =>
    match (ItemLoop.step cfg s.loop e).2, s.loop.kind s.loop.stepped with
    | [_], some (.provider workerId query item) => some (item, workerId, query)
    | _, _ => none
  | _ => none

/-- The loop goes on. -/
def advance (cfg : CoordinatorConfig) (s : FanIn) (e : ItemLoop.Event) : FanIn :=
  { s with loop := (ItemLoop.step cfg s.loop e).1 }

/-- The coroutine of task `p` is no `execute` of a multi-intent turn. -/
def foreign (s : FanIn) (p : ℕ) : Bool :=
  match s.loop.kind p with
  | some (.provider _ _ item) => (s.registered item).isNone
  | _ => false

/-- What the loop does without a search: a provider task of a registered item ends as its search does. -/
def admits (s : FanIn) : ItemLoop.Event → Bool
  | .finish p _ => s.foreign p
  | _ => true

/-- The call of `execute` for an item. -/
def execution? (s : FanIn) (item : ℕ) : Option Execution := s.executions.find? fun x => x.item = item

/-- The index in the turn id that the result of an item carries. -/
def carried (s : FanIn) (item : ℕ) : Option ℕ := (s.execution? item).bind Execution.popped

/-- The call of `execute` that provider task `p` runs. -/
def provided (s : FanIn) (p : ℕ) : Option Execution :=
  match s.loop.kind p with
  | some (.provider _ _ item) => s.execution? item
  | _ => none

/-- The rest of `execute`, when its search ends; without an index it never got to one. -/
def searchEnded (cfg : CoordinatorConfig) (s : FanIn) (p : ℕ) (x : Execution) : SearchEnd → FanIn
  | .answered a =>
    match x.popped with
    | none => s.advance cfg (.finish p .raised)
    | some index =>
      { s.advance cfg (.finish p .value) with
        outcomeLabels := Function.update s.outcomeLabels x.turn (Function.update (s.outcomeLabels x.turn) index (some a))
        answers := Function.update s.answers x.item (some a) }
  | .raised => s.advance cfg (.finish p .raised)
  | .cancelled => s.advance cfg (.finish p .cancelled)

/-- One step. -/
def step (cfg : CoordinatorConfig) (s : FanIn) : Event → FanIn
  | .dispatch r =>
    let turn := s.turns.length
    let s := { s with
      turns := s.turns ++ [r], pending := Function.update s.pending turn r.executionIndexes }
    (r.items.take cfg.maxWorkItemsPerTurn).foldl (admitItem cfg turn) s
  | .loop e =>
    if s.admits e then (s.call cfg (.loop e)).elim (s.advance cfg e) fun c => (s.advance cfg e).execute c.1 c.2 else s
  | .searched p how =>
    if (s.loop.tasks p).phase = .suspended .outside then (s.provided p).elim s fun x => s.searchEnded cfg p x how
    else s

/-- The state a run leads to. -/
def after (cfg : CoordinatorConfig) (es : List Event) : FanIn := run (step cfg) {} es

/-- **A result carries the turn id of its own work item**: what the task registered under `work-T-index`
returned carries `T-index`. -/
def Attributed (s : FanIn) : Prop :=
  ∀ item turn index, s.registered item = some (turn, index) → (s.loop.tasks item).phase = .done .value →
    s.carried item = some index

/-- The indexes a turn has for a worker and a query. -/
def indexes (s : FanIn) (turn : ℕ) (pair : String × String) : List ℕ :=
  s.turns[turn]?.elim [] fun r => r.executionIndexes pair

/-- The calls of `execute` for a worker and a query of a turn. -/
def executed (s : FanIn) (turn : ℕ) (pair : String × String) : List Execution :=
  s.executions.filter fun x => x.turn = turn ∧ x.pair = pair

/-- The item whose task a step ends with a result. -/
def returning (s : FanIn) : Event → Option ℕ
  | .loop (.wake item) =>
    match (s.loop.tasks item).phase with
    | .suspended (.task p) =>
      if (s.loop.tasks p).isDone = true ∧ s.loop.awaitOutcome item p = .value then some item else none
    | _ => none
  | _ => none

/-- **An item that returns had started in its turn**: among the equal items of its turn it was as many to start
before it as stand before it. -/
def InTurn (s : FanIn) (e : Event) : Prop :=
  ∀ item ∈ s.returning e, ∀ x ∈ s.execution? item,
    (s.executed x.turn x.pair).idxOf x = (s.indexes x.turn x.pair).idxOf x.index

/-! ## What every step keeps -/

/-- **Registration is exact**: an item is registered once, under an index of its turn with its own worker and
query, and calls `execute` at most once, when its provider task starts; the calls for a worker and a query pop
their indexes in order; and what came back is labelled. -/
structure Sound (s : FanIn) : Prop where
  paired : s.loop.Paired
  awaits : s.loop.Awaits
  known : ∀ i turn index, s.registered i = some (turn, index) →
    ∃ pair, s.loop.kind i = some (.item pair.1 pair.2) ∧ index ∈ s.indexes turn pair
  distinct : ∀ i j owner, s.registered i = some owner → s.registered j = some owner → i = j
  started : ∀ x ∈ s.executions, s.registered x.item = some (x.turn, x.index) ∧
    ∃ p < s.loop.stepped, s.loop.kind p = some (.provider x.pair.1 x.pair.2 x.item)
  single : (s.executions.map Execution.item).Nodup
  left : ∀ turn pair, s.pending turn pair = (s.indexes turn pair).drop (s.executed turn pair).length
  ordered : ∀ (turn : ℕ) (pair : String × String) (n : ℕ) (x : Execution), (s.executed turn pair)[n]? = some x → x.popped = (s.indexes turn pair)[n]?
  labelled : ∀ i a, s.answers i = some a →
    ∃ x index, s.execution? i = some x ∧ x.popped = some index ∧ s.outcomeLabels x.turn index = some a
  searched : ∀ p w text i, s.loop.kind p = some (.provider w text i) → (s.registered i).isSome →
    (s.loop.tasks p).phase = .done .value → (s.answers i).isSome
  returned : ∀ i, (s.registered i).isSome → (s.loop.tasks i).phase = .done .value → (s.answers i).isSome

variable {cfg : CoordinatorConfig} {s : FanIn}

theorem sound_init : Sound {} where
  paired := ItemLoop.paired_init
  awaits := nofun
  known := nofun
  distinct := nofun
  started := nofun
  single := List.nodup_nil
  left _ _ := rfl
  ordered := nofun
  labelled := nofun
  searched := nofun
  returned := nofun

theorem Runnable.mem_executionIndexes {r : Runnable} {k : ℕ} {pair : String × String} :
    k ∈ r.executionIndexes pair ↔ (k, pair) ∈ r.items := by
  simp [Runnable.executionIndexes]

theorem nodup_executionIndexes (r : Runnable) (pair : String × String) : (r.executionIndexes pair).Nodup :=
  (r.ascending.imp Nat.ne_of_lt).sublist (List.filter_sublist.map Prod.fst)

theorem nodup_indexes (s : FanIn) (turn : ℕ) (pair : String × String) : (s.indexes turn pair).Nodup := by
  rw [indexes]
  rcases s.turns[turn]? with _ | r
  · exact List.nodup_nil
  · exact nodup_executionIndexes r pair

/-- An index has one worker and one query. -/
theorem pair_eq_of_mem_indexes {turn index : ℕ} {pair pair' : String × String} (h : index ∈ s.indexes turn pair)
    (h' : index ∈ s.indexes turn pair') : pair = pair' := by
  rw [indexes] at h h'
  rcases hr : s.turns[turn]? with _ | r
  · rw [hr] at h
    exact absurd h List.not_mem_nil
  · rw [hr] at h h'
    have hnodup : (r.items.map Prod.fst).Nodup := r.ascending.imp Nat.ne_of_lt
    exact congrArg Prod.snd (List.inj_on_of_nodup_map hnodup (Runnable.mem_executionIndexes.mp h)
      (Runnable.mem_executionIndexes.mp h') rfl)

theorem mem_executed {turn : ℕ} {pair : String × String} {x : Execution} :
    x ∈ s.executed turn pair ↔ x ∈ s.executions ∧ x.turn = turn ∧ x.pair = pair := by
  rw [executed, List.mem_filter, decide_eq_true_eq]

theorem mem_executed_self {x : Execution} (hx : x ∈ s.executions) : x ∈ s.executed x.turn x.pair :=
  mem_executed.mpr ⟨hx, rfl, rfl⟩

/-- What is known of the call for an item. -/
theorem Sound.execution?_eq_some_iff (h : s.Sound) {item : ℕ} {x : Execution} :
    s.execution? item = some x ↔ x ∈ s.executions ∧ x.item = item := by
  rw [execution?]
  constructor
  · intro hx
    have hitem := List.find?_some hx
    rw [decide_eq_true_eq] at hitem
    exact ⟨List.mem_of_find?_eq_some hx, hitem⟩
  · rintro ⟨hx, rfl⟩
    have hsome : (s.executions.find? fun y => y.item = x.item).isSome :=
      List.find?_isSome.mpr ⟨x, hx, decide_eq_true rfl⟩
    obtain ⟨y, hy⟩ := Option.isSome_iff_exists.mp hsome
    have hitem := List.find?_some hy
    rw [decide_eq_true_eq] at hitem
    rw [hy, List.inj_on_of_nodup_map h.single (List.mem_of_find?_eq_some hy) hx hitem]

/-- **Two calls of a turn pop two indexes.** -/
theorem Sound.popped_inj (h : s.Sound) {x y : Execution} (hx : x ∈ s.executions) (hy : y ∈ s.executions)
    (hturn : x.turn = y.turn) {index : ℕ} (hpopped : x.popped = some index) (hpopped' : y.popped = some index) : x = y := by
  obtain ⟨n, hn⟩ := List.mem_iff_getElem?.mp (mem_executed_self hx)
  obtain ⟨m, hm⟩ := List.mem_iff_getElem?.mp (mem_executed_self hy)
  have hindex := (h.ordered _ _ n x hn).symm.trans hpopped
  have hindex' := (h.ordered _ _ m y hm).symm.trans hpopped'
  rw [← hturn] at hindex' hm
  have hpair : x.pair = y.pair :=
    pair_eq_of_mem_indexes (List.mem_of_getElem? hindex) (List.mem_of_getElem? hindex')
  rw [← hpair] at hindex' hm
  have hnm : n = m := by
    obtain ⟨hlt, hget⟩ := List.getElem?_eq_some_iff.mp hindex
    obtain ⟨hlt', hget'⟩ := List.getElem?_eq_some_iff.mp hindex'
    exact (List.Nodup.getElem_inj_iff (s.nodup_indexes x.turn x.pair)).mp (hget.trans hget'.symm)
  rw [hnm, hm] at hn
  exact (Option.some.inj hn).symm

/-- The index of an item that called `execute` is one of its worker and query. -/
theorem Sound.index_mem (h : s.Sound) {x : Execution} (hx : x ∈ s.executions) : x.index ∈ s.indexes x.turn x.pair := by
  obtain ⟨hregistered, p, -, hprovider⟩ := h.started x hx
  obtain ⟨pair, hkind, hmem⟩ := h.known x.item x.turn x.index hregistered
  rw [(h.paired.engaged p _ _ _ hprovider).1] at hkind
  obtain ⟨hfst, hsnd⟩ := TaskKind.item.inj (Option.some.inj hkind)
  rwa [← Prod.ext hfst hsnd] at hmem

/-- **A call pops the item's own index if and only if it is in its turn.** -/
theorem Sound.popped_eq_iff (h : s.Sound) {x : Execution} (hx : x ∈ s.executions) :
    x.popped = some x.index ↔ (s.executed x.turn x.pair).idxOf x = (s.indexes x.turn x.pair).idxOf x.index := by
  have hplace : (s.executed x.turn x.pair)[(s.executed x.turn x.pair).idxOf x]? = some x := by
    rw [List.getElem?_eq_getElem (List.idxOf_lt_length_of_mem (mem_executed_self hx)), List.getElem_idxOf]
  rw [h.ordered _ _ _ x hplace]
  constructor
  · intro hindex
    obtain ⟨hlt, hget⟩ := List.getElem?_eq_some_iff.mp hindex
    conv_rhs => rw [← hget]
    exact ((s.nodup_indexes x.turn x.pair).idxOf_getElem _ hlt).symm
  · intro hplaces
    rw [hplaces, List.getElem?_eq_getElem (List.idxOf_lt_length_of_mem (h.index_mem hx)), List.getElem_idxOf]

/-- **`execute` never runs out of indexes**: there are no more calls for a worker and a query of a turn than
items. -/
theorem Sound.popped_isSome (h : s.Sound) {x : Execution} (hx : x ∈ s.executions) : x.popped.isSome := by
  have hplace : (s.executed x.turn x.pair)[(s.executed x.turn x.pair).idxOf x]? = some x := by
    rw [List.getElem?_eq_getElem (List.idxOf_lt_length_of_mem (mem_executed_self hx)), List.getElem_idxOf]
  have hnodup : ((s.executed x.turn x.pair).map Execution.index).Nodup := by
    refine List.Nodup.map_on (fun y hy z hz hindex => ?_) (h.single.of_map.filter _)
    obtain ⟨hy, hyturn, -⟩ := mem_executed.mp hy
    obtain ⟨hz, hzturn, -⟩ := mem_executed.mp hz
    have hyowner := (h.started y hy).1
    rw [hyturn, hindex, ← hzturn] at hyowner
    exact List.inj_on_of_nodup_map h.single hy hz (h.distinct _ _ _ hyowner (h.started z hz).1)
  have hsubset : (s.executed x.turn x.pair).map Execution.index ⊆ s.indexes x.turn x.pair := by
    intro k hk
    obtain ⟨y, hy, rfl⟩ := List.mem_map.mp hk
    obtain ⟨hy, hturn, hpair⟩ := mem_executed.mp hy
    rw [← hturn, ← hpair]
    exact h.index_mem hy
  have hle := (List.subperm_of_subset hnodup hsubset).length_le
  rw [List.length_map] at hle
  rw [h.ordered _ _ _ x hplace, List.getElem?_eq_getElem]
  · rfl
  · exact Nat.lt_of_lt_of_le (List.idxOf_lt_length_of_mem (mem_executed_self hx)) hle

/-- What a call of `execute` is. -/
theorem call_eq_some {e : Event} {item : ℕ} {pair : String × String} (hcall : s.call cfg e = some (item, pair)) :
    ∃ e', e = .loop e' ∧ s.loop.kind s.loop.stepped = some (.provider pair.1 pair.2 item) ∧ s.loop.stepped < s.loop.created ∧
      (ItemLoop.step cfg s.loop e').1.stepped = s.loop.stepped + 1 := by
  cases e with
  | dispatch r => cases hcall
  | searched p how => cases hcall
  | loop e' =>
    rw [call] at hcall
    rcases ItemLoop.step_starts_provider cfg s.loop e' with hnone | ⟨w, text, i, hout, hkind, hlt, hstepped⟩
    · rw [hnone] at hcall
      cases hcall
    · rw [hout, hkind] at hcall
      cases hcall
      exact ⟨e', rfl, hkind, hlt, hstepped⟩

/-- **An item that starts has not started before.** -/
theorem Sound.call_fresh (h : s.Sound) {e : Event} {item : ℕ} {pair : String × String}
    (hcall : s.call cfg e = some (item, pair)) : ∀ x ∈ s.executions, x.item ≠ item := by
  rintro x hx rfl
  obtain ⟨e', -, hkind, -, -⟩ := call_eq_some hcall
  obtain ⟨-, p, hp, hkind'⟩ := h.started x hx
  exact Nat.ne_of_lt hp (h.paired.unique p _ _ _ _ _ _ hkind' hkind)

/-- What a call of `execute` does, for an item that is registered. -/
theorem execute_eq (s : FanIn) {item turn index : ℕ} {pair : String × String}
    (hregistered : s.registered item = some (turn, index)) :
    s.execute item pair = { s with
      pending := Function.update s.pending turn (Function.update (s.pending turn) pair (s.pending turn pair).tail)
      executions := s.executions ++ [⟨item, turn, pair, index, (s.pending turn pair).head?⟩] } := by
  rw [execute, hregistered]

/-- What an answer leaves behind. -/
def answer (s : FanIn) (x : Execution) (index : ℕ) (a : Answered) : FanIn :=
  { s with
    outcomeLabels := Function.update s.outcomeLabels x.turn (Function.update (s.outcomeLabels x.turn) index (some a))
    answers := Function.update s.answers x.item (some a) }

/-- A step of the loop that ends no search with a result. -/
def Plain (s : FanIn) (e : ItemLoop.Event) : Prop := ∀ p, e = .finish p .value → s.foreign p = true

/-- A step that wakes no item. -/
def Event.Unwaking (e : Event) : Prop := ∀ i, e ≠ .loop (.wake i)

/-- **What one step is**: a turn submits its items, nothing happens, the loop goes on, and maybe `execute` is
called, or a search comes back. -/
theorem step_cases (cfg : CoordinatorConfig) (s : FanIn) (e : Event) :
    (∃ r, e = .dispatch r) ∨
    (step cfg s e = s ∧ e.Unwaking) ∨
    (∃ e', s.Plain e' ∧ (e = .loop e' ∨ e.Unwaking ∧ (Event.loop e').Unwaking) ∧ step cfg s e = s.advance cfg e') ∨
    (∃ e' item pair turn index, s.Plain e' ∧ e = .loop e' ∧ s.call cfg (.loop e') = some (item, pair) ∧
      s.registered item = some (turn, index) ∧ step cfg s e = (s.advance cfg e').execute item pair) ∨
    ∃ p x index a, e.Unwaking ∧ s.provided p = some x ∧ x.popped = some index ∧
      step cfg s e = (s.advance cfg (.finish p .value)).answer x index a := by
  cases e with
  | dispatch r => exact Or.inl ⟨r, rfl⟩
  | loop e =>
    rw [step]
    by_cases hadmits : s.admits e = true
    swap
    · rw [if_neg hadmits]
      refine Or.inr (Or.inl ⟨rfl, ?_⟩)
      rintro i ⟨⟩
      exact hadmits rfl
    have hplain : s.Plain e := by
      rintro p rfl
      exact hadmits
    rw [if_pos hadmits]
    rcases hcall : s.call cfg (.loop e) with _ | ⟨item, pair⟩
    · exact Or.inr (Or.inr (Or.inl ⟨e, hplain, Or.inl rfl, rfl⟩))
    · rcases hregistered : s.registered item with _ | ⟨turn, index⟩
      · refine Or.inr (Or.inr (Or.inl ⟨e, hplain, Or.inl rfl, ?_⟩))
        have hnone : (s.advance cfg e).registered item = none := hregistered
        rw [Option.elim_some, execute, hnone]
      · exact Or.inr (Or.inr (Or.inr (Or.inl ⟨e, item, pair, turn, index, hplain, rfl, hcall, hregistered, rfl⟩)))
  | searched p how =>
    have hunwaking : (Event.searched p how).Unwaking := by rintro i ⟨⟩
    have hends : ∀ o, o ≠ .value → step cfg s (.searched p how) = s.advance cfg (.finish p o) →
        ∃ e', s.Plain e' ∧ (Event.searched p how = .loop e' ∨
          (Event.searched p how).Unwaking ∧ (Event.loop e').Unwaking) ∧ step cfg s (.searched p how) = s.advance cfg e' := by
      intro o ho hstep
      refine ⟨.finish p o, ?_, Or.inr ⟨hunwaking, by rintro i ⟨⟩⟩, hstep⟩
      rintro q ⟨⟩
      exact absurd rfl ho
    have hstep : step cfg s (.searched p how) = if (s.loop.tasks p).phase = .suspended .outside then
        (s.provided p).elim s fun x => s.searchEnded cfg p x how else s := rfl
    by_cases hphase : (s.loop.tasks p).phase = .suspended .outside
    swap
    · exact Or.inr (Or.inl ⟨hstep.trans (if_neg hphase), hunwaking⟩)
    rw [if_pos hphase] at hstep
    rcases hprovided : s.provided p with _ | x
    · rw [hprovided] at hstep
      exact Or.inr (Or.inl ⟨hstep, hunwaking⟩)
    rw [hprovided, Option.elim_some] at hstep
    rcases how with a | _ | _
    · rw [searchEnded] at hstep
      rcases hpopped : x.popped with _ | index
      · rw [hpopped] at hstep
        exact Or.inr (Or.inr (Or.inl (hends .raised (by decide) hstep)))
      · rw [hpopped] at hstep
        exact Or.inr (Or.inr (Or.inr (Or.inr ⟨p, x, index, a, hunwaking, hprovided, hpopped, hstep⟩)))
    · exact Or.inr (Or.inr (Or.inl (hends .raised (by decide) hstep)))
    · exact Or.inr (Or.inr (Or.inl (hends .cancelled (by decide) hstep)))

/-! ### The loop goes on -/

/-- A provider task that has a result now had one before, or ended in this step. -/
theorem Sound.provider_value (h : s.Sound) {e : ItemLoop.Event} {p i : ℕ} {w text : String}
    (hkind : (ItemLoop.step cfg s.loop e).1.kind p = some (.provider w text i))
    (hphase : ((ItemLoop.step cfg s.loop e).1.tasks p).phase = .done .value) :
    s.loop.kind p = some (.provider w text i) ∧ ((s.loop.tasks p).phase = .done .value ∨ e = .finish p .value) := by
  have hold : (s.loop.tasks p).phase ≠ .fresh → s.loop.kind p = some (.provider w text i) := fun hne => by
    have hlt := Nat.lt_of_lt_of_le (h.paired.lt_stepped hne) h.paired.stepped_le
    rw [← (ItemLoop.grows_step cfg s.loop e).kind_eq p hlt, hkind]
  rcases h.paired.phase_step cfg e with hmoves | ⟨j, w', text', q, rfl, hitem, hsuspended, -, hafter⟩ |
    ⟨q, o, rfl, houtside, hafter⟩
  · rcases hmoves p with hsame | hgoes
    · rw [hphase] at hsame
      exact ⟨hold (by rw [← hsame]; rintro ⟨⟩), Or.inl hsame.symm⟩
    · exact absurd hphase hgoes.no_value
  · rw [hafter] at hphase
    split_ifs at hphase with hpj
    · subst hpj
      have hprovider := hold (by rw [hsuspended]; rintro ⟨⟩)
      rw [hitem] at hprovider
      cases hprovider
    · exact ⟨hold (by rw [hphase]; rintro ⟨⟩), Or.inl hphase⟩
  · rw [hafter] at hphase
    split_ifs at hphase with hpq
    · subst hpq
      cases hphase
      exact ⟨hold (by rw [houtside]; rintro ⟨⟩), Or.inr rfl⟩
    · exact ⟨hold (by rw [hphase]; rintro ⟨⟩), Or.inl hphase⟩

/-- **An item that has a result now had one before, or returns in this step**, from a provider task with a
result. -/
theorem Sound.item_value (h : s.Sound) {e : ItemLoop.Event} {i : ℕ}
    (hphase : ((ItemLoop.step cfg s.loop e).1.tasks i).phase = .done .value) :
    (s.loop.tasks i).phase = .done .value ∨ (e = .wake i ∧ s.returning (.loop e) = some i ∧
      ∃ p w' text', s.loop.kind p = some (.provider w' text' i) ∧ (s.loop.tasks p).phase = .done .value) ∨
    e = .finish i .value := by
  rcases h.paired.phase_step cfg e with hmoves | ⟨j, w', text', p, rfl, -, hsuspended, hdone, hafter⟩ |
    ⟨q, o, rfl, -, hafter⟩
  · exact (hmoves i).elim (fun hsame => Or.inl (hsame.symm.trans hphase)) fun hgoes => absurd hphase hgoes.no_value
  · rw [hafter] at hphase
    split_ifs at hphase with hij
    swap
    · exact Or.inl hphase
    subst hij
    have hvalue : s.loop.awaitOutcome i p = .value := TaskPhase.done.inj hphase
    obtain ⟨w'', text'', hprovider⟩ := h.awaits i p hsuspended
    refine Or.inr (Or.inl ⟨rfl, ?_, p, w'', text'', hprovider, ?_⟩)
    · rw [returning, hsuspended]
      exact if_pos ⟨hdone, hvalue⟩
    · rw [ItemLoop.awaitOutcome] at hvalue
      split_ifs at hvalue
      obtain ⟨o, ho⟩ := Task.isDone_iff.mp hdone
      rw [ho] at hvalue ⊢
      rw [show o = Outcome.value from hvalue]
  · rw [hafter] at hphase
    split_ifs at hphase with hiq
    · subst hiq
      cases hphase
      exact Or.inr (Or.inr rfl)
    · exact Or.inl hphase

theorem foreign_eq_true {p : ℕ} {w text : String} {i : ℕ} (hkind : s.loop.kind p = some (.provider w text i)) :
    s.foreign p = true ↔ s.registered i = none := by
  rw [foreign, hkind, Option.isNone_iff_eq_none]

/-- The loop goes on, and the labels and answers with it: what a search comes back with is noted. -/
theorem Sound.proceed (h : s.Sound) {e : ItemLoop.Event} {labels : ℕ → ℕ → Option Answered} {answers : ℕ → Option Answered}
    (hlabelled : ∀ i a, answers i = some a →
      ∃ x index, s.execution? i = some x ∧ x.popped = some index ∧ labels x.turn index = some a)
    (hkeeps : ∀ i, (s.answers i).isSome → (answers i).isSome)
    (hprovider : ∀ p w text i, s.loop.kind p = some (.provider w text i) → (s.registered i).isSome →
      e = .finish p .value → (answers i).isSome)
    (hitem : ∀ i w text, s.loop.kind i = some (.item w text) → e ≠ .finish i .value) :
    Sound { s.advance cfg e with outcomeLabels := labels, answers } := by
  have hgrows := ItemLoop.grows_step cfg s.loop e
  refine { h with
    paired := h.paired.step e
    awaits := h.awaits.step h.paired e
    known := fun i turn index hi => ?_
    started := fun x hx => ?_
    labelled := hlabelled
    searched := fun p w text i hkind hregistered hphase => ?_
    returned := fun i hregistered hphase => ?_ }
  · obtain ⟨pair, hkind, hmem⟩ := h.known i turn index hi
    exact ⟨pair, (hgrows.kind_eq i (h.paired.lt_created hkind)).trans hkind, hmem⟩
  · obtain ⟨hregistered, p, hp, hkind⟩ := h.started x hx
    exact ⟨hregistered, p, Nat.lt_of_lt_of_le hp hgrows.stepped_le,
      (hgrows.kind_eq p (h.paired.lt_created hkind)).trans hkind⟩
  · obtain ⟨hkind', hbefore | hends⟩ := h.provider_value hkind hphase
    · exact hkeeps i (h.searched p w text i hkind' hregistered hbefore)
    · exact hprovider p w text i hkind' hregistered hends
  · obtain ⟨⟨turn, index⟩, hi⟩ := Option.isSome_iff_exists.mp hregistered
    obtain ⟨pair, hkind, -⟩ := h.known i turn index hi
    rcases h.item_value hphase with hbefore | ⟨-, -, p, w, text, hkind', hvalue⟩ | hends
    · exact hkeeps i (h.returned i hregistered hbefore)
    · exact hkeeps i (h.searched p w text i hkind' hregistered hvalue)
    · exact absurd hends (hitem i _ _ hkind)

/-- A step that ends no search with a result. -/
theorem Sound.advance (h : s.Sound) {e : ItemLoop.Event} (hplain : s.Plain e) : (s.advance cfg e).Sound := by
  refine h.proceed h.labelled (fun _ hi => hi) (fun p w text i hkind hregistered hends => ?_) fun i w text hkind hends => ?_
  · rw [(foreign_eq_true hkind).mp (hplain p hends)] at hregistered
    cases hregistered
  · have hforeign := hplain i hends
    rw [foreign, hkind] at hforeign
    cases hforeign

/-- The provider task that a search runs in. -/
theorem Sound.provided_eq_some (h : s.Sound) {p : ℕ} {x : Execution} (hp : s.provided p = some x) :
    x ∈ s.executions ∧ ∃ w text, s.loop.kind p = some (.provider w text x.item) := by
  rw [provided] at hp
  split at hp
  · rename_i w text i hkind
    obtain ⟨hx, rfl⟩ := h.execution?_eq_some_iff.mp hp
    exact ⟨hx, w, text, hkind⟩
  · cases hp

/-- **A search comes back**: its result is labelled under the index that was popped. -/
theorem Sound.answer (h : s.Sound) {p : ℕ} {x : Execution} {index : ℕ} (hp : s.provided p = some x)
    (hpopped : x.popped = some index) (a : Answered) : ((s.advance cfg (.finish p .value)).answer x index a).Sound := by
  obtain ⟨hx, w, text, hkind⟩ := h.provided_eq_some hp
  have hown : s.execution? x.item = some x := h.execution?_eq_some_iff.mpr ⟨hx, rfl⟩
  refine h.proceed (fun i b hb => ?_) (fun i hi => ?_) (fun q w' text' i hkind' _ hends => ?_) fun i w' text' hkind' hends => ?_
  · by_cases hi : i = x.item
    · subst hi
      dsimp only [FanIn.advance] at hb
      rw [Function.update_self] at hb
      refine ⟨x, index, hown, hpopped, ?_⟩
      rw [Function.update_self, Function.update_self]
      exact hb
    · dsimp only [FanIn.advance] at hb
      rw [Function.update_of_ne hi] at hb
      obtain ⟨y, k, hy, hk, hlabel⟩ := h.labelled i b hb
      obtain ⟨hymem, hyitem⟩ := h.execution?_eq_some_iff.mp hy
      refine ⟨y, k, hy, hk, ?_⟩
      dsimp only [FanIn.advance]
      by_cases hturn : y.turn = x.turn
      · have hne : k ≠ index := by
          rintro rfl
          exact hi (hyitem.symm.trans (congrArg Execution.item (h.popped_inj hymem hx hturn hk hpopped)))
        rw [hturn, Function.update_self, Function.update_of_ne hne, ← hturn]
        exact hlabel
      · rw [Function.update_of_ne hturn]
        exact hlabel
  · dsimp only [FanIn.advance]
    by_cases hi' : i = x.item
    · rw [hi', Function.update_self]
      rfl
    · rwa [Function.update_of_ne hi']
  · cases hends
    rw [hkind] at hkind'
    cases hkind'
    dsimp only [FanIn.advance]
    rw [Function.update_self]
    rfl
  · cases hends
    rw [hkind] at hkind'
    cases hkind'

/-! ### A call of `execute` -/

theorem executed_append (s : FanIn) (pending : ℕ → String × String → List ℕ) (x : Execution) (turn : ℕ)
    (pair : String × String) : executed { s with pending, executions := s.executions ++ [x] } turn pair
      = if x.turn = turn ∧ x.pair = pair then s.executed turn pair ++ [x] else s.executed turn pair := by
  rw [executed, executed]
  dsimp only
  rw [List.filter_append]
  split_ifs with hown
  · rw [List.filter_singleton, decide_eq_true hown]
    rfl
  · rw [List.filter_singleton, decide_eq_false hown]
    exact List.append_nil _

/-- **An item calls `execute`**, and takes the next index of its worker and query. -/
theorem Sound.execute (h : s.Sound) {item turn index p : ℕ} {pair : String × String}
    (hregistered : s.registered item = some (turn, index)) (hfresh : ∀ x ∈ s.executions, x.item ≠ item)
    (hp : p < s.loop.stepped) (hkind : s.loop.kind p = some (.provider pair.1 pair.2 item)) :
    (s.execute item pair).Sound := by
  rw [execute_eq s hregistered]
  have hleft := h.left turn pair
  have hhead : (s.pending turn pair).head? = (s.indexes turn pair)[(s.executed turn pair).length]? := by
    rw [hleft, List.head?_drop]
  refine { h with
    started := fun x hx => ?_
    single := ?_
    left := fun turn' pair' => ?_
    ordered := fun turn' pair' n x hx => ?_
    labelled := fun i a ha => ?_ }
  · rcases List.mem_append.mp hx with hx | hx
    · exact h.started x hx
    · cases List.mem_singleton.mp hx
      exact ⟨hregistered, p, hp, hkind⟩
  · rw [List.map_append, List.map_singleton, List.nodup_append]
    refine ⟨h.single, List.nodup_singleton _, fun i hi j hj => ?_⟩
    obtain ⟨x, hx, rfl⟩ := List.mem_map.mp hi
    rw [List.mem_singleton.mp hj]
    exact hfresh x hx
  · rw [executed_append]
    dsimp only
    by_cases hown : turn = turn' ∧ pair = pair'
    · obtain ⟨rfl, rfl⟩ := hown
      rw [if_pos ⟨rfl, rfl⟩, Function.update_self, Function.update_self, List.length_append, List.length_singleton, hleft,
        List.tail_drop]
      rfl
    · rw [if_neg hown]
      have hsame : Function.update s.pending turn (Function.update (s.pending turn) pair (s.pending turn pair).tail) turn' pair'
          = s.pending turn' pair' := by
        rcases eq_or_ne turn' turn with rfl | hturn
        · rw [Function.update_self, Function.update_of_ne fun hpair => hown ⟨rfl, hpair.symm⟩]
        · rw [Function.update_of_ne hturn]
      rw [hsame]
      exact h.left turn' pair'
  · rw [executed_append] at hx
    by_cases hown : turn = turn' ∧ pair = pair'
    · obtain ⟨rfl, rfl⟩ := hown
      rw [if_pos ⟨rfl, rfl⟩] at hx
      rcases Nat.lt_trichotomy n (s.executed turn pair).length with hlt | rfl | hgt
      · rw [List.getElem?_append_left hlt] at hx
        exact h.ordered turn pair n x hx
      · rw [List.getElem?_concat_length] at hx
        cases hx
        exact hhead
      · rw [List.getElem?_eq_none (by rw [List.length_append, List.length_singleton]; omega)] at hx
        cases hx
    · rw [if_neg hown] at hx
      exact h.ordered turn' pair' n x hx
  · obtain ⟨x, k, hx, hk, hlabel⟩ := h.labelled i a ha
    refine ⟨x, k, ?_, hk, hlabel⟩
    rw [execution?] at hx ⊢
    rw [List.find?_append, hx, Option.some_or]

/-! ### A turn submits its items -/

/-- Registering one more item of a turn. -/
theorem Sound.admitItem (h : s.Sound) {turn : ℕ} {item : ℕ × String × String} (hitem : item.1 ∈ s.indexes turn item.2)
    (hfree : ∀ i, s.registered i ≠ some (turn, item.1)) : (admitItem cfg turn s item).Sound := by
  rw [FanIn.admitItem]
  by_cases hcapacity : s.loop.hasBackgroundCapacity cfg = true
  swap
  · rw [if_neg hcapacity]
    exact h
  rw [if_pos hcapacity]
  have hkind : ∀ i, i ≠ s.loop.created → (s.loop.startTask cfg item.2).kind i = s.loop.kind i := by
    intro i hi
    rw [ItemLoop.startTask, if_pos hcapacity]
    exact Function.update_of_ne hi _ _
  have hnew : (s.loop.startTask cfg item.2).kind s.loop.created = some (.item item.2.1 item.2.2) := by
    rw [ItemLoop.startTask, if_pos hcapacity]
    exact Function.update_self _ _ _
  have hstepped : (s.loop.startTask cfg item.2).stepped = s.loop.stepped := by
    rw [ItemLoop.startTask, if_pos hcapacity]
    rfl
  have hold : ∀ i owner, s.registered i = some owner → i ≠ s.loop.created := by
    rintro i ⟨t, k⟩ hi rfl
    obtain ⟨pair, hpair, -⟩ := h.known s.loop.created t k hi
    exact Nat.lt_irrefl _ (h.paired.lt_created hpair)
  have hprovider : ∀ p w text i, (s.loop.startTask cfg item.2).kind p = some (.provider w text i) →
      s.loop.kind p = some (.provider w text i) ∧ i ≠ s.loop.created := by
    intro p w text i hp
    have hne : p ≠ s.loop.created := by
      rintro rfl
      rw [hnew] at hp
      cases hp
    rw [hkind p hne] at hp
    exact ⟨hp, Nat.ne_of_lt (h.paired.lt_created (h.paired.engaged p w text i hp).1)⟩
  refine { h with
    paired := h.paired.startTask item.2
    awaits := h.awaits.submit h.paired item.2
    known := fun i t k hi => ?_
    distinct := fun i j owner hi hj => ?_
    started := fun x hx => ?_
    searched := fun p w text i hp hregistered hphase => ?_
    returned := fun i hregistered hphase => ?_ }
  · dsimp only at hi ⊢
    rcases eq_or_ne i s.loop.created with rfl | hne
    · rw [Function.update_self] at hi
      cases hi
      exact ⟨item.2, hnew, hitem⟩
    · rw [Function.update_of_ne hne] at hi
      obtain ⟨pair, hpair, hmem⟩ := h.known i t k hi
      exact ⟨pair, (hkind i hne).trans hpair, hmem⟩
  · dsimp only at hi hj
    rcases eq_or_ne i s.loop.created with rfl | hine <;> rcases eq_or_ne j s.loop.created with rfl | hjne
    · rfl
    · rw [Function.update_self] at hi
      rw [Function.update_of_ne hjne, ← hi] at hj
      exact absurd hj (hfree j)
    · rw [Function.update_self] at hj
      rw [Function.update_of_ne hine, ← hj] at hi
      exact absurd hi (hfree i)
    · rw [Function.update_of_ne hine] at hi
      rw [Function.update_of_ne hjne] at hj
      exact h.distinct i j owner hi hj
  · obtain ⟨hregistered, p, hp, hprovider⟩ := h.started x hx
    dsimp only
    rw [Function.update_of_ne (hold _ _ hregistered), hstepped]
    exact ⟨hregistered, p, hp, (hkind p (Nat.ne_of_lt (h.paired.lt_created hprovider))).trans hprovider⟩
  · dsimp only at hp hregistered hphase
    obtain ⟨hkind', hne⟩ := hprovider p w text i hp
    rw [Function.update_of_ne hne] at hregistered
    rw [h.paired.phase_startTask] at hphase
    exact h.searched p w text i hkind' hregistered hphase
  · dsimp only at hregistered hphase
    rw [h.paired.phase_startTask] at hphase
    have hne : i ≠ s.loop.created := by
      rintro rfl
      rw [h.paired.fresh_created] at hphase
      cases hphase
    rw [Function.update_of_ne hne] at hregistered
    exact h.returned i hregistered hphase

/-- What registering an item leaves alone. -/
structure Frame (s s' : FanIn) : Prop where
  turns_eq : s'.turns = s.turns
  executions_eq : s'.executions = s.executions
  phase_eq : ∀ i, (s'.loop.tasks i).phase = (s.loop.tasks i).phase
  registered_of : ∀ i owner, s.registered i = some owner → s'.registered i = some owner
  registered_or : ∀ i owner, s'.registered i = some owner → s.registered i = some owner ∨ (s.loop.tasks i).phase = .fresh

theorem Frame.refl (s : FanIn) : s.Frame s := ⟨rfl, rfl, fun _ => rfl, fun _ _ hi => hi, fun _ _ hi => Or.inl hi⟩

theorem Frame.trans {s' s'' : FanIn} (h : s.Frame s') (h' : s'.Frame s'') : s.Frame s'' where
  turns_eq := h'.turns_eq.trans h.turns_eq
  executions_eq := h'.executions_eq.trans h.executions_eq
  phase_eq i := (h'.phase_eq i).trans (h.phase_eq i)
  registered_of i owner hi := h'.registered_of i owner (h.registered_of i owner hi)
  registered_or i owner hi := (h'.registered_or i owner hi).elim (h.registered_or i owner) fun hfresh =>
    Or.inr ((h.phase_eq i).symm.trans hfresh)

variable (cfg) in
theorem Sound.frame_admitItem (h : s.Sound) (turn : ℕ) (item : ℕ × String × String) :
    s.Frame (FanIn.admitItem cfg turn s item) := by
  rw [FanIn.admitItem]
  split_ifs
  swap
  · exact .refl s
  refine ⟨rfl, rfl, h.paired.phase_startTask item.2, fun i owner hi => ?_, fun i owner hi => ?_⟩
  · dsimp only
    rw [Function.update_of_ne, hi]
    rintro rfl
    obtain ⟨pair, hpair, -⟩ := h.known s.loop.created owner.1 owner.2 hi
    exact Nat.lt_irrefl _ (h.paired.lt_created hpair)
  · dsimp only at hi
    rcases eq_or_ne i s.loop.created with rfl | hne
    · exact Or.inr h.paired.fresh_created
    · rw [Function.update_of_ne hne] at hi
      exact Or.inl hi

/-- The new items are registered under the turn. -/
theorem registered_admitItem {turn : ℕ} {item : ℕ × String × String} {i : ℕ} {owner : ℕ × ℕ}
    (hi : (FanIn.admitItem cfg turn s item).registered i = some owner) :
    s.registered i = some owner ∨ owner = (turn, item.1) := by
  rw [FanIn.admitItem] at hi
  split_ifs at hi
  · dsimp only at hi
    rcases eq_or_ne i s.loop.created with rfl | hne
    · rw [Function.update_self] at hi
      exact Or.inr (Option.some.inj hi).symm
    · rw [Function.update_of_ne hne] at hi
      exact Or.inl hi
  · exact Or.inl hi

/-- Registering the items of a turn, no index twice. -/
theorem Sound.foldl_admitItem (h : s.Sound) {turn : ℕ} {items : List (ℕ × String × String)}
    (hitems : ∀ item ∈ items, item.1 ∈ s.indexes turn item.2) (hnodup : (items.map Prod.fst).Nodup)
    (hfree : ∀ item ∈ items, ∀ i, s.registered i ≠ some (turn, item.1)) :
    (items.foldl (FanIn.admitItem cfg turn) s).Sound ∧ s.Frame (items.foldl (FanIn.admitItem cfg turn) s) := by
  induction items generalizing s with
  | nil => exact ⟨h, .refl s⟩
  | cons item items ih =>
    have hframe := h.frame_admitItem cfg turn item
    rw [List.map_cons, List.nodup_cons] at hnodup
    have hadmitted : (FanIn.admitItem cfg turn s item).Sound :=
      h.admitItem (hitems item List.mem_cons_self) (hfree item List.mem_cons_self)
    obtain ⟨hsound, hrest⟩ := ih hadmitted
      (fun x hx => by
        rw [indexes, hframe.turns_eq]
        exact hitems x (List.mem_cons_of_mem item hx))
      hnodup.2
      (fun x hx i hi => by
        rcases registered_admitItem hi with hold | hnew
        · exact hfree x (List.mem_cons_of_mem item hx) i hold
        · have hsame : x.1 = item.1 := congrArg Prod.snd hnew
          exact hnodup.1 (hsame ▸ List.mem_map_of_mem hx))
    exact ⟨hsound, hframe.trans hrest⟩

/-- A turn has taken its number and filled its queues. -/
def enroll (s : FanIn) (r : Runnable) : FanIn :=
  { s with turns := s.turns ++ [r], pending := Function.update s.pending s.turns.length r.executionIndexes }

theorem step_dispatch (s : FanIn) (r : Runnable) :
    step cfg s (.dispatch r) = (r.items.take cfg.maxWorkItemsPerTurn).foldl (FanIn.admitItem cfg s.turns.length) (s.enroll r) :=
  rfl

theorem indexes_enroll (s : FanIn) (r : Runnable) (turn : ℕ) (pair : String × String) :
    (s.enroll r).indexes turn pair = if turn = s.turns.length then r.executionIndexes pair else s.indexes turn pair := by
  rw [indexes, indexes, enroll]
  dsimp only
  split_ifs with hturn
  · rw [hturn, List.getElem?_concat_length]
    rfl
  · rcases Nat.lt_or_ge turn s.turns.length with hlt | hge
    · rw [List.getElem?_append_left hlt]
    · rw [List.getElem?_eq_none (by simp; omega), List.getElem?_eq_none hge]

/-- A turn that was registered has a number. -/
theorem Sound.turn_lt (h : s.Sound) {i turn index : ℕ} (hi : s.registered i = some (turn, index)) :
    turn < s.turns.length := by
  obtain ⟨pair, -, hmem⟩ := h.known i turn index hi
  by_contra hge
  rw [indexes, List.getElem?_eq_none (Nat.le_of_not_lt hge)] at hmem
  cases hmem

theorem Sound.executed_new (h : s.Sound) (pair : String × String) : s.executed s.turns.length pair = [] := by
  rw [List.eq_nil_iff_forall_not_mem]
  intro x hx
  obtain ⟨hx, hturn, -⟩ := mem_executed.mp hx
  have hlt := h.turn_lt (h.started x hx).1
  exact Nat.ne_of_lt hlt hturn

theorem Sound.enroll (h : s.Sound) (r : Runnable) : (s.enroll r).Sound := by
  refine { h with
    known := fun i turn index hi => ?_
    left := fun turn pair => ?_
    ordered := fun turn pair n x hx => ?_ }
  · obtain ⟨pair, hkind, hmem⟩ := h.known i turn index hi
    refine ⟨pair, hkind, ?_⟩
    rw [indexes_enroll, if_neg (Nat.ne_of_lt (h.turn_lt hi))]
    exact hmem
  · rw [indexes_enroll]
    by_cases hturn : turn = s.turns.length
    · rw [if_pos hturn, show (s.enroll r).executed turn pair = [] from hturn ▸ h.executed_new pair, FanIn.enroll]
      dsimp only
      rw [hturn, Function.update_self]
      rfl
    · rw [if_neg hturn, FanIn.enroll]
      dsimp only
      rw [Function.update_of_ne hturn]
      exact h.left turn pair
  · rw [indexes_enroll]
    split_ifs with hturn
    · rw [show (s.enroll r).executed turn pair = [] from hturn ▸ h.executed_new pair] at hx
      cases hx
    · exact h.ordered turn pair n x hx

theorem Sound.dispatch (h : s.Sound) (r : Runnable) :
    (step cfg s (.dispatch r)).Sound ∧ (s.enroll r).Frame (step cfg s (.dispatch r)) := by
  rw [step_dispatch]
  have hsub := List.take_sublist cfg.maxWorkItemsPerTurn r.items
  refine (h.enroll r).foldl_admitItem (fun item hitem => ?_) ?_ fun item _ i hi => ?_
  · rw [indexes_enroll, if_pos rfl, Runnable.mem_executionIndexes]
    exact hsub.subset hitem
  · exact (r.ascending.imp Nat.ne_of_lt).sublist (hsub.map Prod.fst)
  · exact Nat.lt_irrefl _ (h.turn_lt hi)

/-- What an item that calls `execute` now was before. -/
theorem Sound.execute_step (h : s.Sound) {e : ItemLoop.Event} (hplain : s.Plain e) {item turn index : ℕ}
    {pair : String × String} (hcall : s.call cfg (.loop e) = some (item, pair))
    (hregistered : s.registered item = some (turn, index)) : ((s.advance cfg e).execute item pair).Sound := by
  obtain ⟨e', he, hkind, hlt, hstepped⟩ := call_eq_some hcall
  cases he
  refine (h.advance hplain).execute hregistered (h.call_fresh hcall) (p := s.loop.stepped) ?_ ?_
  · rw [FanIn.advance, hstepped]
    exact Nat.lt_succ_self _
  · exact ((ItemLoop.grows_step cfg s.loop e).kind_eq _ hlt).trans hkind

/-- **Every step keeps the registration exact.** -/
theorem Sound.step (h : s.Sound) (e : Event) : (step cfg s e).Sound := by
  rcases step_cases cfg s e with ⟨r, rfl⟩ | ⟨hstep, -⟩ | ⟨e', hplain, -, hstep⟩ |
    ⟨e', item, pair, turn, index, hplain, rfl, hcall, hregistered, hstep⟩ | ⟨p, x, index, a, -, hp, hpopped, hstep⟩
  · exact (h.dispatch r).1
  · rwa [hstep]
  · rw [hstep]
    exact h.advance hplain
  · rw [hstep]
    exact h.execute_step hplain hcall hregistered
  · rw [hstep]
    exact h.answer hp hpopped a

theorem sound_after (cfg : CoordinatorConfig) (es : List Event) : (after cfg es).Sound :=
  run_invariant_of_step (fun _ e h => h.step e) sound_init es

/-! ## Equal items in turn -/

theorem inTurn_of_unwaking {e : Event} (he : e.Unwaking) : s.InTurn e := by
  intro item hitem
  unfold returning at hitem
  split at hitem
  · rename_i i
    exact absurd rfl (he i)
  · cases hitem

/-- **Where no search comes back, a step keeps the results attributed if and only if an item that returns had
started in its turn.** -/
theorem Sound.attributed_advance_iff (h : s.Sound) {e : ItemLoop.Event}
    (hitem : ∀ i w text, s.loop.kind i = some (.item w text) → e ≠ .finish i .value) :
    (s.advance cfg e).Attributed ↔ s.Attributed ∧ s.InTurn (.loop e) := by
  constructor
  · intro ha
    refine ⟨fun item turn index hregistered hphase => ha item turn index hregistered (h.paired.done_step cfg e hphase), ?_⟩
    intro item hreturning x hx
    obtain ⟨hxmem, rfl⟩ := h.execution?_eq_some_iff.mp hx
    obtain ⟨hregistered, -⟩ := h.started x hxmem
    obtain ⟨pair, hkind, -⟩ := h.known x.item x.turn x.index hregistered
    unfold returning at hreturning
    split at hreturning
    swap
    · cases hreturning
    rename_i i he
    cases he
    split at hreturning
    swap
    · cases hreturning
    rename_i p hsuspended
    rw [Option.mem_def, Option.ite_none_right_eq_some] at hreturning
    obtain ⟨⟨hdone, hvalue⟩, hi⟩ := hreturning
    cases hi
    have hphase : ((ItemLoop.step cfg s.loop (.wake x.item)).1.tasks x.item).phase = .done .value := by
      rw [ItemLoop.step, hkind, hsuspended]
      dsimp only
      rw [if_pos hdone, ItemLoop.leave]
      dsimp only
      rw [ItemLoop.phase_resume, if_pos rfl, hvalue]
    have hcarried := ha x.item x.turn x.index hregistered hphase
    rw [carried, show (s.advance cfg (.wake x.item)).execution? x.item = some x from hx, Option.bind_some] at hcarried
    exact (h.popped_eq_iff hxmem).mp hcarried
  · rintro ⟨ha, hturn⟩ item turn index hregistered hphase
    obtain ⟨pair, hkind, -⟩ := h.known item turn index hregistered
    rcases h.item_value hphase with hbefore | ⟨-, hreturning, p, w, text, hprovider, hvalue⟩ | hends
    · exact ha item turn index hregistered hbefore
    · have hsome : (s.registered item).isSome := Option.isSome_iff_exists.mpr ⟨_, hregistered⟩
      obtain ⟨a, hanswer⟩ := Option.isSome_iff_exists.mp (h.searched p w text item hprovider hsome hvalue)
      obtain ⟨x, index', hx, -, -⟩ := h.labelled item a hanswer
      obtain ⟨hxmem, rfl⟩ := h.execution?_eq_some_iff.mp hx
      have hpopped := (h.popped_eq_iff hxmem).mpr (hturn x.item hreturning x hx)
      have howner := (h.started x hxmem).1
      rw [show s.registered x.item = some (turn, index) from hregistered] at howner
      rw [carried, show (s.advance cfg e).execution? x.item = some x from hx, Option.bind_some, hpopped]
      exact congrArg some (congrArg Prod.snd (Option.some.inj howner)).symm
    · exact absurd hends (hitem item _ _ hkind)

/-- A step without a result of a search ends no item. -/
theorem Plain.not_item {e : ItemLoop.Event} (hplain : s.Plain e) (i : ℕ) (w text : String)
    (hkind : s.loop.kind i = some (.item w text)) : e ≠ .finish i .value := by
  intro hends
  have hforeign := hplain i hends
  rw [foreign, hkind] at hforeign
  cases hforeign

/-- An item that calls `execute` has returned nothing. -/
theorem Sound.attributed_execute_iff (h : s.Sound) {item turn index : ℕ} {pair : String × String}
    (hregistered : s.registered item = some (turn, index)) : (s.execute item pair).Attributed ↔ s.Attributed := by
  have hcarried : ∀ i, (s.registered i).isSome → (s.loop.tasks i).phase = .done .value →
      (s.execute item pair).carried i = s.carried i := by
    intro i hi hphase
    obtain ⟨a, hanswer⟩ := Option.isSome_iff_exists.mp (h.returned i hi hphase)
    obtain ⟨x, k, hx, -, -⟩ := h.labelled i a hanswer
    rw [carried, carried, hx, execute_eq s hregistered, execution?]
    rw [execution?] at hx
    rw [List.find?_append, hx, Option.some_or]
  have hregistered' : (s.execute item pair).registered = s.registered := by rw [execute_eq s hregistered]
  have hloop : (s.execute item pair).loop = s.loop := by rw [execute_eq s hregistered]
  constructor
  · intro ha i t k hi hphase
    rw [← hcarried i (Option.isSome_iff_exists.mpr ⟨_, hi⟩) hphase]
    exact ha i t k (hregistered' ▸ hi) (hloop ▸ hphase)
  · intro ha i t k hi hphase
    rw [hregistered'] at hi
    rw [hloop] at hphase
    rw [hcarried i (Option.isSome_iff_exists.mpr ⟨_, hi⟩) hphase]
    exact ha i t k hi hphase

theorem Frame.attributed_iff {s' : FanIn} (hf : s.Frame s') : s'.Attributed ↔ s.Attributed := by
  have hcarried : ∀ i, s'.carried i = s.carried i := fun i => by
    rw [carried, carried, execution?, execution?, hf.executions_eq]
  constructor
  · intro ha i turn index hi hphase
    rw [← hcarried]
    exact ha i turn index (hf.registered_of i _ hi) ((hf.phase_eq i).trans hphase)
  · intro ha i turn index hi hphase
    rw [hf.phase_eq] at hphase
    rw [hcarried]
    refine ha i turn index ((hf.registered_or i _ hi).resolve_right fun hfresh => ?_) hphase
    rw [hfresh] at hphase
    cases hphase

/-- **A step keeps the results attributed if and only if an item that returns had started in its turn.** -/
theorem Sound.attributed_step_iff (h : s.Sound) (e : Event) :
    (FanIn.step cfg s e).Attributed ↔ s.Attributed ∧ s.InTurn e := by
  rcases step_cases cfg s e with ⟨r, rfl⟩ | ⟨hstep, hunwaking⟩ | ⟨e', hplain, he, hstep⟩ |
    ⟨e', item, pair, turn, index, hplain, rfl, hcall, hregistered, hstep⟩ | ⟨p, x, index, a, hunwaking, hp, hpopped, hstep⟩
  · rw [(h.dispatch r).2.attributed_iff, and_iff_left (inTurn_of_unwaking (by rintro i ⟨⟩))]
    exact Iff.rfl
  · rw [hstep, and_iff_left (inTurn_of_unwaking hunwaking)]
  · rw [hstep, h.attributed_advance_iff hplain.not_item]
    rcases he with rfl | ⟨hunwaking, hunwaking'⟩
    · exact Iff.rfl
    · rw [and_iff_left (inTurn_of_unwaking hunwaking), and_iff_left (inTurn_of_unwaking hunwaking')]
  · have hadvanced : (s.advance cfg e').Sound := h.advance hplain
    rw [hstep, hadvanced.attributed_execute_iff hregistered, h.attributed_advance_iff hplain.not_item]
  · have hprovider : ∀ i w text, s.loop.kind i = some (.item w text) → ItemLoop.Event.finish p .value ≠ .finish i .value := by
      rintro i w text hkind ⟨⟩
      obtain ⟨-, w', text', hkind'⟩ := h.provided_eq_some hp
      rw [hkind] at hkind'
      cases hkind'
    have hadvanced : (s.advance cfg (.finish p .value)).Attributed ↔ _ := h.attributed_advance_iff hprovider
    rw [and_iff_left (inTurn_of_unwaking (by rintro i ⟨⟩))] at hadvanced
    rw [hstep, and_iff_left (inTurn_of_unwaking hunwaking)]
    exact hadvanced

/-- **In a run every result carries the turn id of its own work item if and only if every item that returns had
started in its turn.** -/
theorem attributed_after (cfg : CoordinatorConfig) (es : List Event) :
    (after cfg es).Attributed ↔ Guarded (step cfg) InTurn {} es := by
  induction es using List.reverseRecOn with
  | nil => exact ⟨fun _ => trivial, fun _ => nofun⟩
  | append_singleton es e ih =>
    have hafter : after cfg (es ++ [e]) = step cfg (after cfg es) e := by rw [after, run_append]; rfl
    rw [hafter, (sound_after cfg es).attributed_step_iff, ih, guarded_append]
    exact and_congr_right fun _ => (and_iff_left trivial).symm

end FanIn

end SubagentsLab

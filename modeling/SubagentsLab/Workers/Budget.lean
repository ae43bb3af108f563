import SubagentsLab.Workers.Carry

/-!
# Workers/Budget — mandatory tasks are outside the capacity budget

A mandatory task is owned and mandatory at once, and its done-callbacks release it from the owned
set **before** the mandatory one; so at no moment does it stand in `owned \ mandatory`, which is
what the budget counts (`budget_after`).
-/

namespace SubagentsLab

open Machinery

namespace WorkItemCoordinator

variable {α : Type} {cfg : CoordinatorConfig} {s s' : WorkItemCoordinator α} {t : ℕ}

/-- **The budget invariant.**  An owned mandatory task is in the mandatory set, and the first of its
callbacks to come takes it out of the owned one. -/
structure Budgeted (s : WorkItemCoordinator α) : Prop where
  unborn : ∀ t, s.nextTask ≤ t →
    t ∉ s.ownedTasks ∧ t ∉ s.mandatoryTasks ∧ s.callbacks t = [] ∧ s.origin t = none
  mandatory : ∀ t ∈ s.mandatoryTasks, s.origin t = some (.started true)
  exempt : ∀ t ∈ s.ownedTasks, s.origin t = some (.started true) →
    t ∈ s.mandatoryTasks ∧ (s.callbacks t).head? = some .discardOwned

theorem budgeted_init : Budgeted ({} : WorkItemCoordinator α) where
  unborn := by simp
  mandatory := by simp
  exempt := by simp

namespace Budgeted

theorem lt_nextTask (h : s.Budgeted) (ht : s.origin t ≠ none) : t < s.nextTask := by
  by_contra hge
  exact ht (h.unborn t (Nat.le_of_not_lt hge)).2.2.2

/-- **The budget counts what was not admitted as mandatory.** -/
theorem sdiff_eq (h : s.Budgeted) :
    s.ownedTasks \ s.mandatoryTasks
      = s.ownedTasks.filter fun t => s.origin t ≠ some (.started true) := by
  ext t
  simp only [Finset.mem_sdiff, Finset.mem_filter]
  refine and_congr_right fun hown => ⟨fun hm ho => hm (h.exempt t hown ho).1, fun ho hm => ?_⟩
  exact ho (h.mandatory t hm)

/-- Nothing of the budget changed; callbacks may have been appended to. -/
theorem of_grown (h : s.Budgeted) (hnext : s'.nextTask = s.nextTask)
    (horigin : s'.origin = s.origin) (howned : s'.ownedTasks = s.ownedTasks)
    (hmandatory : s'.mandatoryTasks = s.mandatoryTasks)
    (hcallbacks : ∀ t, s'.callbacks t = s.callbacks t ∨
      (t < s.nextTask ∧ ∃ c, s'.callbacks t = s.callbacks t ++ [c])) : s'.Budgeted where
  unborn := by
    intro t ht
    rw [hnext] at ht
    rw [howned, hmandatory, horigin]
    rcases hcallbacks t with heq | ⟨hlt, -⟩
    · rw [heq]
      exact h.unborn t ht
    · exact absurd hlt (Nat.not_lt.mpr ht)
  mandatory := by
    rw [hmandatory, horigin]
    exact h.mandatory
  exempt := by
    intro t
    rw [howned, hmandatory, horigin]
    intro hown ho
    obtain ⟨hm, hhead⟩ := h.exempt t hown ho
    refine ⟨hm, ?_⟩
    rcases hcallbacks t with heq | ⟨-, c, heq⟩
    · rw [heq, hhead]
    · rw [heq, List.head?_append, hhead]
      rfl

/-- A callback was registered on a task, and the budget is as before. -/
theorem registered (h : s.Budgeted) (ht : t < s.nextTask) {c : DoneCallback}
    (hnext : s'.nextTask = s.nextTask) (horigin : s'.origin = s.origin)
    (howned : s'.ownedTasks = s.ownedTasks) (hmandatory : s'.mandatoryTasks = s.mandatoryTasks)
    (hcallbacks : s'.callbacks = Function.update s.callbacks t (s.callbacks t ++ [c])) :
    s'.Budgeted := by
  refine h.of_grown hnext horigin howned hmandatory fun u => ?_
  rw [hcallbacks]
  rcases eq_or_ne u t with rfl | hu
  · exact Or.inr ⟨ht, c, Function.update_self _ _ _⟩
  · exact Or.inl (Function.update_of_ne hu _ _)

/-- Owning a task that was not admitted as mandatory. -/
theorem own (h : s.Budgeted) (ht : t < s.nextTask) (ho : s.origin t ≠ some (.started true)) :
    (s.own t).Budgeted := by
  have hown : Budgeted { s with ownedTasks := insert t s.ownedTasks } := by
    refine ⟨fun u hu => ?_, h.mandatory, fun u hu hou => ?_⟩
    · obtain ⟨hown, hrest⟩ := h.unborn u hu
      refine ⟨fun hmem => ?_, hrest⟩
      rcases Finset.mem_insert.mp hmem with rfl | hmem
      · exact absurd ht (Nat.not_lt.mpr hu)
      · exact hown hmem
    · rcases Finset.mem_insert.mp hu with rfl | hmem
      · exact absurd hou ho
      · exact h.exempt u hmem hou
  exact hown.registered ht rfl rfl rfl rfl rfl

theorem adoptTask (h : s.Budgeted) (cfg : CoordinatorConfig) (ht : t < s.nextTask)
    (ho : s.origin t ≠ some (.started true)) (force : Bool) : (s.adoptTask cfg t force).2.Budgeted := by
  simp only [WorkItemCoordinator.adoptTask]
  split_ifs
  · exact h
  · exact h
  · exact h.own ht ho

theorem createTask (h : s.Budgeted) (origin : Origin) : (s.createTask origin).Budgeted := by
  have hold : ∀ t < s.nextTask, (s.createTask origin).origin t = s.origin t := fun t ht =>
    Function.update_of_ne (Nat.ne_of_lt ht) _ _
  have hlt : ∀ t, (t ∈ s.ownedTasks ∨ t ∈ s.mandatoryTasks) → t < s.nextTask := by
    intro t hmem
    by_contra hge
    obtain ⟨h₁, h₂, -⟩ := h.unborn t (Nat.le_of_not_lt hge)
    exact hmem.elim h₁ h₂
  refine ⟨fun t ht => ?_, fun t ht => ?_, fun t ht ho => ?_⟩
  · obtain ⟨h₁, h₂, h₃, h₄⟩ := h.unborn t (Nat.le_of_succ_le ht)
    exact ⟨h₁, h₂, h₃, (Function.update_of_ne (Nat.ne_of_gt ht) _ _).trans h₄⟩
  · rw [hold t (hlt t (Or.inr ht))]
    exact h.mandatory t ht
  · rw [hold t (hlt t (Or.inl ht))] at ho
    exact h.exempt t ht ho

end Budgeted

@[simp] theorem nextTask_adoptTask (force : Bool) :
    (s.adoptTask cfg t force).2.nextTask = s.nextTask := by
  simp only [WorkItemCoordinator.adoptTask]
  split_ifs <;> rfl

@[simp] theorem origin_adoptTask (force : Bool) :
    (s.adoptTask cfg t force).2.origin = s.origin := by
  simp only [WorkItemCoordinator.adoptTask]
  split_ifs <;> rfl

/-- A new task is adopted whatever the budget. -/
theorem adoptTask_nextTask (h : s.Budgeted) (origin : Origin) :
    ((s.createTask origin).adoptTask cfg s.nextTask true).2
      = (s.createTask origin).own s.nextTask := by
  have hnew : s.nextTask ∉ (s.createTask origin).ownedTasks := (h.unborn _ (Nat.le_refl _)).1
  simp [WorkItemCoordinator.adoptTask, hnew]

namespace Budgeted

variable (cfg) in
/-- **A started task stands in the budget exactly when it was not admitted as mandatory.** -/
theorem startTask (h : s.Budgeted) {origin : Origin} {mandatory : Bool}
    (ho : origin = .started true ↔ mandatory = true) :
    (s.startTask cfg origin mandatory).2.Budgeted := by
  simp only [WorkItemCoordinator.startTask]
  rw [adoptTask_nextTask h]
  have hnew : s.nextTask < (s.createTask origin).nextTask := Nat.lt_succ_self _
  have horigin : (s.createTask origin).origin s.nextTask = some origin := Function.update_self _ _ _
  have hcreated := h.createTask origin
  split_ifs with hrefused hmandatory
  · exact h
  · -- both releases are registered at once, the owned one first
    obtain ⟨-, -, hnil, -⟩ := h.unborn s.nextTask (Nat.le_refl _)
    have hhead : ((s.createTask origin).callbacks s.nextTask) = [] := hnil
    refine ⟨fun u hu => ?_, fun u hu => ?_, fun u hu hou => ?_⟩
    · obtain ⟨h₁, h₂, h₃, h₄⟩ := hcreated.unborn u hu
      have hne : u ≠ s.nextTask := Nat.ne_of_gt hu
      refine ⟨fun hmem => ?_, fun hmem => ?_, ?_, h₄⟩
      · exact h₁ (Finset.mem_of_mem_insert_of_ne hmem hne)
      · exact h₂ (Finset.mem_of_mem_insert_of_ne hmem hne)
      · simpa [WorkItemCoordinator.addDoneCallback, WorkItemCoordinator.own, hne] using h₃
    · rcases Finset.mem_insert.mp hu with rfl | hmem
      · exact horigin.trans (congrArg some (ho.mpr hmandatory))
      · exact hcreated.mandatory u hmem
    · rcases eq_or_ne u s.nextTask with rfl | hne
      · refine ⟨Finset.mem_insert_self _ _, ?_⟩
        simp [WorkItemCoordinator.addDoneCallback, WorkItemCoordinator.own, hhead]
      · have hmem := Finset.mem_of_mem_insert_of_ne hu hne
        obtain ⟨hm, hfirst⟩ := hcreated.exempt u hmem hou
        refine ⟨Finset.mem_insert_of_mem hm, ?_⟩
        simpa [WorkItemCoordinator.addDoneCallback, WorkItemCoordinator.own, hne] using hfirst
  · refine hcreated.own hnew ?_
    rw [horigin]
    exact fun heq => hmandatory (ho.mp (Option.some.inj heq))

variable (cfg) in
theorem trackCancellingTask (h : s.Budgeted) (ht : t < s.nextTask)
    (ho : s.origin t ≠ some (.started true)) : (s.trackCancellingTask cfg t).Budgeted := by
  have hadopt := h.adoptTask cfg ht ho true
  have hlt : t < (s.adoptTask cfg t true).2.nextTask := by rwa [nextTask_adoptTask]
  exact hadopt.registered hlt rfl rfl rfl rfl rfl

theorem trackItem (h : s.Budgeted) (ht : t < s.nextTask) (item : SelectedItem) :
    (s.trackItem item t).Budgeted := by
  have hsubmit : Budgeted ({ s with
      workTasks := s.workTasks.set item.workItemId t
      submitTasks := insert t s.submitTasks }.addDoneCallback t .discardSubmit) :=
    h.registered ht rfl rfl rfl rfl rfl
  exact hsubmit.registered ht rfl rfl rfl rfl rfl

variable (cfg) in
/-- Tracking the task of a late callback: it is owned already. -/
theorem trackCallbackTask (h : s.Budgeted) (ht : t ∈ s.ownedTasks) :
    (s.trackCallbackTask cfg t).Budgeted := by
  have hlt : t < s.nextTask := by
    by_contra hge
    exact (h.unborn t (Nat.le_of_not_lt hge)).1 ht
  simp only [WorkItemCoordinator.trackCallbackTask, WorkItemCoordinator.adoptTask, ht, if_true]
  exact h.registered hlt rfl rfl rfl rfl rfl

variable (cfg) in
theorem retainLateTask (h : s.Budgeted) (ht : t < s.nextTask)
    (ho : s.origin t ≠ some (.started true)) (workItemId workerId : String) (hooks : LateHooks) :
    (s.retainLateTask cfg t workItemId workerId hooks).2.Budgeted := by
  have hadopt := h.adoptTask cfg ht ho false
  have hlt : t < (s.adoptTask cfg t false).2.nextTask := by rwa [nextTask_adoptTask]
  have horigin : (s.adoptTask cfg t false).2.origin t ≠ some (.started true) := by
    rwa [origin_adoptTask]
  simp only [WorkItemCoordinator.retainLateTask]
  split_ifs
  · exact h.trackCancellingTask cfg ht ho
  · exact hadopt.registered hlt rfl rfl rfl rfl rfl
  · exact hadopt.trackCancellingTask cfg hlt horigin

end Budgeted

/-- What `start_task` hands back: nothing, or the next task, which is owned. -/
theorem startTask_cases (h : s.Budgeted) (cfg : CoordinatorConfig) (origin : Origin)
    (mandatory : Bool) :
    (s.startTask cfg origin mandatory = (none, s) ∧
        (s.shutdown = true ∨ mandatory = false)) ∨
      ((s.startTask cfg origin mandatory).1 = some s.nextTask ∧
        (s.startTask cfg origin mandatory).2.nextTask = s.nextTask + 1 ∧
        (s.startTask cfg origin mandatory).2.origin s.nextTask = some origin ∧
        s.nextTask ∈ (s.startTask cfg origin mandatory).2.ownedTasks) := by
  simp only [WorkItemCoordinator.startTask]
  rw [adoptTask_nextTask h]
  split_ifs with hrefused hmandatory
  · refine Or.inl ⟨rfl, ?_⟩
    rcases Bool.or_eq_true_iff.mp hrefused with hshut | hrest
    · exact Or.inl hshut
    · exact Or.inr (by simpa using (Bool.and_eq_true_iff.mp hrest).1)
  · exact Or.inr ⟨rfl, rfl, Function.update_self _ _ _, Finset.mem_insert_self _ _⟩
  · exact Or.inr ⟨rfl, rfl, Function.update_self _ _ _, Finset.mem_insert_self _ _⟩

/-- **A mandatory task is refused only by a shutdown.** -/
theorem startTask_mandatory (h : s.Budgeted) (cfg : CoordinatorConfig) (hopen : s.shutdown = false) :
    (s.startTask cfg (.started true) true).1 = some s.nextTask := by
  rcases startTask_cases h cfg (.started true) true with ⟨-, hshut | hmandatory⟩ | ⟨hnew, -⟩
  · rw [hopen] at hshut
    cases hshut
  · cases hmandatory
  · exact hnew

namespace Budgeted

variable (cfg)

theorem deliver (h : s.Budgeted) (t : ℕ) (late : LateResult α) (hooks : LateHooks) :
    (s.deliver cfg t late hooks).1.Budgeted := by
  simp only [WorkItemCoordinator.deliver]
  split
  · exact h.of_grown rfl rfl rfl rfl fun _ => Or.inl rfl
  · exact h
  · have hstart : (s.startTask cfg (.started true) true).2.Budgeted := h.startTask cfg (by simp)
    rcases startTask_cases h cfg (.started true) true with ⟨heq, -⟩ | ⟨hnew, -, -, howned⟩
    · rw [heq]
      exact h
    · split
      · rename_i u s' heq
        rw [heq] at hstart hnew howned
        rw [Option.some.inj hnew]
        exact hstart.trackCallbackTask cfg howned
      · rename_i s' heq
        rw [heq] at hstart
        exact hstart

theorem completed (h : s.Budgeted) (t : ℕ) (ending : Ending α) (workItemId workerId : String)
    (hooks : LateHooks) : (s.completed cfg t ending workItemId workerId hooks).1.Budgeted := by
  have hdiscard : Budgeted { s with
      lateTasks := s.lateTasks.erase t
      backgroundTaskOrder := s.backgroundTaskOrder.erase t } :=
    h.of_grown rfl rfl rfl rfl fun _ => Or.inl rfl
  simp only [WorkItemCoordinator.completed]
  split_ifs
  · exact hdiscard
  · split
    · exact hdiscard
    · exact hdiscard.deliver cfg t _ hooks

/-- Tasks leave the sets; an owned mandatory task leaves the owned set first. -/
theorem of_released (h : s.Budgeted) (hnext : s'.nextTask = s.nextTask)
    (horigin : s'.origin = s.origin) (howned : s'.ownedTasks ⊆ s.ownedTasks)
    (hmandatory : s'.mandatoryTasks ⊆ s.mandatoryTasks)
    (hcallbacks : ∀ t, s.callbacks t = [] → s'.callbacks t = [])
    (hexempt : ∀ t ∈ s'.ownedTasks, t ∈ s.mandatoryTasks →
      (s.callbacks t).head? = some .discardOwned →
      t ∈ s'.mandatoryTasks ∧ (s'.callbacks t).head? = some .discardOwned) : s'.Budgeted where
  unborn := by
    intro t ht
    rw [hnext] at ht
    obtain ⟨h₁, h₂, h₃, h₄⟩ := h.unborn t ht
    exact ⟨fun hm => h₁ (howned hm), fun hm => h₂ (hmandatory hm), hcallbacks t h₃, horigin ▸ h₄⟩
  mandatory := fun t ht => horigin ▸ h.mandatory t (hmandatory ht)
  exempt := by
    intro t ht ho
    rw [horigin] at ho
    obtain ⟨hm, hhead⟩ := h.exempt t (howned ht) ho
    exact hexempt t ht hm hhead

/-- A callback is taken from the queue of a task; the one that releases the task is another matter. -/
theorem popped (h : s.Budgeted) {t : ℕ} {c : DoneCallback} {rest : List DoneCallback}
    (hqueue : s.callbacks t = c :: rest) (hc : c ≠ .discardOwned) :
    Budgeted { s with callbacks := Function.update s.callbacks t rest } := by
  refine h.of_released rfl rfl (Finset.Subset.refl _) (Finset.Subset.refl _) ?_ ?_
  · intro u hu
    have hut : u ≠ t := by
      rintro rfl
      rw [hqueue] at hu
      cases hu
    exact (Function.update_of_ne hut _ _).trans hu
  · intro u _ hm hhead
    have hut : u ≠ t := by
      rintro rfl
      rw [hqueue] at hhead
      exact hc (Option.some.inj hhead)
    exact ⟨hm, (congrArg List.head? (Function.update_of_ne hut _ _)).trans hhead⟩

/-- **Running a done-callback keeps the budget**: the callback that releases the owned task comes
first. -/
theorem callback (h : s.Budgeted) {t : ℕ} {c : DoneCallback} {rest : List DoneCallback}
    (hqueue : s.callbacks t = c :: rest) (ending : Ending α) :
    ({ s with callbacks := Function.update s.callbacks t rest }.runCallback cfg t ending
      c).1.Budgeted := by
  have hne : ∀ {u}, u ≠ t → Function.update s.callbacks t rest u = s.callbacks u := fun hu =>
    Function.update_of_ne hu _ _
  have hnil : ∀ u, s.callbacks u = [] → Function.update s.callbacks t rest u = [] := by
    intro u hu
    rcases eq_or_ne u t with rfl | hut
    · rw [hqueue] at hu
      cases hu
    · rw [hne hut, hu]
  have hpopped := fun hc => h.popped hqueue hc
  have hsame : ∀ {s' : WorkItemCoordinator α}, c ≠ .discardOwned → s'.nextTask = s.nextTask →
      s'.origin = s.origin → s'.ownedTasks = s.ownedTasks → s'.mandatoryTasks = s.mandatoryTasks →
      s'.callbacks = Function.update s.callbacks t rest → s'.Budgeted := by
    intro s' hc h₁ h₂ h₃ h₄ h₅
    exact (hpopped hc).of_grown h₁ h₂ h₃ h₄ fun u => Or.inl (congrFun h₅ u)
  rcases c with _ | _ | _ | _ | id | ⟨id, worker, hooks⟩ | _ <;> simp only [runCallback]
  · refine h.of_released rfl rfl (Finset.erase_subset _ _) (Finset.Subset.refl _) hnil ?_
    intro u hu hm hhead
    exact ⟨hm, by rwa [← hne (Finset.ne_of_mem_erase hu)] at hhead⟩
  · refine h.of_released rfl rfl (Finset.Subset.refl _) (Finset.erase_subset _ _) hnil ?_
    intro u _ hm hhead
    have hut : u ≠ t := by
      rintro rfl
      rw [hqueue] at hhead
      cases hhead
    exact ⟨Finset.mem_erase.mpr ⟨hut, hm⟩, by rwa [← hne hut] at hhead⟩
  · exact hsame (by simp) rfl rfl rfl rfl rfl
  · exact hsame (by simp) rfl rfl rfl rfl rfl
  · split_ifs
    · exact hsame (by simp) rfl rfl rfl rfl rfl
    · exact hpopped (by simp)
  · exact (hpopped (by simp)).completed cfg t ending id worker hooks
  · exact hsame (by simp) rfl rfl rfl rfl rfl

end Budgeted

/-! ## Submissions -/

/-- What starting the items of a call gives: one slot per item, with tasks of the call's own. -/
structure Launched (call : ℕ) (items : List SelectedItem) (s : WorkItemCoordinator α)
    (slots : List Slot) (s' : WorkItemCoordinator α) : Prop where
  keeps : Keeps s s'
  budgeted : s'.Budgeted
  items_eq : slots.map Slot.item = items
  nodup : (slots.filterMap Slot.task).Nodup
  fresh : ∀ t ∈ slots.filterMap Slot.task, s.nextTask ≤ t
  origin_eq : ∀ t ∈ slots.filterMap Slot.task, s'.origin t = some (.item call)

/-- **The items of a call get new tasks**, or none. -/
theorem launched_startItems (cfg : CoordinatorConfig) (call : ℕ) (items : List SelectedItem)
    (h : s.Budgeted) :
    Launched call items s (startItems cfg call s items).1 (startItems cfg call s items).2 := by
  induction items generalizing s with
  | nil => exact ⟨.refl s, h, rfl, by simp [startItems], by simp [startItems], by simp [startItems]⟩
  | cons item items ih =>
    have hkeeps := keeps_startTask cfg s (.item call) false
    have hstart : (s.startTask cfg (.item call) false).2.Budgeted := h.startTask cfg (by simp)
    rcases startTask_cases h cfg (.item call) false with ⟨heq, -⟩ | ⟨hnew, hnext, horigin, -⟩
    · simp only [startItems, heq]
      have hrest := ih h
      exact ⟨hrest.keeps, hrest.budgeted, by simp [hrest.items_eq], hrest.nodup, hrest.fresh,
        hrest.origin_eq⟩
    · simp only [startItems]
      generalize s.startTask cfg (.item call) false = started at hkeeps hstart hnew hnext horigin
      obtain ⟨new, s₁⟩ := started
      obtain rfl : new = some s.nextTask := hnew
      have hlt : s.nextTask < s₁.nextTask := Nat.lt_of_lt_of_eq (Nat.lt_succ_self _) hnext.symm
      have htrack := keeps_trackItem s₁ item s.nextTask
      have hrest := ih (hstart.trackItem hlt item)
      have hold := (htrack.trans hrest.keeps).origin_eq _ hlt
      refine ⟨(hkeeps.trans htrack).trans hrest.keeps, hrest.budgeted, by simp [hrest.items_eq],
        ?_, ?_, ?_⟩
      · refine List.nodup_cons.mpr ⟨fun hmem => ?_, hrest.nodup⟩
        exact absurd (hrest.fresh _ hmem) (Nat.not_le.mpr hlt)
      · intro t ht
        rcases List.mem_cons.mp ht with rfl | ht
        · exact Nat.le_refl _
        · exact Nat.le_trans (Nat.le_of_lt hlt) (hrest.fresh t ht)
      · intro t ht
        rcases List.mem_cons.mp ht with rfl | ht
        · exact hold.trans horigin
        · exact hrest.origin_eq t ht

/-- **The invariant of the books.**  The tasks of a call under way are items of that call, and none
of them is retained yet. -/
structure Booked (s : WorkItemCoordinator α) : Prop extends Budgeted s where
  called : ∀ c call, s.calls c = some call → c < s.nextCall
  nodup : ∀ c call, s.calls c = some call → call.tasks.Nodup
  items : ∀ c call, s.calls c = some call → ∀ t ∈ call.tasks, s.origin t = some (.item c)
  unretained : ∀ c call, s.calls c = some call → ∀ t ∈ call.tasks, s.lateQueue t = []

theorem booked_init : Booked ({} : WorkItemCoordinator α) where
  toBudgeted := budgeted_init
  called := by simp
  nodup := by simp
  items := by simp
  unretained := by simp

theorem mem_slots_of_unfinished {ended : ℕ → Option (Ending α)} {slots : List Slot}
    {x : SelectedItem × ℕ} (hx : x ∈ slots.filterMap (unfinished ended)) :
    ⟨x.1, some x.2⟩ ∈ slots := by
  obtain ⟨⟨item, task⟩, hslot, hx⟩ := List.mem_filterMap.mp hx
  simp only [unfinished] at hx
  split at hx
  · rename_i t
    split_ifs at hx
    obtain rfl := Option.some.inj hx
    exact hslot
  · cases hx

/-- The unfinished tasks of a call are its own. -/
theorem mem_tasks_of_unfinished {ended : ℕ → Option (Ending α)} {call : SubmitCall}
    {x : SelectedItem × ℕ} (hx : x ∈ call.slots.filterMap (unfinished ended)) :
    x.2 ∈ call.tasks :=
  List.mem_filterMap.mpr ⟨_, mem_slots_of_unfinished hx, rfl⟩

/-- The completion callbacks that the verdicts of `retainAll` put on a task. -/
def retained (hooks : LateHooks) (verdicts : List ((SelectedItem × ℕ) × Bool)) (u : ℕ) :
    List DoneCallback :=
  verdicts.filterMap fun v =>
    if u = v.1.2 ∧ v.2 = true then
      some (.lateCompleted v.1.1.workItemId v.1.1.workerId hooks) else none

/-- **Retaining what is not done** gives one verdict per task, and a completion callback to each
accepted one. -/
theorem retainAll_spec (cfg : CoordinatorConfig) (hooks : LateHooks) {c : ℕ}
    (xs : List (SelectedItem × ℕ)) (h : s.Budgeted)
    (hitems : ∀ x ∈ xs, s.origin x.2 = some (.item c)) :
    (retainAll cfg hooks s xs).1.map Prod.fst = xs ∧ (retainAll cfg hooks s xs).2.Budgeted ∧
      Carries (retained hooks (retainAll cfg hooks s xs).1) s (retainAll cfg hooks s xs).2 := by
  induction xs generalizing s with
  | nil => exact ⟨rfl, h, Keeps.refl s⟩
  | cons x xs ih =>
    obtain ⟨item, t⟩ := x
    have horigin : s.origin t = some (.item c) := hitems _ List.mem_cons_self
    have ht : t < s.nextTask := h.lt_nextTask (by simp [horigin])
    have hretain := carries_retainLateTask cfg s t item.workItemId item.workerId hooks
    have hbudget := h.retainLateTask cfg ht (by simp [horigin]) item.workItemId item.workerId hooks
    obtain ⟨hfst, hrest, hcarries⟩ := ih hbudget fun x hx => by
      have hx' := hitems x (List.mem_cons_of_mem _ hx)
      rw [hretain.origin_eq _ (h.lt_nextTask (by simp [hx'])), hx']
    refine ⟨by simp [retainAll, hfst], hrest, ?_⟩
    have hboth := hretain.trans hcarries
    refine ⟨hboth.nextTask_le, hboth.origin_eq, hboth.ended_eq, hboth.shutdown_eq,
      hboth.nextCall_eq, hboth.calls_eq, fun u => (hboth.lateQueue_eq u).trans ?_⟩
    simp only [retainAll, retained, List.filterMap_cons]
    split_ifs <;> rfl

namespace Booked

/-- The calls are as before, and no task of theirs was retained. -/
theorem of_calls (h : s.Booked) (hbudget : s'.Budgeted) (hcalls : s'.calls = s.calls)
    (hnextCall : s.nextCall ≤ s'.nextCall) (horigin : ∀ t < s.nextTask, s'.origin t = s.origin t)
    (hlate : ∀ t c, s.origin t = some (.item c) → s.lateQueue t = [] → s'.lateQueue t = []) :
    s'.Booked where
  toBudgeted := hbudget
  called := fun c call hc => Nat.lt_of_lt_of_le (h.called c call (hcalls ▸ hc)) hnextCall
  nodup := fun c call hc => h.nodup c call (hcalls ▸ hc)
  items := by
    intro c call hc t ht
    have ho := h.items c call (hcalls ▸ hc) t ht
    rw [horigin t (h.lt_nextTask (by simp [ho])), ho]
  unretained := by
    intro c call hc t ht
    rw [hcalls] at hc
    exact hlate t c (h.items c call hc t ht) (h.unretained c call hc t ht)

theorem of_keeps (h : s.Booked) (hkeeps : Keeps s s') (hbudget : s'.Budgeted) : s'.Booked :=
  h.of_calls hbudget hkeeps.calls_eq (Nat.le_of_eq hkeeps.nextCall_eq.symm) hkeeps.origin_eq
    fun t _ _ hlate => by rw [hkeeps.lateQueue_eq, hlate, List.append_nil]

/-- Calls moved on, with the tasks they had, or are over. -/
theorem of_moved (h : s.Booked) (hnext : s'.nextTask = s.nextTask) (horigin : s'.origin = s.origin)
    (howned : s'.ownedTasks = s.ownedTasks) (hmandatory : s'.mandatoryTasks = s.mandatoryTasks)
    (hcallbacks : s'.callbacks = s.callbacks) (hnextCall : s'.nextCall = s.nextCall)
    (hcalls : ∀ c call', s'.calls c = some call' →
      ∃ call, s.calls c = some call ∧ call'.tasks = call.tasks) : s'.Booked where
  toBudgeted := h.of_grown hnext horigin howned hmandatory fun t => Or.inl (congrFun hcallbacks t)
  called := by
    intro c call' hc
    obtain ⟨call, hcall, -⟩ := hcalls c call' hc
    exact hnextCall ▸ h.called c call hcall
  nodup := by
    intro c call' hc
    obtain ⟨call, hcall, htasks⟩ := hcalls c call' hc
    exact htasks ▸ h.nodup c call hcall
  items := by
    intro c call' hc
    obtain ⟨call, hcall, htasks⟩ := hcalls c call' hc
    rw [htasks, horigin]
    exact h.items c call hcall
  unretained := by
    intro c call' hc
    obtain ⟨call, hcall, htasks⟩ := hcalls c call' hc
    simp only [htasks, lateQueue, hcallbacks]
    exact h.unretained c call hcall

/-- One call moved on. -/
theorem setCall (h : s.Booked) {c : ℕ} {call call' : SubmitCall} (hc : s.calls c = some call)
    (htasks : call'.tasks = call.tasks) :
    Booked { s with calls := Function.update s.calls c (some call') } := by
  refine h.of_moved rfl rfl rfl rfl rfl rfl fun d e hd => ?_
  dsimp only at hd
  rcases eq_or_ne d c with rfl | hne
  · rw [Function.update_self] at hd
    exact ⟨call, hc, Option.some.inj hd ▸ htasks⟩
  · rw [Function.update_of_ne hne] at hd
    exact ⟨e, hd, rfl⟩

/-- One call is over. -/
theorem endCall (h : s.Booked) (c : ℕ) : (s.endCall c).Booked := by
  refine h.of_moved rfl rfl rfl rfl rfl rfl fun d e hd => ?_
  dsimp only [WorkItemCoordinator.endCall] at hd
  rcases eq_or_ne d c with rfl | hne
  · simp at hd
  · rw [Function.update_of_ne hne] at hd
    exact ⟨e, hd, rfl⟩

theorem submit (h : s.Booked) (turnId : String) (items : List (String × String))
    (workItemIds : Option (List String)) (hooks : LateHooks) :
    (s.submit cfg turnId items workItemIds hooks).1.Booked := by
  have hnumbered : Booked { s with nextCall := s.nextCall + 1 } :=
    h.of_calls (h.of_grown rfl rfl rfl rfl fun _ => Or.inl rfl) rfl (Nat.le_succ _) (fun _ _ => rfl)
      fun _ _ _ hlate => hlate
  simp only [WorkItemCoordinator.submit]
  split_ifs
  · exact hnumbered
  · split
    · exact hnumbered
    · rename_i selected _
      have hlaunch := launched_startItems cfg s.nextCall selected hnumbered.toBudgeted
      have hkept := hnumbered.of_keeps hlaunch.keeps hlaunch.budgeted
      generalize startItems cfg s.nextCall { s with nextCall := s.nextCall + 1 } selected = started
        at hlaunch hkept
      obtain ⟨slots, s₁⟩ := started
      refine ⟨hkept.of_grown rfl rfl rfl rfl fun _ => Or.inl rfl, ?_, ?_, ?_, ?_⟩ <;>
        intro c call hc <;> dsimp only at hc <;> rcases eq_or_ne c s.nextCall with rfl | hne
      · exact Nat.lt_of_lt_of_eq (Nat.lt_succ_self _) hlaunch.keeps.nextCall_eq.symm
      · exact hkept.called c call (by rwa [Function.update_of_ne hne] at hc)
      · rw [Function.update_self] at hc
        exact Option.some.inj hc ▸ hlaunch.nodup
      · exact hkept.nodup c call (by rwa [Function.update_of_ne hne] at hc)
      · rw [Function.update_self] at hc
        exact Option.some.inj hc ▸ hlaunch.origin_eq
      · exact hkept.items c call (by rwa [Function.update_of_ne hne] at hc)
      · rw [Function.update_self] at hc
        obtain rfl := Option.some.inj hc
        intro t ht
        have hnil : s.callbacks t = [] := (hnumbered.unborn t (hlaunch.fresh t ht)).2.2.1
        exact (hlaunch.keeps.lateQueue_eq t).trans (by simp [lateQueue, hnil])
      · exact hkept.unretained c call (by rwa [Function.update_of_ne hne] at hc)

/-- A call that hands back its outcome is over, and what it retained was its own. -/
theorem resume (h : s.Booked) {c : ℕ} {call : SubmitCall} (hc : s.calls c = some call) :
    ((s.settle cfg call).2.endCall c).Booked := by
  obtain ⟨hfst, hbudget, hcarries⟩ := retainAll_spec cfg call.hooks
    (call.slots.filterMap (unfinished s.ended)) h.toBudgeted
    fun x hx => h.items c call hc x.2 (mem_tasks_of_unfinished hx)
  simp only [settle]
  generalize retainAll cfg call.hooks s (call.slots.filterMap (unfinished s.ended)) = kept
    at hfst hbudget hcarries
  obtain ⟨verdicts, s₁⟩ := kept
  have hother : ∀ d call', Function.update s₁.calls c none d = some call' →
      d ≠ c ∧ s.calls d = some call' := by
    intro d call' hd
    rcases eq_or_ne d c with rfl | hne
    · simp at hd
    · rw [Function.update_of_ne hne, hcarries.calls_eq] at hd
      exact ⟨hne, hd⟩
  refine ⟨hbudget.of_grown rfl rfl rfl rfl fun _ => Or.inl rfl, ?_, ?_, ?_, ?_⟩ <;>
    intro d call' hd <;> obtain ⟨hne, hd⟩ := hother d call' hd
  · exact Nat.lt_of_lt_of_eq (h.called d call' hd) hcarries.nextCall_eq.symm
  · exact h.nodup d call' hd
  · intro t ht
    have ho := h.items d call' hd t ht
    exact (hcarries.origin_eq t (h.lt_nextTask (by simp [ho]))).trans ho
  · intro t ht
    have ho := h.items d call' hd t ht
    refine (hcarries.lateQueue_eq t).trans ?_
    rw [h.unretained d call' hd t ht, List.nil_append]
    refine List.filterMap_eq_nil_iff.mpr fun v hv => if_neg ?_
    rintro ⟨rfl, -⟩
    have hx := h.items c call hc v.1.2 (mem_tasks_of_unfinished (hfst ▸ List.mem_map_of_mem hv))
    rw [ho] at hx
    exact hne (by simpa using hx)

/-- **Every step keeps the books.** -/
theorem step (h : s.Booked) (e : Event α) : (step cfg s e).1.Booked := by
  rcases e with ⟨turn, items, ids, hooks⟩ | c | c | c | c | mandatory | _ | ⟨t, id, worker, hooks⟩ |
    ⟨t, ending⟩ | t | _ | _ | _ <;> simp only [WorkItemCoordinator.step]
  · exact h.submit turn items ids hooks
  · split
    · rename_i call hc
      split_ifs
      · exact h.setCall hc rfl
      · exact h.setCall hc rfl
      · exact h
    · exact h
  · split
    · rename_i call hc
      split_ifs
      · exact h.endCall c
      · exact h.resume hc
      · exact h
    · exact h
  · split
    · split_ifs
      · exact h.endCall c
      · exact h
    · exact h
  · split
    · rename_i call hc
      exact h.setCall hc rfl
    · exact h
  · exact h.of_keeps (keeps_startTask cfg s _ mandatory) (h.startTask cfg (by simp))
  · exact h.of_keeps (keeps_createTask s _) (h.createTask _)
  · split_ifs with ho
    · have hborn : s.origin t ≠ none := by rcases ho with ho | ho <;> simp [ho]
      have hplain : s.origin t ≠ some (.started true) := by rcases ho with ho | ho <;> simp [ho]
      have hcarries := carries_retainLateTask cfg s t id worker hooks
      refine h.of_calls (h.retainLateTask cfg (h.lt_nextTask hborn) hplain id worker hooks)
        hcarries.calls_eq (Nat.le_of_eq hcarries.nextCall_eq.symm) hcarries.origin_eq ?_
      intro u c hu hlate
      have hne : u ≠ t := by
        rintro rfl
        rcases ho with ho | ho <;> simp [ho] at hu
      rw [hcarries.lateQueue_eq, hlate]
      simp [hne]
    · exact h
  · split_ifs
    · exact h.of_moved rfl rfl rfl rfl rfl rfl fun _ call hc => ⟨call, hc, rfl⟩
    · exact h
  · split
    · rename_i ending cb rest hended hqueue
      have hkeeps := keeps_runCallback cfg
        { s with callbacks := Function.update s.callbacks t rest } t ending cb
      refine h.of_calls (h.callback cfg hqueue ending) hkeeps.calls_eq
        (Nat.le_of_eq hkeeps.nextCall_eq.symm) hkeeps.origin_eq fun u _ _ hlate => ?_
      rw [hkeeps.lateQueue_eq, List.append_nil]
      rcases eq_or_ne u t with rfl | hne
      · refine List.filter_eq_nil_iff.mpr fun a ha => List.filter_eq_nil_iff.mp hlate a ?_
        rw [hqueue]
        exact List.mem_cons_of_mem _ (by simpa using ha)
      · simpa [lateQueue, hne] using hlate
    · exact h
  · exact h.of_moved rfl rfl rfl rfl rfl rfl fun _ call hc => ⟨call, hc, rfl⟩
  · refine h.of_moved rfl rfl rfl rfl rfl rfl fun c call' hc => ?_
    obtain ⟨call, hcall, rfl⟩ := Option.map_eq_some_iff.mp hc
    exact ⟨call, hcall, rfl⟩
  · split_ifs
    · exact h.of_calls ⟨fun t ht => ⟨by simp, by simp, (h.unborn t ht).2.2⟩, by simp, by simp⟩ rfl
        (Nat.le_refl _) (fun _ _ => rfl) fun _ _ _ hlate => hlate
    · exact h

end Booked

theorem booked_after (cfg : CoordinatorConfig) (es : List (Event α)) : (after cfg es).Booked :=
  run_invariant_of_step (fun _ e h => h.step e) booked_init es

/-- **Mandatory tasks stay outside the budget**: in every reachable state it counts exactly the
owned tasks that were not admitted as mandatory. -/
theorem budget_after (cfg : CoordinatorConfig) (es : List (Event α)) :
    (after cfg es).ownedTasks \ (after cfg es).mandatoryTasks
      = (after cfg es).ownedTasks.filter fun t => (after cfg es).origin t ≠ some (.started true) :=
  (booked_after cfg es).sdiff_eq

end WorkItemCoordinator

end SubagentsLab

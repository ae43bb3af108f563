import SubagentsLab.Workers.Budget

/-!
# Workers/Accounts — every submitted item is accounted for

An outcome places each selected item once: among the results, the failures or the pending ids
(`accounts_settle`); and a pending item carries one completion callback (`lateQueue_settle`).
-/

namespace SubagentsLab

open Machinery

/-! ## One outcome -/

/-- Where an item is reported. -/
inductive Place (α : Type)
  | result (value : MaterialResult α)
  | failure (value : WorkItemFailure)
  | pending (workItemId : String)

namespace Place

variable {α : Type}

def result? : Place α → Option (MaterialResult α)
  | .result value => some value
  | _ => none

def failure? : Place α → Option WorkItemFailure
  | .failure f => some f
  | _ => none

def pending? : Place α → Option String
  | .pending workItemId => some workItemId
  | _ => none

/-- The place fits the item, as its task stood when the outcome was made. -/
def Fits (ended : ℕ → Option (Ending α)) (slot : Slot) : Place α → Prop
  | .result value => ∃ t v, slot.task = some t ∧ ended t = some (.value v) ∧ value = v.materialize
  | .failure f =>
    f.workItemId = slot.item.workItemId ∧ f.workerId = slot.item.workerId ∧
      ((slot.task = none ∧ f.failureKind = .capacityRejected) ∨
        ∃ t, slot.task = some t ∧
          ((ended t = some .cancelled ∧ f.failureKind = .cancelled) ∨
            (∃ exc, ended t = some (.raised exc) ∧ f.failureKind = .failed) ∨
            (ended t = none ∧ f.failureKind = .retentionRejected)))
  | .pending workItemId =>
    workItemId = slot.item.workItemId ∧ ∃ t, slot.task = some t ∧ ended t = none

end Place

/-- **The outcome accounts for the slots**: every slot has one place, and results, failures and
pending ids are these places and nothing else. -/
structure SubmittedOutcome.Accounts {α : Type} (outcome : SubmittedOutcome α)
    (ended : ℕ → Option (Ending α)) (slots : List Slot) (places : List (Place α)) : Prop where
  fits : List.Forall₂ (Place.Fits ended) slots places
  results_eq : outcome.results = places.filterMap Place.result?
  failures_perm : outcome.failures.Perm (places.filterMap Place.failure?)
  pending_eq : outcome.pendingWorkItemIds = places.filterMap Place.pending?

namespace WorkItemCoordinator

variable {α : Type} {cfg : CoordinatorConfig} {s s' : WorkItemCoordinator α} {t c : ℕ}

/-- The places of slots whose unfinished tasks got these verdicts. -/
theorem exists_places (ended : ℕ → Option (Ending α)) (slots : List Slot)
    (verdicts : List ((SelectedItem × ℕ) × Bool))
    (h : verdicts.map Prod.fst = slots.filterMap (unfinished ended)) :
    ∃ places, List.Forall₂ (Place.Fits ended) slots places ∧
      slots.filterMap (slotResult ended) = places.filterMap Place.result? ∧
      (slots.filterMap capacityFailure ++ slots.filterMap (executionFailure ended)
        ++ verdicts.filterMap retentionFailure).Perm (places.filterMap Place.failure?) ∧
      verdicts.filterMap pendingId = places.filterMap Place.pending? := by
  induction slots generalizing verdicts with
  | nil =>
    obtain rfl : verdicts = [] := by simpa using h
    exact ⟨[], .nil, rfl, .refl _, rfl⟩
  | cons slot slots ih =>
    obtain ⟨item, task⟩ := slot
    rcases task with _ | t
    · obtain ⟨places, hfits, hres, hfail, hpend⟩ := ih verdicts h
      exact ⟨.failure ⟨item.workItemId, item.workerId, "CapacityError",
        "worker execution capacity is exhausted", .capacityRejected⟩ :: places,
        .cons ⟨rfl, rfl, Or.inl ⟨rfl, rfl⟩⟩ hfits, hres, hfail.cons _, hpend⟩
    rcases hended : ended t with _ | ending
    · -- the task is still running, and the first verdict is its own
      rcases verdicts with _ | ⟨⟨x, accepted⟩, verdicts⟩
      · simp [unfinished, hended] at h
      simp only [List.map_cons, List.filterMap_cons, unfinished, hended, Option.isNone_none,
        if_true, List.cons.injEq] at h
      obtain ⟨rfl, h⟩ := h
      obtain ⟨places, hfits, hres, hfail, hpend⟩ := ih verdicts h
      simp only [List.filterMap_cons, slotResult, capacityFailure, executionFailure,
        Option.bind_some, hended]
      rcases accepted with _ | _
      · exact ⟨.failure ⟨item.workItemId, item.workerId, "RetentionCapacityError",
          "worker execution could not continue in background", .retentionRejected⟩ :: places,
          .cons ⟨rfl, rfl, Or.inr ⟨t, rfl, Or.inr (Or.inr ⟨hended, rfl⟩)⟩⟩ hfits, hres,
          List.perm_middle.trans (hfail.cons _), hpend⟩
      · exact ⟨.pending item.workItemId :: places, .cons ⟨rfl, t, rfl, hended⟩ hfits, hres, hfail,
          congrArg _ hpend⟩
    · have hdone : unfinished ended ⟨item, some t⟩ = none := by simp [unfinished, hended]
      rw [List.filterMap_cons, hdone] at h
      obtain ⟨places, hfits, hres, hfail, hpend⟩ := ih verdicts h
      have hmiddle : ∀ f, (slots.filterMap capacityFailure
          ++ f :: slots.filterMap (executionFailure ended) ++ verdicts.filterMap retentionFailure).Perm
          (f :: places.filterMap Place.failure?) := by
        intro f
        rw [List.append_assoc, List.cons_append]
        refine List.perm_middle.trans (List.Perm.cons f ?_)
        rwa [← List.append_assoc]
      simp only [List.filterMap_cons, slotResult, capacityFailure, executionFailure,
        Option.bind_some, hended]
      rcases ending with v | exc | _
      · exact ⟨.result v.materialize :: places, .cons ⟨t, v, rfl, hended, rfl⟩ hfits,
          congrArg _ hres, hfail, hpend⟩
      · exact ⟨.failure ⟨item.workItemId, item.workerId, exc.typeName, "worker execution failed",
          .failed⟩ :: places,
          .cons ⟨rfl, rfl, Or.inr ⟨t, rfl, Or.inr (Or.inl ⟨exc, hended, rfl⟩)⟩⟩ hfits, hres,
          hmiddle _, hpend⟩
      · exact ⟨.failure ⟨item.workItemId, item.workerId, "CancelledError",
          "worker execution was cancelled", .cancelled⟩ :: places,
          .cons ⟨rfl, rfl, Or.inr ⟨t, rfl, Or.inl ⟨hended, rfl⟩⟩⟩ hfits, hres, hmiddle _, hpend⟩

/-- **Every item of an outcome has exactly one place**, whatever ended, was refused or is retained. -/
theorem accounts_settle (h : s.Booked) {call : SubmitCall} (hc : s.calls c = some call) :
    ∃ places, (s.settle cfg call).1.Accounts s.ended call.slots places := by
  obtain ⟨hfst, -, -⟩ := retainAll_spec cfg call.hooks (call.slots.filterMap (unfinished s.ended))
    h.toBudgeted fun x hx => h.items c call hc x.2 (mem_tasks_of_unfinished hx)
  obtain ⟨places, hfits, hres, hfail, hpend⟩ := exists_places s.ended call.slots _ hfst
  exact ⟨places, hfits, hres, hfail, hpend⟩

theorem unfinished_sublist (ended : ℕ → Option (Ending α)) (slots : List Slot) :
    ((slots.filterMap (unfinished ended)).map Prod.snd).Sublist (slots.filterMap Slot.task) := by
  rw [List.map_filterMap]
  induction slots with
  | nil => exact List.Sublist.refl _
  | cons slot slots ih =>
    obtain ⟨item, task⟩ := slot
    rcases task with _ | t
    · exact ih
    · rcases hended : ended t with _ | ending
      · simpa [unfinished, hended] using ih
      · simpa [unfinished, hended] using ih.cons t

/-- An accepted task among distinct ones gets one completion callback. -/
theorem retained_eq_singleton (hooks : LateHooks) {verdicts : List ((SelectedItem × ℕ) × Bool)}
    (hnodup : (verdicts.map fun v => v.1.2).Nodup) {v : (SelectedItem × ℕ) × Bool}
    (hv : v ∈ verdicts) (haccepted : v.2 = true) :
    retained hooks verdicts v.1.2
      = [.lateCompleted v.1.1.workItemId v.1.1.workerId hooks] := by
  induction verdicts with
  | nil => cases hv
  | cons w verdicts ih =>
    obtain ⟨hw, hrest⟩ := List.nodup_cons.mp hnodup
    rcases List.mem_cons.mp hv with rfl | hv
    · have hnone : retained hooks verdicts v.1.2 = [] := by
        refine List.filterMap_eq_nil_iff.mpr fun x hx => if_neg ?_
        rintro ⟨heq, -⟩
        exact hw (List.mem_map.mpr ⟨x, hx, heq.symm⟩)
      simp only [retained] at hnone ⊢
      rw [List.filterMap_cons, if_pos ⟨rfl, haccepted⟩, hnone]
    · have hne : v.1.2 ≠ w.1.2 := fun heq => hw (List.mem_map.mpr ⟨v, hv, heq⟩)
      simp only [retained] at ih ⊢
      rw [List.filterMap_cons, if_neg fun hand => hne hand.1]
      exact ih hrest hv

/-- **A pending item got one completion callback.** -/
theorem lateQueue_settle (h : s.Booked) {call : SubmitCall} (hc : s.calls c = some call)
    (hdistinct : (call.slots.map (·.item.workItemId)).Nodup) {item : SelectedItem}
    (hslot : ⟨item, some t⟩ ∈ call.slots)
    (hpending : item.workItemId ∈ (s.settle cfg call).1.pendingWorkItemIds) :
    (s.settle cfg call).2.lateQueue t
      = [.lateCompleted item.workItemId item.workerId call.hooks] := by
  obtain ⟨hfst, -, hcarries⟩ := retainAll_spec cfg call.hooks
    (call.slots.filterMap (unfinished s.ended)) h.toBudgeted
    fun x hx => h.items c call hc x.2 (mem_tasks_of_unfinished hx)
  have ht : t ∈ call.tasks := List.mem_filterMap.mpr ⟨_, hslot, rfl⟩
  have hqueue := hcarries.lateQueue_eq t
  rw [h.unretained c call hc t ht, List.nil_append] at hqueue
  refine hqueue.trans ?_
  -- the pending id is that of a verdict, and with distinct ids that verdict is the slot's own
  obtain ⟨⟨⟨item', t'⟩, accepted⟩, hv, hid⟩ := List.mem_filterMap.mp hpending
  have hx : (item', t') ∈ call.slots.filterMap (unfinished s.ended) :=
    hfst ▸ List.mem_map_of_mem hv
  simp only [pendingId] at hid
  split_ifs at hid with haccepted
  obtain rfl : accepted = true := haccepted
  have hsame := List.inj_on_of_nodup_map hdistinct (mem_slots_of_unfinished hx) hslot
    (Option.some.inj hid)
  simp only [Slot.mk.injEq, Option.some.injEq] at hsame
  obtain ⟨rfl, rfl⟩ := hsame
  refine retained_eq_singleton call.hooks ?_ hv rfl
  have htasks : ((retainAll cfg call.hooks s (call.slots.filterMap (unfinished s.ended))).1.map
      fun v => v.1.2) = (call.slots.filterMap (unfinished s.ended)).map Prod.snd := by
    rw [← hfst, List.map_map, hfst]
    rfl
  rw [htasks]
  exact (h.nodup c call hc).sublist (unfinished_sublist s.ended call.slots)

end WorkItemCoordinator

end SubagentsLab

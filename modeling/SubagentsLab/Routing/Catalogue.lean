import Mathlib.Data.Finset.Basic
import SubagentsLab.Machinery.Dict

/-!
# Routing/Catalogue — what a decision may select

A decision is checked twice: when it is built, against itself (`validate_selection`), and before it is
used, against the catalogue it was made for (`validate_decision`).  `Selects` is what the second check
leaves of a decision, action by action.
-/

namespace SubagentsLab

open Machinery

/-- `RoutingDecision.action`. -/
inductive RouteAction
  | direct
  | unsupported
  | clarify
  | existingWorker
  | newWorker
  deriving DecidableEq, Repr

/-- The routes that select a worker. -/
def RouteAction.selectsWorker : RouteAction → Bool
  | existingWorker | newWorker => true
  | _ => false

/-- The fields of a `RoutingDecision`. -/
structure RoutingFields where
  action : RouteAction
  workerId : Option String := none
  workerType : Option String := none
  topic : Option String := none
  capability : Option String := none
  capabilityAvailable : Bool := true
  modelPolicy : Option String := none
  catalogueVersion : String
  catalogueWorkerIds : List String := []
  originEpoch : Option ℕ := none
  deriving DecidableEq, Repr

/-- Whether a text that may be missing is there and not empty. -/
def given (text : Option String) : Bool := text.any (· ≠ "")

/-- Whether an id names a `hallucinated` worker, in whatever case: no letter outside ASCII is lowered to
one of these. -/
def hallucinated (workerId : String) : Bool :=
  "hallucinated".toList <:+: workerId.toList.map Char.toLower

namespace RoutingFields

variable (d : RoutingFields)

/-- `RoutingDecision.validate_selection`. -/
def validateSelection : Except String Unit :=
  if d.action.selectsWorker then
    if !given d.workerType || !given d.topic || !given d.modelPolicy then
      .error "worker routes require worker_type, topic, and model_policy"
    else if d.action = .existingWorker ∧ !given d.workerId then
      .error "existing-worker routes require worker_id"
    else if d.action = .existingWorker ∧ d.catalogueWorkerIds ≠ [] ∧
        ¬d.workerId.any (· ∈ d.catalogueWorkerIds) then
      .error "worker_id is not present in the catalogue snapshot"
    else if d.workerId.any hallucinated then
      .error "worker_id is not an allowlisted catalogue identity"
    else if !d.capabilityAvailable ∧ d.capability ≠ none ∧ d.capability ≠ some "private_calendar" then
      .error "unavailable capability cannot be dispatched"
    else if !d.capabilityAvailable ∧ d.workerType = some "web_search" then
      .error "an unavailable private capability cannot become web search"
    else .ok ()
  else if d.workerId.isSome || d.workerType.isSome || d.topic.isSome then
    .error "non-worker routes cannot select a worker"
  else .ok ()

end RoutingFields

/-- `RoutingDecision`: fields that pass their own validator. -/
structure RoutingDecision extends RoutingFields where
  selection : toRoutingFields.validateSelection = .ok ()
  deriving DecidableEq

/-- `WorkerCatalogueEntry`, less what only the prompt reads. -/
structure WorkerCatalogueEntry where
  workerId : String
  workerType : String
  topic : String
  capabilities : Dict String Bool := ∅
  modelPolicies : Finset String := ∅
  modelPolicy : String := "deep"
  deriving DecidableEq

/-- The policies an entry may run under. -/
def WorkerCatalogueEntry.policies (entry : WorkerCatalogueEntry) : Finset String :=
  if entry.modelPolicies = ∅ then {entry.modelPolicy} else entry.modelPolicies

/-- `WorkerCatalogue`. -/
structure WorkerCatalogue where
  version : String
  workers : List WorkerCatalogueEntry
  capabilityLabels : List String
  modelPolicies : List String
  deriving DecidableEq

namespace WorkerCatalogue

/-- `worker_ids`. -/
def workerIds (c : WorkerCatalogue) : List String := c.workers.map (·.workerId)

/-- The worker types a new worker may have. -/
def workerTypes (c : WorkerCatalogue) : Finset String :=
  if c.workers = [] then {"web_search"} else (c.workers.map (·.workerType)).toFinset

end WorkerCatalogue

/-- `validate_decision`. -/
def validateDecision (d : RoutingFields) (c : WorkerCatalogue) : Except String Unit :=
  if d.catalogueVersion ≠ c.version ∨ d.catalogueWorkerIds ≠ c.workerIds then
    .error "routing decision does not match the catalogue snapshot"
  else
    match d.action with
    | .direct | .unsupported | .clarify =>
      if d.workerId.isSome || d.workerType.isSome || d.topic.isSome then
        .error "non-worker routes cannot select a worker"
      else .ok ()
    | .newWorker =>
      if d.workerId.any (· ∈ c.workerIds) then
        .error "new-worker proposals cannot select an existing worker"
      else if c.workers = [] then
        if d.workerType ≠ some "web_search" ∨
            (c.modelPolicies ≠ [] ∧ ¬d.modelPolicy.any (· ∈ c.modelPolicies)) ∨
            !given d.capability ∨
            (c.capabilityLabels ≠ [] ∧ ¬d.capability.any (· ∈ c.capabilityLabels)) ∨
            !d.capabilityAvailable then
          .error "first worker must request an available capability"
        else .ok ()
      else if ¬d.workerType.any (· ∈ c.workers.map (·.workerType)) then
        .error "new worker type is not allowlisted"
      else if ¬d.modelPolicy.any (· ∈ c.modelPolicies) ∨ ¬d.capability.any (· ∈ c.capabilityLabels) ∨
          !d.capabilityAvailable then
        .error "new worker policy or capability is not allowlisted"
      else .ok ()
    | .existingWorker =>
      match c.workers.find? fun entry => d.workerId = some entry.workerId with
      | none => .error "worker selection does not match the catalogue snapshot"
      | some entry =>
        if d.workerType ≠ some entry.workerType ∨ d.topic ≠ some entry.topic then
          .error "worker selection does not match the catalogue snapshot"
        else if ¬d.modelPolicy.any (· ∈ entry.policies) ∨ ¬d.capability.any (· ∈ c.capabilityLabels) then
          .error "worker policy or capability is not allowlisted"
        else if d.capabilityAvailable ≠ ((d.capability.bind entry.capabilities.get?).getD false) ∨
            !d.capabilityAvailable then
          .error "capability is unavailable for the selected worker"
        else .ok ()

/-! ## What is left of a checked decision -/

/-- What a decision selects from a catalogue. -/
def Selects (d : RoutingFields) (c : WorkerCatalogue) : Prop :=
  match d.action with
  | .direct | .unsupported | .clarify => d.workerId = none ∧ d.workerType = none ∧ d.topic = none
  | .existingWorker =>
    ∃ entry ∈ c.workers, d.workerId = some entry.workerId ∧ d.workerType = some entry.workerType ∧
      d.topic = some entry.topic ∧ (∃ policy ∈ entry.policies, d.modelPolicy = some policy) ∧
      ∃ label ∈ c.capabilityLabels, d.capability = some label ∧ entry.capabilities.get? label = some true
  | .newWorker =>
    (∃ workerType ∈ c.workerTypes, d.workerType = some workerType) ∧
      (∃ policy ∈ c.modelPolicies, d.modelPolicy = some policy) ∧
      (∃ label ∈ c.capabilityLabels, d.capability = some label) ∧ d.capabilityAvailable = true ∧
      ∀ workerId ∈ c.workerIds, d.workerId ≠ some workerId

theorem exists_of_any {α : Type*} {p : α → Prop} [DecidablePred p] {o : Option α}
    (h : o.any (fun a => p a) = true) : ∃ a, p a ∧ o = some a := by
  obtain ⟨a, rfl, ha⟩ := Option.any_eq_true _ _ |>.mp h
  exact ⟨a, by simpa using ha, rfl⟩

variable {d : RoutingFields} {c : WorkerCatalogue}

theorem snapshot_of_validateDecision (h : validateDecision d c = .ok ()) :
    d.catalogueVersion = c.version ∧ d.catalogueWorkerIds = c.workerIds := by
  by_contra hsnapshot
  rw [validateDecision, if_pos (not_and_or.mp hsnapshot)] at h
  cases h

/-- **A checked decision selects what the catalogue allows**, unless the catalogue names no policy or no
capability at all. -/
theorem selects_of_validateDecision (hpolicies : c.modelPolicies ≠ []) (hlabels : c.capabilityLabels ≠ [])
    (h : validateDecision d c = .ok ()) : Selects d c := by
  rw [validateDecision, if_neg (by simpa using snapshot_of_validateDecision h)] at h
  rw [Selects]
  rcases haction : d.action with _ | _ | _ | _ | _ <;> rw [haction] at h <;> dsimp only at h ⊢
  iterate 3
    split_ifs at h with hselect
    simpa [and_assoc] using hselect
  · rcases hfind : c.workers.find? (fun entry => d.workerId = some entry.workerId) with _ | entry
    · rw [hfind] at h
      cases h
    rw [hfind] at h
    dsimp only at h
    split_ifs at h with hidentity hallowed havailable
    push Not at hidentity hallowed havailable
    obtain ⟨policy, hpolicy, hd⟩ := exists_of_any hallowed.1
    obtain ⟨label, hlabel, hcap⟩ := exists_of_any hallowed.2
    have hid : d.workerId = some entry.workerId := by simpa using List.find?_some hfind
    refine ⟨entry, List.mem_of_find?_eq_some hfind, hid, hidentity.1, hidentity.2, ⟨policy, hpolicy, hd⟩,
      label, hlabel, hcap, ?_⟩
    rcases hget : entry.capabilities.get? label with _ | available
    · simp [hcap, hget] at havailable
    · rw [hcap, Option.bind_some, hget, Option.getD_some] at havailable
      rw [← havailable.1]
      simpa using havailable.2
  · split_ifs at h with hexisting hempty hfirst htype hallowed
    · push Not at hfirst
      obtain ⟨policy, hpolicy, hd⟩ := exists_of_any (hfirst.2.1 hpolicies)
      obtain ⟨label, hlabel, hcap⟩ := exists_of_any (hfirst.2.2.2.1 hlabels)
      refine ⟨⟨"web_search", by simp [WorkerCatalogue.workerTypes, hempty], hfirst.1⟩, ⟨policy, hpolicy, hd⟩,
        ⟨label, hlabel, hcap⟩, by simpa using hfirst.2.2.2.2, ?_⟩
      simp [WorkerCatalogue.workerIds, hempty]
    · push Not at hallowed
      obtain ⟨workerType, hworkerType, hd⟩ := exists_of_any htype
      obtain ⟨policy, hpolicy, hp⟩ := exists_of_any hallowed.1
      obtain ⟨label, hlabel, hcap⟩ := exists_of_any hallowed.2.1
      refine ⟨⟨workerType, by simpa [WorkerCatalogue.workerTypes, hempty] using hworkerType, hd⟩,
        ⟨policy, hpolicy, hp⟩, ⟨label, hlabel, hcap⟩, by simpa using hallowed.2.2, fun workerId hmem heq => ?_⟩
      simp [heq, hmem] at hexisting

end SubagentsLab

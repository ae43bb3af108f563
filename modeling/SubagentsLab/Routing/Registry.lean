import Mathlib.Data.Finset.Sort
import Mathlib.Data.String.Basic
import SubagentsLab.Machinery.Runs
import SubagentsLab.Machinery.Text
import SubagentsLab.Routing.Catalogue

/-!
# Routing/Registry — workers that are never evicted

`register` publishes a worker under an id the caller chooses, `get_or_create` under one it counts out
itself.  Every registration either publishes one worker or leaves the registry as it was, and a worker
that is published stays where it is (`Extends`).
-/

namespace SubagentsLab

open Machinery

/-- What the registry reads of a `Config`: labels and models, none of them empty, and at least one. -/
structure Config where
  workerModelPolicy : Dict String String
  nonempty : workerModelPolicy.keys ≠ []
  labelled : ∀ entry ∈ workerModelPolicy.entries, entry.1 ≠ "" ∧ entry.2 ≠ ""

/-- `Config()`. -/
def Config.default : Config where
  workerModelPolicy := (∅ : Dict String String).set "deep" "gpt-5"
  nonempty := by decide
  labelled := by decide

/-- `WorkerMetadata`, less the summary. -/
structure WorkerMetadata where
  workerId : String
  workerType : String
  topic : String
  modelPolicy : String
  capabilities : Dict String Bool
  named : Text.strip workerId ≠ ""
  deriving DecidableEq

/-- The attributes of a worker's `metadata` that are read; what is missing is `none`. -/
structure ObjectMetadata where
  workerId : Option String := none
  workerType : Option String := none
  topic : Option String := none
  modelPolicy : Option String := none
  capabilities : Option (Dict String Bool) := none
  deriving DecidableEq

/-- Which object a worker is: the one the registry built at that version, or one of the caller's. -/
inductive WorkerRef
  | built (version : ℕ)
  | callers (name : ℕ)
  deriving DecidableEq, Repr

/-- A worker object, by the attributes that are read. -/
structure WorkerObject where
  ref : WorkerRef
  search : Bool := true
  metadata : Option ObjectMetadata
  capabilities : Option (Dict String Bool) := none
  deriving DecidableEq

/-- `RegisteredWorker`. -/
structure RegisteredWorker where
  metadata : WorkerMetadata
  worker : WorkerObject
  deriving DecidableEq

/-- What the registry raises. -/
inductive RegistryError
  | unsupportedWorkerType (workerType : String)
  | alreadyRegistered (workerId : String)
  | unknownModelPolicy (label : String)
  | emptyWorkerId
  | noSearch
  | noMetadata
  | metadataMismatch (field : String)
  | unknownWorker (workerId : String)
  | incompatibleModelPolicy
  deriving DecidableEq, Repr

/-- The arguments of `register`. -/
structure Registration where
  workerId : String
  workerType : String
  topic : String
  modelPolicy : String := "deep"
  capabilities : Option (Dict String Bool) := none
  worker : Option WorkerObject := none
  deriving DecidableEq

/-- `WorkerRegistry`, with the default worker factory. -/
structure WorkerRegistry where
  config : Config
  workers : Dict String RegisteredWorker := ∅
  version : ℕ := 0

namespace WorkerRegistry

variable (r : WorkerRegistry)

/-- The `WebSearchWorker` that `_create_web_search_worker` builds. -/
def createWebSearchWorker (metadata : WorkerMetadata) : WorkerObject where
  ref := .built r.version
  metadata := some
    { workerId := metadata.workerId
      workerType := "web_search"
      topic := metadata.topic
      modelPolicy := metadata.modelPolicy
      capabilities := (∅ : Dict String Bool).set "public_web" true }

/-- `_require_matching_identity`. -/
def requireMatchingIdentity (worker : WorkerObject) (expected : WorkerMetadata) :
    Except RegistryError ObjectMetadata :=
  match worker.metadata with
  | none => .error .noMetadata
  | some actual =>
    if actual.workerId ≠ some expected.workerId then .error (.metadataMismatch "worker_id")
    else if actual.workerType ≠ some expected.workerType then .error (.metadataMismatch "worker_type")
    else if actual.topic ≠ some expected.topic then .error (.metadataMismatch "topic")
    else if actual.modelPolicy ≠ some expected.modelPolicy then .error (.metadataMismatch "model_policy")
    else .ok actual

/-- The entry a registration publishes. -/
def prepare (a : Registration) : Except RegistryError RegisteredWorker :=
  if a.workerType ≠ "web_search" then .error (.unsupportedWorkerType a.workerType)
  else if (r.workers.get? a.workerId).isSome then .error (.alreadyRegistered a.workerId)
  else if (r.config.workerModelPolicy.get? a.modelPolicy).isNone then
    .error (.unknownModelPolicy a.modelPolicy)
  else if hnamed : Text.strip a.workerId = "" then .error .emptyWorkerId
  else
    let metadata : WorkerMetadata :=
      ⟨a.workerId, a.workerType, a.topic, a.modelPolicy, a.capabilities.getD ∅, hnamed⟩
    let worker := a.worker.getD (r.createWebSearchWorker metadata)
    if !worker.search then .error .noSearch
    else
      match requireMatchingIdentity worker metadata with
      | .error e => .error e
      | .ok actual =>
        let own := (actual.capabilities.or worker.capabilities).getD ∅
        .ok ⟨{ metadata with capabilities := a.capabilities.getD own }, worker⟩

/-- `register`. -/
def register (a : Registration) : WorkerRegistry × Except RegistryError RegisteredWorker :=
  match r.prepare a with
  | .error e => (r, .error e)
  | .ok registered =>
    ({ r with workers := r.workers.set a.workerId registered, version := r.version + 1 }, .ok registered)

/-- `get`. -/
def get (workerId : String) : Except RegistryError RegisteredWorker :=
  match r.workers.get? workerId with
  | none => .error (.unknownWorker workerId)
  | some item => .ok item

/-- The id that is counted out for the next worker. -/
def nextWorkerId : String := "worker-" ++ toString (r.workers.keys.length + 1)

/-- The first worker of a topic and type. -/
def ofTopic (topic workerType : String) : Option RegisteredWorker :=
  r.workers.values.find? fun item => item.metadata.topic = topic ∧ item.metadata.workerType = workerType

/-- `get_or_create`. -/
def getOrCreate (topic workerType modelPolicy : String) :
    WorkerRegistry × Except RegistryError RegisteredWorker :=
  if workerType ≠ "web_search" then (r, .error (.unsupportedWorkerType workerType))
  else
    match r.ofTopic topic workerType with
    | some item =>
      if item.metadata.modelPolicy ≠ modelPolicy then (r, .error .incompatibleModelPolicy) else (r, .ok item)
    | none => r.register { workerId := r.nextWorkerId, workerType, topic, modelPolicy }

/-- Names are sorted by a transitive order. -/
instance transNames : IsTrans String fun a b => a ≤ b := inferInstance

/-- Names that come before each other are one name. -/
instance antisymmNames : Std.Antisymm fun (a b : String) => a ≤ b := inferInstance

/-- `catalogue`. -/
def catalogue : WorkerCatalogue :=
  let entries := r.workers.values.map fun item =>
    { workerId := item.metadata.workerId
      workerType := item.metadata.workerType
      topic := item.metadata.topic
      capabilities := item.metadata.capabilities
      modelPolicies := {item.metadata.modelPolicy}
      modelPolicy := item.metadata.modelPolicy : WorkerCatalogueEntry }
  let labels := (entries.flatMap (·.capabilities.keys)).toFinset
  { version := "catalogue-" ++ toString r.version
    workers := entries
    capabilityLabels := (if labels = ∅ then {"public_web"} else labels).sort
    modelPolicies := r.config.workerModelPolicy.keys.toFinset.sort }

theorem capabilityLabels_ne_nil : r.catalogue.capabilityLabels ≠ [] := by
  have hne : ∀ s : Finset String, s ≠ ∅ → s.sort ≠ [] := by
    intro s hs heq
    refine hs (Finset.eq_empty_of_forall_notMem fun label hmem => ?_)
    have hsorted := (Finset.mem_sort (fun a b => a ≤ b)).mpr hmem
    rw [heq] at hsorted
    cases hsorted
  refine hne _ ?_
  split_ifs with hempty
  · exact Finset.singleton_ne_empty "public_web"
  · exact hempty

theorem mem_modelPolicies {policy : String} :
    policy ∈ r.catalogue.modelPolicies ↔ (r.config.workerModelPolicy.get? policy).isSome := by
  rw [catalogue]
  dsimp only
  rw [Finset.mem_sort, List.mem_toFinset, Dict.mem_keys]

theorem modelPolicies_ne_nil : r.catalogue.modelPolicies ≠ [] := by
  obtain ⟨policy, hmem⟩ := List.exists_mem_of_ne_nil _ r.config.nonempty
  exact List.ne_nil_of_mem (r.mem_modelPolicies.mpr (Dict.mem_keys.mp hmem))

/-! ## Runs -/

/-- What is asked of a registry. -/
inductive Event
  | register (a : Registration)
  | getOrCreate (topic workerType modelPolicy : String)
  deriving DecidableEq

/-- What a call answers. -/
def call : Event → WorkerRegistry × Except RegistryError RegisteredWorker
  | .register a => r.register a
  | .getOrCreate topic workerType modelPolicy => r.getOrCreate topic workerType modelPolicy

/-- One call. -/
def step (r : WorkerRegistry) (e : Event) : WorkerRegistry := (r.call e).1

/-- A registry after a run of calls. -/
def after (config : Config) (es : List Event) : WorkerRegistry := run step { config } es

/-- **What a registration publishes**: a worker of the arguments, under an id that was free. -/
theorem prepare_ok {a : Registration} {item : RegisteredWorker} (h : r.prepare a = .ok item) :
    r.workers.get? a.workerId = none ∧ a.workerType = "web_search" ∧
      (r.config.workerModelPolicy.get? a.modelPolicy).isSome ∧
      item.metadata.workerId = a.workerId ∧ item.metadata.workerType = a.workerType ∧
      item.metadata.topic = a.topic ∧ item.metadata.modelPolicy = a.modelPolicy ∧
      ∃ m, item.worker.metadata = some m ∧ m.workerType = some a.workerType ∧ m.topic = some a.topic ∧
        m.modelPolicy = some a.modelPolicy := by
  rw [prepare] at h
  split_ifs at h with htype hfree hpolicy hnamed
  dsimp only at h
  split_ifs at h
  split at h
  · cases h
  · rename_i m hidentity
    cases h
    rw [requireMatchingIdentity] at hidentity
    split at hidentity
    · cases hidentity
    · rename_i m' hm
      split_ifs at hidentity with hid htype' htopic hpolicy'
      cases hidentity
      exact ⟨by simpa using hfree, not_not.mp htype, by simpa [Option.isSome_iff_ne_none] using hpolicy, rfl, rfl,
        rfl, rfl, m, hm, not_not.mp htype', not_not.mp htopic, not_not.mp hpolicy'⟩

/-- A registration with no worker of its own goes through if its id is free and its policy known. -/
theorem exists_prepare_eq_ok {a : Registration} (htype : a.workerType = "web_search")
    (hfree : r.workers.get? a.workerId = none)
    (hpolicy : (r.config.workerModelPolicy.get? a.modelPolicy).isSome) (hnamed : Text.strip a.workerId ≠ "")
    (hworker : a.worker = none) : ∃ item, r.prepare a = .ok item := by
  simp [prepare, htype, hfree, Option.isSome_iff_ne_none.mp hpolicy, hnamed, hworker, createWebSearchWorker,
    requireMatchingIdentity]

theorem strip_nextWorkerId : Text.strip r.nextWorkerId ≠ "" := by
  rw [ne_eq, Text.strip_eq_empty_iff]
  push Not
  exact ⟨'w', by simp [nextWorkerId], by decide⟩

/-- Nothing is changed but that workers are added. -/
structure Extends (r r' : WorkerRegistry) : Prop where
  config : r'.config = r.config
  kept : ∀ workerId item, r.workers.get? workerId = some item → r'.workers.get? workerId = some item

theorem Extends.refl : Extends r r := ⟨rfl, fun _ _ h => h⟩

variable {r} {r' r'' : WorkerRegistry}

theorem Extends.trans (h : Extends r r') (h' : Extends r' r'') : Extends r r'' :=
  ⟨h'.config.trans h.config, fun workerId item hget => h'.kept workerId item (h.kept workerId item hget)⟩

/-- Every worker is registered under its own id, of the one type there is, with a known policy, and its
object agrees. -/
def Consistent (r : WorkerRegistry) : Prop :=
  ∀ workerId item, r.workers.get? workerId = some item →
    item.metadata.workerId = workerId ∧ item.metadata.workerType = "web_search" ∧
      (r.config.workerModelPolicy.get? item.metadata.modelPolicy).isSome ∧
      ∃ m, item.worker.metadata = some m ∧ m.workerType = some item.metadata.workerType ∧
        m.topic = some item.metadata.topic ∧ m.modelPolicy = some item.metadata.modelPolicy

/-- **A registration publishes one worker, or nothing happens.** -/
theorem register_cases (r : WorkerRegistry) (a : Registration) :
    (∃ e, r.register a = (r, .error e) ∧ r.prepare a = .error e) ∨
    ∃ item, r.prepare a = .ok item ∧ r.register a =
      ({ r with workers := r.workers.set a.workerId item, version := r.version + 1 }, .ok item) := by
  rw [register]
  rcases r.prepare a with e | item
  · exact Or.inl ⟨e, rfl, rfl⟩
  · exact Or.inr ⟨item, rfl, rfl⟩

theorem extends_register (r : WorkerRegistry) (a : Registration) : Extends r (r.register a).1 := by
  rcases register_cases r a with ⟨e, heq, -⟩ | ⟨item, hprepare, heq⟩
  · rw [heq]
    exact .refl r
  · rw [heq]
    refine ⟨rfl, fun workerId item' hget => ?_⟩
    rw [Dict.get?_set, if_neg]
    · exact hget
    · rintro rfl
      rw [(r.prepare_ok hprepare).1] at hget
      cases hget

theorem Consistent.register (h : Consistent r) (a : Registration) : Consistent (r.register a).1 := by
  rcases register_cases r a with ⟨e, heq, -⟩ | ⟨item, hprepare, heq⟩
  · rw [heq]
    exact h
  · rw [heq]
    intro workerId item' hget
    rw [Dict.get?_set] at hget
    split_ifs at hget with hid
    · cases hget
      obtain ⟨-, htype, hpolicy, hid', htype', htopic, hpolicy', m, hm, hmtype, hmtopic, hmpolicy⟩ :=
        r.prepare_ok hprepare
      exact ⟨hid'.trans hid.symm, htype'.trans htype, hpolicy' ▸ hpolicy, m, hm, htype' ▸ hmtype, htopic ▸ hmtopic,
        hpolicy' ▸ hmpolicy⟩
    · exact h workerId item' hget

/-- `get_or_create` leaves the registry alone or registers under the id it counts out. -/
theorem getOrCreate_cases (r : WorkerRegistry) (topic workerType modelPolicy : String) :
    (r.getOrCreate topic workerType modelPolicy).1 = r ∨
    r.getOrCreate topic workerType modelPolicy =
      r.register { workerId := r.nextWorkerId, workerType, topic, modelPolicy } := by
  rw [getOrCreate]
  split_ifs
  · exact Or.inl rfl
  · rcases r.ofTopic topic workerType with _ | item
    · exact Or.inr rfl
    · dsimp only
      split_ifs <;> exact Or.inl rfl

theorem extends_step (r : WorkerRegistry) (e : Event) : Extends r (step r e) := by
  match e with
  | .register a => exact extends_register r a
  | .getOrCreate topic workerType modelPolicy =>
    rw [step, call]
    rcases getOrCreate_cases r topic workerType modelPolicy with heq | heq <;> rw [heq]
    · exact .refl r
    · exact extends_register r _

theorem Consistent.step (h : Consistent r) (e : Event) : Consistent (step r e) := by
  match e with
  | .register a => exact h.register a
  | .getOrCreate topic workerType modelPolicy =>
    rw [WorkerRegistry.step, call]
    rcases getOrCreate_cases r topic workerType modelPolicy with heq | heq <;> rw [heq]
    · exact h
    · exact h.register _

/-- **No worker is ever evicted.** -/
theorem extends_run (r : WorkerRegistry) (es : List Event) : Extends r (run step r es) :=
  run_invariant_of_step (I := Extends r) (fun r' e h => h.trans (extends_step r' e)) (.refl r) es

theorem consistent_after (config : Config) (es : List Event) : Consistent (after config es) :=
  run_invariant_of_step (I := Consistent) (fun _ e h => h.step e) (fun _ _ h => by cases h) es

/-- **A call that fails changes nothing.** -/
theorem call_error {e : Event} {error : RegistryError} (h : (r.call e).2 = .error error) : (r.call e).1 = r := by
  have hregister : ∀ a, (r.register a).2 = .error error → (r.register a).1 = r := by
    intro a herror
    rcases register_cases r a with ⟨e, heq, -⟩ | ⟨item, -, heq⟩
    · rw [heq]
    · rw [heq] at herror
      cases herror
  match e with
  | .register a => exact hregister a h
  | .getOrCreate topic workerType modelPolicy =>
    rw [call] at h ⊢
    rcases getOrCreate_cases r topic workerType modelPolicy with heq | heq
    · exact heq
    · rw [heq] at h ⊢
      exact hregister _ h

end WorkerRegistry

end SubagentsLab

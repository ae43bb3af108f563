import SubagentsLab.Routing.Registry

/-!
# Routing/Dispatch — from a checked decision to a worker

A decision is checked against the catalogue it was made for and dispatched to the registry as it is by
then.  Ids of new workers are counted out, so the one thing that can go wrong between the two, besides a
topic that is taken under another policy, is that somebody registered the next id by hand
(`dispatch_iff`).
-/

namespace SubagentsLab

open Machinery WorkerRegistry

/-- What `dispatch` raises. -/
inductive DispatchError
  | shutDown
  | routing (text : String)
  | registry (e : RegistryError)
  deriving DecidableEq, Repr

/-- `WorkItemCoordinator.dispatch` with no operation: the worker object, or `none` where nothing is
selected. -/
def dispatch (r : WorkerRegistry) (shutdown : Bool) (d : RoutingDecision) (c : WorkerCatalogue) :
    WorkerRegistry × Except DispatchError (Option WorkerObject) :=
  if shutdown then (r, .error .shutDown)
  else
    match validateDecision d.toRoutingFields c with
    | .error text => (r, .error (.routing text))
    | .ok () =>
      if d.action = .newWorker then
        match r.getOrCreate (d.topic.getD "") (d.workerType.getD "") (d.modelPolicy.getD "") with
        | (r', .error e) => (r', .error (.registry e))
        | (r', .ok item) => (r', .ok (some item.worker))
      else if given d.workerId then
        match r.get (d.workerId.getD "") with
        | .error e => (r, .error (.registry e))
        | .ok item => (r, .ok (some item.worker))
      else (r, .ok none)

/-- The worker object is one of the decision's type, topic and policy. -/
def Fits (d : RoutingDecision) (worker : WorkerObject) : Prop :=
  ∃ m, worker.metadata = some m ∧ m.workerType = d.workerType ∧ m.topic = d.topic ∧ m.modelPolicy = d.modelPolicy

/-- The topic is taken under another policy. -/
def Conflicts (r : WorkerRegistry) (d : RoutingDecision) : Prop :=
  ∃ item ∈ r.workers.values, d.topic = some item.metadata.topic ∧
    d.workerType = some item.metadata.workerType ∧ d.modelPolicy ≠ some item.metadata.modelPolicy

/-- **Dispatchable**: the decision gets its worker, or its topic is taken under another policy. -/
def Dispatchable (r : WorkerRegistry) (d : RoutingDecision) (c : WorkerCatalogue) : Prop :=
  (∃ worker, (dispatch r false d c).2 = .ok (some worker) ∧ Fits d worker) ∨
    ((∃ e, (dispatch r false d c).2 = .error e) ∧ Conflicts r d)

/-- A new worker would have to take an id that somebody registered by hand. -/
def Taken (r : WorkerRegistry) (d : RoutingDecision) : Prop :=
  d.action = .newWorker ∧ r.ofTopic (d.topic.getD "") (d.workerType.getD "") = none ∧
    (r.workers.get? r.nextWorkerId).isSome

variable {r r₀ : WorkerRegistry} {d : RoutingDecision}

theorem given_topic (hworker : d.action.selectsWorker = true) : ∃ topic, d.topic = some topic := by
  have hselection := d.selection
  rw [RoutingFields.validateSelection, if_pos hworker] at hselection
  split_ifs at hselection with hfields
  simp only [Bool.or_eq_true, Bool.not_eq_true', not_or, Bool.not_eq_false, given] at hfields
  obtain ⟨topic, htopic, -⟩ := (Option.any_eq_true _ _).mp hfields.1.2
  exact ⟨topic, htopic⟩

theorem given_workerId (haction : d.action = .existingWorker) : given d.workerId = true := by
  have hselection := d.selection
  rw [RoutingFields.validateSelection, if_pos (by rw [haction]; rfl)] at hselection
  split_ifs at hselection with _ hid
  simpa [haction] using hid

theorem fits_of_consistent (hr : Consistent r) {workerId : String} {item : RegisteredWorker}
    (hget : r.workers.get? workerId = some item) (htype : d.workerType = some item.metadata.workerType)
    (htopic : d.topic = some item.metadata.topic) (hpolicy : d.modelPolicy = some item.metadata.modelPolicy) :
    Fits d item.worker := by
  obtain ⟨-, -, -, m, hm, hmtype, hmtopic, hmpolicy⟩ := hr workerId item hget
  exact ⟨m, hm, hmtype.trans htype.symm, hmtopic.trans htopic.symm, hmpolicy.trans hpolicy.symm⟩

/-- An entry of a catalogue is a worker of its registry. -/
theorem exists_of_mem_catalogue (hr : Consistent r) {entry : WorkerCatalogueEntry}
    (h : entry ∈ r.catalogue.workers) :
    ∃ item, r.workers.get? entry.workerId = some item ∧ entry.workerType = item.metadata.workerType ∧
      entry.topic = item.metadata.topic ∧ entry.policies = {item.metadata.modelPolicy} := by
  obtain ⟨item, hitem, rfl⟩ := List.mem_map.mp h
  obtain ⟨workerId, hget⟩ := Dict.mem_values.mp hitem
  obtain rfl := (hr workerId item hget).1
  exact ⟨item, hget, rfl, rfl, if_neg (Finset.singleton_ne_empty _)⟩

/-- **A worker of the catalogue is found**, whatever was registered since. -/
theorem dispatchable_existing (hr₀ : Consistent r₀) (hr : Consistent r) (hext : Extends r₀ r)
    (haction : d.action = .existingWorker) (hvalid : validateDecision d.toRoutingFields r₀.catalogue = .ok ()) :
    Dispatchable r d r₀.catalogue := by
  have hselects := selects_of_validateDecision r₀.modelPolicies_ne_nil r₀.capabilityLabels_ne_nil hvalid
  rw [Selects, haction] at hselects
  obtain ⟨entry, hmem, hid, htype, htopic, ⟨policy, hpolicy, hd⟩, -⟩ := hselects
  obtain ⟨item, hget, htype', htopic', hpolicies⟩ := exists_of_mem_catalogue hr₀ hmem
  rw [hpolicies, Finset.mem_singleton] at hpolicy
  have hkept := hext.kept entry.workerId item hget
  refine Or.inl ⟨item.worker, ?_, fits_of_consistent hr hkept (htype' ▸ htype) (htopic' ▸ htopic) (hpolicy ▸ hd)⟩
  rw [dispatch, if_neg Bool.false_ne_true, hvalid]
  dsimp only
  rw [if_neg (by rw [haction]; decide), if_pos (given_workerId haction), hid, Option.getD_some, WorkerRegistry.get, hkept]

/-- Nobody of the topic and type is registered. -/
theorem not_conflicts_of_ofTopic (hnone : r.ofTopic (d.topic.getD "") (d.workerType.getD "") = none) :
    ¬Conflicts r d := by
  rintro ⟨item, hitem, htopic, htype, -⟩
  have hno := List.find?_eq_none.mp hnone item hitem
  simp [htopic, htype] at hno

/-- **A new worker is made or found**, unless its id is taken. -/
theorem dispatchable_new (hr₀ : Consistent r₀) (hr : Consistent r) (hext : Extends r₀ r)
    (haction : d.action = .newWorker) (hvalid : validateDecision d.toRoutingFields r₀.catalogue = .ok ()) :
    Dispatchable r d r₀.catalogue ↔ ¬Taken r d := by
  have hselects := selects_of_validateDecision r₀.modelPolicies_ne_nil r₀.capabilityLabels_ne_nil hvalid
  rw [Selects, haction] at hselects
  obtain ⟨⟨workerType, hallowed, htype⟩, ⟨policy, hpolicy, hd⟩, -⟩ := hselects
  obtain ⟨topic, htopic⟩ := given_topic (d := d) (by rw [haction]; rfl)
  obtain rfl : workerType = "web_search" := by
    rw [WorkerCatalogue.workerTypes] at hallowed
    split_ifs at hallowed
    · exact Finset.mem_singleton.mp hallowed
    · obtain ⟨entry, hmem, rfl⟩ := List.mem_map.mp (List.mem_toFinset.mp hallowed)
      obtain ⟨item, hget, hentry, -⟩ := exists_of_mem_catalogue hr₀ hmem
      exact hentry.trans (hr₀ _ item hget).2.1
  have hknown : (r.config.workerModelPolicy.get? policy).isSome := by
    rw [hext.config]
    exact r₀.mem_modelPolicies.mp hpolicy
  have hdispatch : dispatch r false d r₀.catalogue =
      match r.getOrCreate topic "web_search" policy with
      | (r', .error e) => (r', .error (.registry e))
      | (r', .ok item) => (r', .ok (some item.worker)) := by
    rw [dispatch, if_neg Bool.false_ne_true, hvalid]
    dsimp only
    rw [if_pos haction, htopic, htype, hd]
    rfl
  have hgiven : r.ofTopic (d.topic.getD "") (d.workerType.getD "") = r.ofTopic topic "web_search" := by
    rw [htopic, htype]
    rfl
  rw [Dispatchable, hdispatch, getOrCreate, if_neg (not_not.mpr rfl)]
  rcases hof : r.ofTopic topic "web_search" with _ | item
  · by_cases hfree : r.workers.get? r.nextWorkerId = none
    · obtain ⟨item, hprepare⟩ := r.exists_prepare_eq_ok
        (a := { workerId := r.nextWorkerId, workerType := "web_search", topic, modelPolicy := policy }) rfl hfree hknown
        r.strip_nextWorkerId rfl
      obtain ⟨-, -, -, -, -, -, -, m, hm, hmtype, hmtopic, hmpolicy⟩ := r.prepare_ok hprepare
      refine iff_of_true (Or.inl ⟨item.worker, ?_, m, hm, hmtype.trans htype.symm, hmtopic.trans htopic.symm,
        hmpolicy.trans hd.symm⟩) fun htaken => ?_
      · simp only [register, hprepare]
      · have hsome := htaken.2.2
        rw [hfree] at hsome
        cases hsome
    · have htaken : Taken r d := ⟨haction, hgiven.trans hof, Option.isSome_iff_ne_none.mpr hfree⟩
      refine iff_of_false ?_ (not_not.mpr htaken)
      rintro (⟨worker, hok, -⟩ | ⟨-, hconflict⟩)
      · simp [register, prepare, Option.isSome_iff_ne_none.mpr hfree] at hok
      · exact not_conflicts_of_ofTopic htaken.2.1 hconflict
  · have hitem := List.find?_some hof
    simp only [decide_eq_true_eq] at hitem
    obtain ⟨workerId, hget⟩ := Dict.mem_values.mp (List.mem_of_find?_eq_some hof)
    refine iff_of_true ?_ fun htaken => ?_
    · dsimp only
      by_cases hsame : item.metadata.modelPolicy ≠ policy
      · rw [if_pos hsame]
        refine Or.inr ⟨⟨_, rfl⟩, item, List.mem_of_find?_eq_some hof, htopic.trans (by rw [hitem.1]),
          htype.trans (by rw [hitem.2]), ?_⟩
        rw [hd]
        exact fun heq => hsame (Option.some.inj heq).symm
      · rw [if_neg hsame]
        exact Or.inl ⟨item.worker, rfl, fits_of_consistent hr hget (htype.trans (by rw [hitem.2]))
          (htopic.trans (by rw [hitem.1])) (hd.trans (by rw [not_not.mp hsame]))⟩
    · have hnone := htaken.2.1
      rw [hgiven, hof] at hnone
      cases hnone

/-- `dispatch` reads the registry, or calls `get_or_create`. -/
theorem dispatch_cases (r : WorkerRegistry) (shutdown : Bool) (d : RoutingDecision) (c : WorkerCatalogue) :
    (dispatch r shutdown d c).1 = r ∨
    ∃ topic workerType modelPolicy, (dispatch r shutdown d c).1 = (r.getOrCreate topic workerType modelPolicy).1 ∧
      ∀ e, (dispatch r shutdown d c).2 = .error e →
        ∃ e', (r.getOrCreate topic workerType modelPolicy).2 = .error e' := by
  rcases shutdown with _ | _
  swap
  · exact Or.inl rfl
  rw [dispatch, if_neg Bool.false_ne_true]
  rcases validateDecision d.toRoutingFields c with text | _
  · exact Or.inl rfl
  dsimp only
  split_ifs
  · refine Or.inr ⟨d.topic.getD "", d.workerType.getD "", d.modelPolicy.getD "", ?_⟩
    rcases r.getOrCreate (d.topic.getD "") (d.workerType.getD "") (d.modelPolicy.getD "") with ⟨r', e | item⟩
    · exact ⟨rfl, fun _ _ => ⟨e, rfl⟩⟩
    · exact ⟨rfl, fun _ h => nomatch h⟩
  · rcases r.get (d.workerId.getD "") with e | item <;> exact Or.inl rfl
  · exact Or.inl rfl

theorem get_of_extends (hext : Extends r₀ r) {workerId : String} {item : RegisteredWorker}
    (hget : r₀.get workerId = .ok item) : r.get workerId = .ok item := by
  rw [WorkerRegistry.get] at hget ⊢
  rcases hfound : r₀.workers.get? workerId with _ | found
  · rw [hfound] at hget
    cases hget
  · rw [hfound] at hget
    rw [hext.kept workerId found hfound, ← hget]

theorem extends_dispatch (r : WorkerRegistry) (d : RoutingDecision) (c : WorkerCatalogue) :
    Extends r (dispatch r false d c).1 := by
  rcases dispatch_cases r false d c with heq | ⟨topic, workerType, modelPolicy, heq, -⟩ <;> rw [heq]
  · exact .refl r
  · exact extends_step r (.getOrCreate topic workerType modelPolicy)

/-- **Checked decisions are dispatchable** — a catalogue is taken, calls are made, and the decision comes
in — unless the id of the worker it needs is taken; ids keep resolving, and what fails changes nothing. -/
theorem dispatch_iff (config : Config) (es fs : List Event) (d : RoutingDecision)
    (hworker : d.action.selectsWorker = true)
    (hvalid : validateDecision d.toRoutingFields (after config es).catalogue = .ok ()) :
    (Dispatchable (after config (es ++ fs)) d (after config es).catalogue ∧
      (∀ workerId item, (after config es).get workerId = .ok item →
        (after config (es ++ fs)).get workerId = .ok item ∧
        (dispatch (after config (es ++ fs)) false d (after config es).catalogue).1.get workerId = .ok item) ∧
      (∀ e error, ((after config (es ++ fs)).call e).2 = .error error →
        ((after config (es ++ fs)).call e).1 = after config (es ++ fs)) ∧
      ∀ error, (dispatch (after config (es ++ fs)) false d (after config es).catalogue).2 = .error error →
        (dispatch (after config (es ++ fs)) false d (after config es).catalogue).1 = after config (es ++ fs)) ↔
    ¬Taken (after config (es ++ fs)) d := by
  have hext : Extends (after config es) (after config (es ++ fs)) := by
    rw [after, after, run_append]
    exact extends_run _ fs
  have hr₀ := consistent_after config es
  have hr := consistent_after config (es ++ fs)
  have hdispatch : Dispatchable (after config (es ++ fs)) d (after config es).catalogue ↔
      ¬Taken (after config (es ++ fs)) d := by
    rcases haction : d.action with _ | _ | _ | _ | _ <;> rw [haction] at hworker
    iterate 3 cases hworker
    · refine iff_of_true (dispatchable_existing hr₀ hr hext haction hvalid) fun htaken => ?_
      rw [Taken, haction] at htaken
      cases htaken.1
    · exact dispatchable_new hr₀ hr hext haction hvalid
  refine Iff.trans (and_iff_left ⟨fun workerId item hget => ?_, fun e error herror => call_error herror,
    fun error herror => ?_⟩) hdispatch
  · have hlater := get_of_extends hext hget
    exact ⟨hlater, get_of_extends (extends_dispatch _ d _) hlater⟩
  · rcases dispatch_cases (after config (es ++ fs)) false d (after config es).catalogue with
      heq | ⟨topic, workerType, modelPolicy, heq, hfails⟩
    · exact heq
    · obtain ⟨e', he'⟩ := hfails error herror
      exact heq.trans (call_error (e := .getOrCreate topic workerType modelPolicy) he')

/-- A new worker on cooking, as the router proposes it for a registry of one worker. -/
def cooking (workerId : String) : RoutingDecision where
  action := .newWorker
  workerType := "web_search"
  topic := "cooking"
  capability := "public_web"
  modelPolicy := "deep"
  catalogueVersion := "catalogue-1"
  catalogueWorkerIds := [workerId]
  selection := by rfl

theorem dispatch_iff_counted :
    ¬Taken (after .default [.getOrCreate "weather" "web_search" "deep"]) (cooking "worker-1") ∧
      Dispatchable (after .default [.getOrCreate "weather" "web_search" "deep"]) (cooking "worker-1")
        (after .default [.getOrCreate "weather" "web_search" "deep"]).catalogue := by
  have hfree : ¬Taken (after .default [.getOrCreate "weather" "web_search" "deep"]) (cooking "worker-1") := by
    rw [Taken]
    decide +kernel
  exact ⟨hfree, ((dispatch_iff .default [.getOrCreate "weather" "web_search" "deep"] [] (cooking "worker-1") rfl
    (by decide +kernel)).mpr hfree).1⟩

/-- One worker, registered by hand as `worker-2`. -/
abbrev byHand : List Event :=
  [.register { workerId := "worker-2", workerType := "web_search", topic := "weather" }]

/-- **A worker registered by hand keeps the next one from being made.** -/
theorem taken_id_not_dispatchable :
    validateDecision (cooking "worker-2").toRoutingFields (after .default byHand).catalogue = .ok () ∧
      ¬Dispatchable (after .default byHand) (cooking "worker-2") (after .default byHand).catalogue := by
  refine ⟨by decide +kernel, ?_⟩
  have hraises : (dispatch (after .default byHand) false (cooking "worker-2") (after .default byHand).catalogue).2 =
      .error (.registry (.alreadyRegistered "worker-2")) := by decide +kernel
  rintro (⟨worker, hok, -⟩ | ⟨-, hconflict⟩)
  · rw [hraises] at hok
    cases hok
  · exact not_conflicts_of_ofTopic (by decide +kernel) hconflict

end SubagentsLab

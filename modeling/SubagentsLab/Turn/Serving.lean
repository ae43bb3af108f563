import SubagentsLab.Speech.Standing
import SubagentsLab.Turn.OneAck

/-!
# Turn/Serving — for whom acknowledgements are filed

The ledger files an acknowledgement in two places only: `emit_early_ack` files the first of a turn, and a
retry files again for a turn that holds the latch.  So if the turns that hold it, and those whose
`emit_early_ack` is in its yield, are among those that are **served**, every acknowledgement that comes to
stand on the connection is one of theirs (`Serves.step`).

A turn handler awaits its `emit_early_ack` calls one by one, and one that has a search task in hand calls it
once: an emission in its yield and an admission chain under way are never of one turn (`Prompt`).
-/

namespace SubagentsLab

open Machinery

namespace AckHost

open SpeechScheduler ConnectionPipeline

variable {cfg : LifecycleConfig} {h h' : AckHost} {P : String → SpeechItem → Prop} {Q : String → Prop}

/-- `P` holds of all that is filed: of results, and of the acknowledgements of the turns in `Q`. -/
structure Allows (P : String → SpeechItem → Prop) (Q : String → Prop) : Prop where
  result : ∀ item, Proper item → (∀ turnId, item.ackOf turnId = false) → P item.workItemId item
  ack : ∀ turnId item, Q turnId → item.isAck = true → item.turnId = some turnId →
    item.workItemId = ackWorkItemId turnId → P item.workItemId item

/-- What stands on the connection is as `P` has it, and the turns in `Q` are all that is served. -/
structure Serves (P : String → SpeechItem → Prop) (Q : String → Prop) (h : AckHost) : Prop where
  stands : Stands P h.pipeline.scheduler
  latched : ∀ turnId ∈ h.ledger.emittedTurns, Q turnId
  yielding : ∀ emission ∈ h.emissions, Q emission.turnId

/-- Nothing comes to the connection, the latch or the emissions. -/
theorem Serves.mono (hs : Serves P Q h) (hpipeline : h'.pipeline = h.pipeline)
    (hlatched : ∀ turnId ∈ h'.ledger.emittedTurns, turnId ∈ h.ledger.emittedTurns)
    (hyielding : ∀ emission ∈ h'.emissions, emission ∈ h.emissions) : Serves P Q h' where
  stands := hpipeline ▸ hs.stands
  latched := fun turnId ht => hs.latched turnId (hlatched turnId ht)
  yielding := fun emission he => hs.yielding emission (hyielding emission he)

theorem Serves.enqueueAck (hs : Serves P Q h) (ha : Allows P Q) {turnId : String} (hq : Q turnId)
    (originEpoch : ℤ) : Serves P Q (h.enqueueAck cfg turnId originEpoch) := by
  obtain ⟨item, hitem, hack, hturn, hkey⟩ :=
    h.ackRequest_item? turnId originEpoch h.pipeline.scheduler.nextUtterance
  refine ⟨stands_step cfg hs.stands fun x hx => ?_, hs.latched, hs.yielding⟩
  have heq : x = item := by
    simpa [ConnectionPipeline.step, upon, SpeechScheduler.enqueue, hitem] using hx
  rw [heq]
  exact ha.ack turnId item hq hack hturn hkey

theorem Serves.retract (hs : Serves P Q h) (turnId : String) : Serves P Q (h.retract cfg turnId) where
  stands := stands_step cfg hs.stands fun _ hx => absurd hx List.not_mem_nil
  latched := fun t ht => hs.latched t (List.mem_of_mem_filter ht)
  yielding := hs.yielding

/-- A retry files for a turn that holds the latch. -/
theorem Serves.retryOrAbandon (hs : Serves P Q h) (ha : Allows P Q) (task : Admission) (needsRequeue : Bool) :
    Serves P Q (h.retryOrAbandon cfg task needsRequeue) := by
  rw [AckHost.retryOrAbandon]
  split_ifs with _ hlive _ hrequeue
  · exact hs
  · exact hs.retract task.turnId
  · exact hs.retract task.turnId
  · have hlatched : task.turnId ∈ h.ledger.emittedTurns := not_not.mp fun hnot => hlive (Or.inl hnot)
    have hfiled : Serves P Q (h.enqueueAck cfg task.turnId task.originEpoch) :=
      hs.enqueueAck ha (hs.latched _ hlatched) task.originEpoch
    exact hfiled.mono rfl (fun _ ht => ht) fun _ he => he
  · exact hs.mono rfl (fun _ ht => ht) fun _ he => he

theorem Serves.admissionEnds (hs : Serves P Q h) (ha : Allows P Q) (id : ℕ) (needsRequeue : Bool) :
    Serves P Q (h.admissionEnds cfg id needsRequeue) := by
  rw [AckHost.admissionEnds]
  split
  · exact hs
  · rename_i task _
    have hover : Serves P Q (h.forget id) := hs.mono rfl (fun _ ht => ht) fun _ he => he
    exact hover.retryOrAbandon ha task needsRequeue

theorem Serves.hear (hs : Serves P Q h) (ha : Allows P Q) (n : Notice) : Serves P Q (h.hear cfg n) := by
  rcases n with item | item | item | ⟨i, reason⟩ | ⟨_ | _ | _ | id, _ | item⟩ | ⟨_ | _ | _ | id, item⟩
  case ackTerminal =>
    refine hs.mono rfl (fun t ht => ?_) fun _ he => he
    rw [AckHost.hear] at ht
    cases hturn : i.turnId with
    | none =>
      rw [hturn] at ht
      exact ht
    | some turnId =>
      rw [hturn] at ht
      exact List.mem_of_mem_filter ht
  case returned.admission.none => exact hs.admissionEnds ha id false
  case returned.admission.some => exact hs.mono rfl (fun _ ht => ht) fun _ he => he
  case raised.admission => exact hs.admissionEnds ha id true
  all_goals exact hs

theorem Serves.listen (hs : Serves P Q h) (ha : Allows P Q) {e : ConnectionPipeline.Event}
    (hfiled : ∀ item, .enqueued item ∈ (h.pipeline.step cfg e).2 → P item.workItemId item) :
    Serves P Q (h.listen cfg e).1 := by
  have hmoved : Serves P Q { h with pipeline := (h.pipeline.step cfg e).1 } :=
    ⟨stands_step cfg hs.stands hfiled, hs.latched, hs.yielding⟩
  exact run_invariant_of_step (I := Serves P Q) (fun _ n hs => hs.hear ha n) hmoved _

theorem Serves.emit (hs : Serves P Q h) (ha : Allows P Q) {turnId : String} (hq : Q turnId) (originEpoch : ℤ) :
    Serves P Q (h.emit cfg turnId originEpoch) := by
  have hfiled : Serves P Q (h.enqueueAck cfg turnId originEpoch) := hs.enqueueAck ha hq originEpoch
  refine ⟨hfiled.stands, fun t ht => ?_, hfiled.yielding⟩
  have hinsert : t ∈ h.ledger.emittedTurns.insert turnId := ht
  rcases List.mem_insert_iff.mp hinsert with rfl | ht
  · exact hq
  · exact hs.latched t ht

/-- **A step serves no other turn**, if `emit_early_ack` is called for none. -/
theorem Serves.step (hs : Serves P Q h) (ha : Allows P Q) {e : AckHost.Event} (hout : h.outside e = true)
    (hq : ∀ turnId originEpoch dispatched searching,
      e = .emitEarlyAck turnId originEpoch dispatched searching → Q turnId) :
    Serves P Q (h.step cfg e).1 := by
  have kept : ∀ {h' : AckHost}, h'.pipeline = h.pipeline → h'.ledger.emittedTurns = h.ledger.emittedTurns →
      h'.emissions = h.emissions → Serves P Q h' := fun hpipeline hlatched hyielding =>
    hs.mono hpipeline (fun _ ht => hlatched ▸ ht) fun _ he => hyielding ▸ he
  cases e with
  | speech e =>
    refine hs.listen ha fun item hi => ?_
    obtain ⟨hproper, hno⟩ := filed_outside hout (List.mem_filterMap.mpr ⟨_, hi, rfl⟩)
    exact ha.result item hproper hno
  | emitEarlyAck turnId originEpoch dispatched searching =>
    have hturn := hq turnId originEpoch dispatched searching rfl
    rw [AckHost.step]
    split_ifs
    · refine ⟨hs.stands, hs.latched, fun emission he => ?_⟩
      rcases List.mem_append.mp he with he | he
      · exact hs.yielding emission he
      · rw [List.mem_singleton.mp he]
        exact hturn
    · exact hs.emit ha hturn originEpoch
    · exact hs
  | resumeEmission id searchDone =>
    rw [AckHost.step]
    split
    · exact hs
    · rename_i emission hfind
      have hrest : Serves P Q { h with emissions := h.emissions.erase emission } :=
        hs.mono rfl (fun _ ht => ht) fun _ he => List.mem_of_mem_erase he
      dsimp only
      split_ifs
      · exact hrest
      · exact hrest.emit ha (hs.yielding emission (List.mem_of_find?_eq_some hfind)) emission.originEpoch
  | cancelEmission id => exact hs.mono rfl (fun _ ht => ht) fun _ he => List.mem_of_mem_filter he
  | runAdmission id =>
    rw [AckHost.step]
    split
    · exact hs
    · rename_i task _
      split_ifs
      · exact kept rfl rfl rfl
      · have hadmitting : Serves P Q { h with
            admissions := (h.forget id).admissions ++ [{ task with point := .admitting }] } := kept rfl rfl rfl
        refine hadmitting.listen ha fun item hi => ?_
        exact absurd hi (unfiled_step cfg _ (e := .startAck id (ackWorkItemId task.turnId))
          (by rintro _ ⟨⟩) (by rintro _ ⟨⟩) item)
      · exact hs
  | wake id =>
    rw [AckHost.step]
    split
    · exact hs
    · split_ifs
      · exact kept rfl rfl rfl
      · exact hs
  | cancelAdmission id => exact kept rfl rfl rfl
  | settleTurnAck turnId cancelAdmitted =>
    rw [AckHost.step]
    split_ifs
    · have hcancel : Serves P Q (h.listen cfg (.cancel (some (ackWorkItemId turnId)))).1 :=
        hs.listen ha fun item hi => absurd hi (unfiled_step cfg _ (e := .cancel (some (ackWorkItemId turnId)))
          (by rintro _ ⟨⟩) (by rintro _ ⟨⟩) item)
      exact hcancel.retract turnId
    · exact hs.retract turnId
  | clearAckLatch turnId => exact hs.mono rfl (fun _ ht => List.mem_of_mem_filter ht) fun _ he => he
  | clearAll => exact hs.mono rfl (fun _ ht => absurd ht List.not_mem_nil) fun _ he => he
  | setClosing closing => exact kept rfl rfl rfl
  | configure enableEarlyAck earlyAckText => exact kept rfl rfl rfl

/-! ## Emissions and chains -/

/-- No turn has two emissions in their yield, or one beside an admission chain. -/
structure Prompt (h : AckHost) : Prop where
  single : (h.emissions.map (·.turnId)).Nodup
  apart : ∀ emission ∈ h.emissions, ∀ task ∈ h.admissions, task.turnId ≠ emission.turnId

/-- The handler of a turn awaits its emissions, and one that yields is the turn's first. -/
def prompt (h : AckHost) : Event → Bool
  | .emitEarlyAck turnId _ _ searching => h.emissions.all (fun emission => emission.turnId ≠ turnId) &&
    (!searching || h.admissions.all fun task => task.turnId ≠ turnId)
  | _ => true

/-- No chain begins. -/
def Succeeds (h h' : AckHost) : Prop :=
  h'.emissions = h.emissions ∧ ∀ task ∈ h'.admissions, ∃ t ∈ h.admissions, t.turnId = task.turnId

theorem Succeeds.refl (h : AckHost) : Succeeds h h := ⟨rfl, fun task ht => ⟨task, ht, rfl⟩⟩

theorem Succeeds.trans {h'' : AckHost} (hs : Succeeds h h') (hs' : Succeeds h' h'') : Succeeds h h'' := by
  refine ⟨hs'.1.trans hs.1, fun task ht => ?_⟩
  obtain ⟨t, ht, hturn⟩ := hs'.2 task ht
  obtain ⟨t', ht', hturn'⟩ := hs.2 t ht
  exact ⟨t', ht', hturn'.trans hturn⟩

theorem succeeds_of_subset (hyielding : h'.emissions = h.emissions)
    (hsubset : ∀ task ∈ h'.admissions, task ∈ h.admissions) : Succeeds h h' :=
  ⟨hyielding, fun task ht => ⟨task, hsubset task ht, rfl⟩⟩

/-- A task of a chain gives way to its next one. -/
theorem succeeds_of_next {task : Admission} (next : Admission) (hmem : task ∈ h.admissions)
    (hturn : next.turnId = task.turnId) (hyielding : h'.emissions = h.emissions)
    (hnext : ∀ t ∈ h'.admissions, t ∈ h.admissions ∨ t = next) : Succeeds h h' := by
  refine ⟨hyielding, fun t ht => ?_⟩
  rcases hnext t ht with ht | rfl
  · exact ⟨t, ht, rfl⟩
  · exact ⟨task, hmem, hturn.symm⟩

theorem succeeds_admissionEnds (h : AckHost) (id : ℕ) (needsRequeue : Bool) :
    Succeeds h (h.admissionEnds cfg id needsRequeue) := by
  rw [admissionEnds]
  split
  · exact .refl h
  · rename_i task hfind
    have hmem : task ∈ h.admissions := List.mem_of_find?_eq_some hfind
    have hforget : ∀ t ∈ (h.forget id).admissions, t ∈ h.admissions := fun t ht => List.mem_of_mem_filter ht
    rw [retryOrAbandon]
    split_ifs
    · exact succeeds_of_subset rfl hforget
    · exact succeeds_of_subset rfl hforget
    · exact succeeds_of_subset rfl hforget
    all_goals
      refine succeeds_of_next { task with id := h.nextTask, point := .sleeping } hmem rfl rfl fun t ht => ?_
      exact (List.mem_append.mp ht).imp (hforget t) List.mem_singleton.mp

theorem succeeds_hear (h : AckHost) (n : Notice) : Succeeds h (h.hear cfg n) := by
  rcases n with item | item | item | ⟨i, reason⟩ | ⟨_ | _ | _ | id, _ | item⟩ | ⟨_ | _ | _ | id, item⟩
  case returned.admission.none => exact succeeds_admissionEnds h id false
  case returned.admission.some => exact succeeds_of_subset rfl fun _ ht => List.mem_of_mem_filter ht
  case raised.admission => exact succeeds_admissionEnds h id true
  all_goals exact .refl h

theorem succeeds_listen (h : AckHost) (e : ConnectionPipeline.Event) : Succeeds h (h.listen cfg e).1 := by
  have hmoved : Succeeds h { h with pipeline := (h.pipeline.step cfg e).1 } :=
    succeeds_of_subset rfl fun _ ht => ht
  exact run_invariant_of_step (I := Succeeds h) (fun h' n hs => hs.trans (succeeds_hear h' n)) hmoved _

theorem Prompt.succeeds (hp : Prompt h) (hs : Succeeds h h') : Prompt h' := by
  refine ⟨hs.1 ▸ hp.single, fun emission he task ht => ?_⟩
  obtain ⟨t, ht, hturn⟩ := hs.2 task ht
  rw [hs.1] at he
  rw [← hturn]
  exact hp.apart emission he t ht

/-- A chain begins, for a turn that has no emission in its yield. -/
theorem Prompt.emit (hp : Prompt h) {turnId : String}
    (hturn : ∀ emission ∈ h.emissions, emission.turnId ≠ turnId) (originEpoch : ℤ) :
    Prompt (h.emit cfg turnId originEpoch) := by
  refine ⟨hp.single, fun emission he task ht => ?_⟩
  rcases List.mem_append.mp ht with ht | ht
  · exact hp.apart emission he task ht
  · rw [List.mem_singleton.mp ht]
    exact (hturn emission he).symm

theorem Prompt.step (hp : Prompt h) {e : AckHost.Event} (he : h.prompt e = true) : Prompt (h.step cfg e).1 := by
  have kept : ∀ {h' : AckHost}, h'.emissions = h.emissions → (∀ task ∈ h'.admissions, task ∈ h.admissions) →
      Prompt h' := fun hyielding hsubset => hp.succeeds (succeeds_of_subset hyielding hsubset)
  cases e with
  | speech e => exact hp.succeeds (succeeds_listen h e)
  | emitEarlyAck turnId originEpoch dispatched searching =>
    obtain ⟨hnone, hfirst⟩ : (∀ emission ∈ h.emissions, emission.turnId ≠ turnId) ∧
        (searching = false ∨ ∀ task ∈ h.admissions, task.turnId ≠ turnId) := by
      simpa [prompt] using he
    rw [AckHost.step]
    split_ifs with _ hsearching
    · refine ⟨?_, fun emission he task ht => ?_⟩
      · simp only [List.map_append, List.map_singleton]
        refine List.nodup_append.mpr ⟨hp.single, List.nodup_singleton _, fun t ht t' ht' heq => ?_⟩
        obtain ⟨emission, he, rfl⟩ := List.mem_map.mp ht
        exact hnone emission he (heq.trans (List.mem_singleton.mp ht'))
      · rcases List.mem_append.mp he with he | he
        · exact hp.apart emission he task ht
        · rw [List.mem_singleton.mp he]
          exact (hfirst.resolve_left (by simp [hsearching])) task ht
    · exact hp.emit hnone originEpoch
    · exact hp
  | resumeEmission id searchDone =>
    rw [AckHost.step]
    split
    · exact hp
    · rename_i emission hfind
      have hmem := List.mem_of_find?_eq_some hfind
      have hperm := (List.perm_cons_erase hmem).map (·.turnId)
      have hnodup := hperm.nodup_iff.mp hp.single
      rw [List.map_cons, List.nodup_cons] at hnodup
      have hrest : Prompt { h with emissions := h.emissions.erase emission } :=
        ⟨hnodup.2, fun other ho task ht => hp.apart other (List.mem_of_mem_erase ho) task ht⟩
      dsimp only
      split_ifs
      · exact hrest
      · exact hrest.emit (fun other ho heq => hnodup.1 (List.mem_map.mpr ⟨other, ho, heq⟩)) emission.originEpoch
  | cancelEmission id =>
    exact ⟨hp.single.sublist (List.filter_sublist.map _),
      fun emission he task ht => hp.apart emission (List.mem_of_mem_filter he) task ht⟩
  | runAdmission id =>
    rw [AckHost.step]
    split
    · exact hp
    · rename_i task hfind
      split_ifs
      · exact kept rfl fun _ ht => List.mem_of_mem_filter ht
      · refine hp.succeeds (Succeeds.trans ?_ (succeeds_listen _ _))
        exact succeeds_of_next { task with point := .admitting } (List.mem_of_find?_eq_some hfind) rfl rfl
          fun t ht => (List.mem_append.mp ht).imp List.mem_of_mem_filter List.mem_singleton.mp
      · exact hp
  | wake id =>
    rw [AckHost.step]
    split
    · exact hp
    · rename_i task hfind
      split_ifs
      · exact hp.succeeds (succeeds_of_next
          ⟨h.nextTask, task.turnId, task.originEpoch, task.generation, task.attempt + 1, .scheduled⟩
          (List.mem_of_find?_eq_some hfind) rfl rfl
          fun t ht => (List.mem_append.mp ht).imp List.mem_of_mem_filter List.mem_singleton.mp)
      · exact hp
  | cancelAdmission id => exact kept rfl fun _ ht => List.mem_of_mem_filter ht
  | settleTurnAck turnId cancelAdmitted =>
    rw [AckHost.step]
    split_ifs
    · exact hp.succeeds ((succeeds_listen h _).trans (succeeds_of_subset rfl fun _ ht => ht))
    · exact kept rfl fun _ ht => ht
  | clearAckLatch turnId => exact kept rfl fun _ ht => ht
  | clearAll => exact kept rfl fun _ ht => ht
  | setClosing closing => exact kept rfl fun _ ht => ht
  | configure enableEarlyAck earlyAckText => exact kept rfl fun _ ht => ht

end AckHost

end SubagentsLab

import SubagentsLab.Turn.AckLedger

/-!
# Turn/Chains — superseded admission chains are inert

One `TurnAckLedger` serves every connection of its host, so here the schedulers are outside: `start_next`
ends when it ends, the host's connection, epochs and feature policy read as they please (`Event.observe`),
and all that is kept is what the ledger *does*, with the admission chain that does it.

Generations are drawn from one sequence that nothing resets, and the table of the turns' newest chains is
in the order they were claimed.  A chain that finds no entry for its turn goes on: the entry of a newer
chain leaves the table only to a `clear_all`, or when `_MAX_ACK_GENERATION_TURNS` other turns have claimed
since (`Tracks`).  Short of both, a chain that acts is its turn's newest (`superseded_chains_inert`).

What `start_next` does by itself, and the latches that the scheduler's notices and the turn handlers
clear, are no deeds of a chain.
-/

namespace SubagentsLab

open Machinery

/-- What the ledger reads of its host; connections are numbered. -/
structure AckView where
  enableEarlyAck : Bool := true
  earlyAckText : String := ""
  connection : Option ℕ := none
  accepts : ℤ → Bool := fun _ => true
  tts : ℕ → Bool := fun _ => true
  active : ℕ → Bool := fun _ => true
  epoch : ℕ → ℤ := fun _ => 0

/-- An admission chain: its turn, and the generation it claimed. -/
structure AckChain where
  turnId : String
  generation : ℕ
  deriving DecidableEq, Repr

/-- What the ledger does to the scheduler of a connection, or to a latch. -/
inductive AckEffect
  | startNext (origin : ℕ) (workItemId : String)
  | enqueue (origin : ℕ) (request : SpeechRequest)
  | discardQueuedAck (origin : ℕ) (ackId : String)
  | cancel (origin : ℕ) (workItemId : String)
  | latch (turnId : String)
  | clearLatch (turnId : String)
  deriving DecidableEq, Repr

/-- What the ledger is seen to do; a turn handler, an emission or a notice acts for no chain. -/
inductive AckDeed
  | claimed (chain : AckChain)
  | did (chain : Option AckChain) (effect : AckEffect)
  | clearedAll
  deriving DecidableEq, Repr

namespace AckDeed

/-- The chain that is claimed. -/
def claim? : AckDeed → Option AckChain
  | claimed chain => some chain
  | _ => none

/-- What a deed makes of the claims since the last `clear_all`. -/
def tally (chains : List AckChain) : AckDeed → List AckChain
  | claimed chain => chains ++ [chain]
  | clearedAll => []
  | did _ _ => chains

/-- The chain calls `start_next`. -/
def starts (chain : AckChain) : AckDeed → Bool
  | did (some c) (.startNext _ _) => decide (c = chain)
  | _ => false

end AckDeed

/-- The chains claimed, in order. -/
def claimedChains (log : List AckDeed) : List AckChain := log.filterMap AckDeed.claim?

/-- The chains claimed since the last `clear_all`, in order. -/
def recentChains (log : List AckDeed) : List AckChain := log.foldl AckDeed.tally []

/-- How often the chain calls `start_next`. -/
def startNextCalls (log : List AckDeed) (chain : AckChain) : ℕ := log.countP (AckDeed.starts chain)

/-- The other turns that claim a chain after this one does. -/
def rivals (log : List AckDeed) (chain : AckChain) : Finset String :=
  (((claimedChains log).filter fun c => chain.generation < c.generation ∧ c.turnId ≠ chain.turnId).map
    AckChain.turnId).toFinset

/-- An `emit_early_ack` call in its one-tick yield, on a connection. -/
structure OriginEmission extends Emission where
  origin : ℕ
  deriving DecidableEq, Repr

/-- A task of an admission chain, on a connection. -/
structure OriginAdmission extends Admission where
  origin : ℕ
  deriving DecidableEq, Repr

/-- The chain the task belongs to. -/
def OriginAdmission.chain (task : OriginAdmission) : AckChain := ⟨task.turnId, task.generation⟩

/-- The ledger with its calls and tasks in flight. -/
structure AckChains where
  view : AckView
  ledger : TurnAckLedger := {}
  emissions : List OriginEmission := []
  admissions : List OriginAdmission := []
  nextTask : ℕ := 0

namespace AckChains

variable (s : AckChains)

/-- The arguments of the acknowledgement's `enqueue`. -/
def ackRequest (turnId : String) (originEpoch : ℤ) : SpeechRequest where
  workItemId := ackWorkItemId turnId
  runId := "run-" ++ ackWorkItemId turnId
  text := s.view.earlyAckText
  originEpoch := some originEpoch
  role := .ack
  ackId := some (ackWorkItemId turnId)
  turnId := some turnId

/-- `settle_turn_ack`, by a chain or by a turn handler. -/
def settleTurnAck (chain : Option AckChain) (origin : ℕ) (turnId : String) (cancelAdmitted : Bool) :
    AckChains × List AckDeed :=
  ({ s with ledger := s.ledger.clearAckLatch turnId },
    (if cancelAdmitted then [.did chain (.cancel origin (ackWorkItemId turnId))] else []) ++
      [.did chain (.discardQueuedAck origin (ackWorkItemId turnId)), .did chain (.clearLatch turnId)])

/-- `_schedule_ack_admission`; a chain that has no generation yet claims one. -/
def scheduleAckAdmission (origin : ℕ) (turnId : String) (originEpoch : ℤ) (attempt : ℕ)
    (generation : Option ℕ) : AckChains × List AckDeed :=
  let claim := generation.elim (s.ledger.claimGeneration turnId) fun generation => (s.ledger, generation)
  ({ s with
    ledger := claim.1
    admissions := s.admissions ++ [⟨⟨s.nextTask, turnId, originEpoch, claim.2, attempt, .scheduled⟩, origin⟩]
    nextTask := s.nextTask + 1 },
    if generation = none then [.claimed ⟨turnId, claim.2⟩] else [])

/-- The turn is latched, its connection is the host's and has not moved on. -/
def live (task : OriginAdmission) : Bool :=
  decide (task.turnId ∈ s.ledger.emittedTurns) && decide (s.view.connection = some task.origin) &&
    s.view.active task.origin && decide (s.view.epoch task.origin = task.originEpoch) &&
    s.view.accepts task.originEpoch

/-- `_retry_or_abandon`. -/
def retryOrAbandon (task : OriginAdmission) (needsRequeue : Bool) : AckChains × List AckDeed :=
  if s.ledger.superseded task.turnId task.generation then (s, [])
  else if s.live task = false then s.settleTurnAck (some task.chain) task.origin task.turnId false
  else if ackAdmissionMaxAttempts ≤ task.attempt then
    s.settleTurnAck (some task.chain) task.origin task.turnId false
  else
    ({ s with
      admissions := s.admissions ++ [{ task with id := s.nextTask, point := .sleeping }]
      nextTask := s.nextTask + 1 },
      if needsRequeue then
        [.did (some task.chain) (.enqueue task.origin (s.ackRequest task.turnId task.originEpoch))]
      else [])

/-- `emit_early_ack` gets past its checks: `searching` says that it is given a search task. -/
def eligible (origin : ℕ) (turnId : String) (originEpoch : ℤ) (dispatched searching : Bool) : Bool :=
  dispatched = searching && s.view.enableEarlyAck && s.ledger.emittedTurns.all (· ≠ turnId) &&
    s.view.tts origin && decide (s.view.connection = some origin) && s.view.active origin &&
    s.view.accepts originEpoch

/-- The rest of `emit_early_ack`, once nothing speaks against it. -/
def emit (origin : ℕ) (turnId : String) (originEpoch : ℤ) : AckChains × List AckDeed :=
  let r := { s with ledger := s.ledger.latch turnId }.scheduleAckAdmission origin turnId originEpoch 1 none
  (r.1, [.did none (.enqueue origin (s.ackRequest turnId originEpoch)), .did none (.latch turnId)] ++ r.2)

/-- The task with the id, where it stands at the point. -/
def taskAt (id : ℕ) (point : AdmissionPoint) : Option OriginAdmission :=
  s.admissions.find? fun task => task.id = id ∧ task.point = point

/-- A task is over. -/
def forget (id : ℕ) : AckChains := { s with admissions := s.admissions.filter (·.id ≠ id) }

/-- What can happen. -/
inductive Event
  /-- The ledger will read this of its host. -/
  | observe (view : AckView)
  | emitEarlyAck (origin : ℕ) (turnId : String) (originEpoch : ℤ) (dispatched searching : Bool)
  /-- The emission `id` is back from its yield. -/
  | resumeEmission (id : ℕ) (searchDone : Bool)
  | cancelEmission (id : ℕ)
  /-- The task `id` runs: `admit`. -/
  | runAdmission (id : ℕ)
  /-- `start_next` returns to the task `id`, with an item or with `None`. -/
  | returned (id : ℕ) (admitted : Bool)
  /-- `start_next` raises into the task `id`. -/
  | raised (id : ℕ)
  /-- The task `id` has slept. -/
  | wake (id : ℕ)
  | cancelAdmission (id : ℕ)
  | onAckTerminal (turnId : Option String)
  | settleTurnAck (origin : ℕ) (turnId : String) (cancelAdmitted : Bool)
  | clearAckLatch (turnId : String)
  | clearAll

/-- The emission is back from its yield. -/
def resumeEmission (emission : OriginEmission) (searchDone : Bool) : AckChains × List AckDeed :=
  let s := { s with emissions := s.emissions.erase emission }
  if searchDone then (s, []) else s.emit emission.origin emission.turnId emission.originEpoch

/-- `admit`, up to its call of `start_next`. -/
def runAdmission (task : OriginAdmission) : AckChains × List AckDeed :=
  if s.ledger.superseded task.turnId task.generation then (s.forget task.id, [])
  else
    ({ s with admissions := (s.forget task.id).admissions ++ [{ task with point := .admitting }] },
      [.did (some task.chain) (.startNext task.origin (ackWorkItemId task.turnId))])

/-- `retry_after_delay`, once it has slept. -/
def wake (task : OriginAdmission) : AckChains × List AckDeed :=
  (s.forget task.id).scheduleAckAdmission task.origin task.turnId task.originEpoch (task.attempt + 1)
    (some task.generation)

/-- One step, with what the ledger does in it. -/
def step : Event → AckChains × List AckDeed
  | .observe view => ({ s with view }, [])
  | .emitEarlyAck origin turnId originEpoch dispatched searching =>
    if s.eligible origin turnId originEpoch dispatched searching then
      if searching then
        ({ s with
          emissions := s.emissions ++ [⟨⟨s.nextTask, turnId, originEpoch⟩, origin⟩]
          nextTask := s.nextTask + 1 }, [])
      else s.emit origin turnId originEpoch
    else (s, [])
  | .resumeEmission id searchDone =>
    (s.emissions.find? (·.id = id)).elim (s, []) fun emission => s.resumeEmission emission searchDone
  | .cancelEmission id => ({ s with emissions := s.emissions.filter (·.id ≠ id) }, [])
  | .runAdmission id => (s.taskAt id .scheduled).elim (s, []) s.runAdmission
  | .returned id admitted => (s.taskAt id .admitting).elim (s, []) fun task =>
    if admitted then (s.forget task.id, []) else (s.forget task.id).retryOrAbandon task false
  | .raised id =>
    (s.taskAt id .admitting).elim (s, []) fun task => (s.forget task.id).retryOrAbandon task true
  | .wake id => (s.taskAt id .sleeping).elim (s, []) s.wake
  | .cancelAdmission id => ({ s with admissions := s.admissions.filter (·.id ≠ id) }, [])
  | .onAckTerminal turnId => turnId.elim (s, []) fun turnId =>
    ({ s with ledger := s.ledger.clearAckLatch turnId }, [.did none (.clearLatch turnId)])
  | .settleTurnAck origin turnId cancelAdmitted => s.settleTurnAck none origin turnId cancelAdmitted
  | .clearAckLatch turnId =>
    ({ s with ledger := s.ledger.clearAckLatch turnId }, [.did none (.clearLatch turnId)])
  | .clearAll =>
    ({ s with ledger := { s.ledger with emittedTurns := [], admissionGeneration := ∅ } }, [.clearedAll])

/-! ## What a step can do -/

/-- What a step can do: nothing that a chain would notice (`idle`), claim a chain, forget the table, let
the chain of a task act that is not superseded, or wake a task. -/
inductive Move (s s' : AckChains) : List AckDeed → Prop
  | idle {ds : List AckDeed} (htable : s'.ledger.admissionGeneration = s.ledger.admissionGeneration)
      (hseq : s'.ledger.generationSequence = s.ledger.generationSequence)
      (htasks : List.Sublist s'.admissions s.admissions) (hds : ∀ d ∈ ds, ∃ effect, d = .did none effect) :
      Move s s' ds
  | claim {d d' : AckEffect} (turnId : String) (task : OriginAdmission)
      (htable : s'.ledger.admissionGeneration = (s.ledger.claimGeneration turnId).1.admissionGeneration)
      (hseq : s'.ledger.generationSequence = s.ledger.generationSequence + 1)
      (htasks : s'.admissions = s.admissions ++ [task]) (hturn : task.turnId = turnId)
      (hgeneration : task.generation = s.ledger.generationSequence + 1) (hattempt : task.attempt = 1) :
      Move s s' [.did none d, .did none d', .claimed task.chain]
  | clearedAll (htable : s'.ledger.admissionGeneration = ∅)
      (hseq : s'.ledger.generationSequence = s.ledger.generationSequence)
      (htasks : s'.admissions = s.admissions) : Move s s' [.clearedAll]
  | acts {ds : List AckDeed} (task : OriginAdmission) (hmem : task ∈ s.admissions)
      (hnewest : s.ledger.superseded task.turnId task.generation = false)
      (htable : s'.ledger.admissionGeneration = s.ledger.admissionGeneration)
      (hseq : s'.ledger.generationSequence = s.ledger.generationSequence)
      (hds : ∀ d ∈ ds, ∃ effect, d = .did (some task.chain) effect)
      (hnext : s'.admissions = (s.forget task.id).admissions ∧ startNextCalls ds task.chain = 0 ∨
        ∃ next : OriginAdmission, s'.admissions = (s.forget task.id).admissions ++ [next] ∧ next.chain = task.chain ∧
          next.attempt = task.attempt ∧
          (task.point = .scheduled ∧ next.point = .admitting ∧ startNextCalls ds task.chain = 1 ∨
            next.point = .sleeping ∧ task.attempt < ackAdmissionMaxAttempts ∧
              startNextCalls ds task.chain = 0)) : Move s s' ds
  | wake (task next : OriginAdmission) (hmem : task ∈ s.admissions) (hpoint : task.point = .sleeping)
      (htable : s'.ledger.admissionGeneration = s.ledger.admissionGeneration)
      (hseq : s'.ledger.generationSequence = s.ledger.generationSequence)
      (htasks : s'.admissions = (s.forget task.id).admissions ++ [next]) (hchain : next.chain = task.chain)
      (hattempt : next.attempt = task.attempt + 1) (hnext : next.point = .scheduled) : Move s s' []

variable {s}

theorem move_unseen {s' : AckChains} (htable : s'.ledger.admissionGeneration = s.ledger.admissionGeneration)
    (hseq : s'.ledger.generationSequence = s.ledger.generationSequence)
    (htasks : List.Sublist s'.admissions s.admissions) : Move s s' [] :=
  .idle htable hseq htasks fun _ hd => absurd hd List.not_mem_nil

theorem move_emit (origin : ℕ) (turnId : String) (originEpoch : ℤ) :
    Move s (s.emit origin turnId originEpoch).1 (s.emit origin turnId originEpoch).2 :=
  .claim turnId ⟨⟨s.nextTask, turnId, originEpoch, s.ledger.generationSequence + 1, 1, .scheduled⟩, origin⟩
    rfl rfl rfl rfl rfl rfl

theorem move_resumeEmission (emission : OriginEmission) (searchDone : Bool) :
    Move s (s.resumeEmission emission searchDone).1 (s.resumeEmission emission searchDone).2 := by
  rw [resumeEmission]
  cases searchDone
  · exact .claim emission.turnId ⟨⟨s.nextTask, emission.turnId, emission.originEpoch,
      s.ledger.generationSequence + 1, 1, .scheduled⟩, emission.origin⟩ rfl rfl rfl rfl rfl rfl
  · exact move_unseen rfl rfl (List.Sublist.refl _)

theorem move_runAdmission {task : OriginAdmission} (hmem : task ∈ s.admissions) (hpoint : task.point = .scheduled) :
    Move s (s.runAdmission task).1 (s.runAdmission task).2 := by
  rw [runAdmission]
  cases hsup : s.ledger.superseded task.turnId task.generation
  · refine .acts task hmem hsup rfl rfl (fun d hd => ⟨_, List.mem_singleton.mp hd⟩)
      (.inr ⟨_, rfl, rfl, rfl, .inl ⟨hpoint, rfl, ?_⟩⟩)
    simp [startNextCalls, AckDeed.starts]
  · exact move_unseen rfl rfl List.filter_sublist

theorem move_settle {task : OriginAdmission} (hmem : task ∈ s.admissions)
    (hsup : s.ledger.superseded task.turnId task.generation = false) :
    Move s ((s.forget task.id).settleTurnAck (some task.chain) task.origin task.turnId false).1
      ((s.forget task.id).settleTurnAck (some task.chain) task.origin task.turnId false).2 := by
  refine .acts task hmem hsup rfl rfl (fun d hd => ?_) (.inl ⟨rfl, rfl⟩)
  rcases List.mem_cons.mp hd with rfl | hd
  · exact ⟨_, rfl⟩
  · exact ⟨_, List.mem_singleton.mp hd⟩

theorem move_retryOrAbandon {task : OriginAdmission} (hmem : task ∈ s.admissions) (needsRequeue : Bool) :
    Move s ((s.forget task.id).retryOrAbandon task needsRequeue).1
      ((s.forget task.id).retryOrAbandon task needsRequeue).2 := by
  rw [retryOrAbandon]
  cases hsup : (s.forget task.id).ledger.superseded task.turnId task.generation
  · cases hlive : (s.forget task.id).live task
    · exact move_settle hmem hsup
    · by_cases hattempt : ackAdmissionMaxAttempts ≤ task.attempt
      · simp only [Bool.false_eq_true, if_false, if_pos hattempt, reduceCtorEq]
        exact move_settle hmem hsup
      · simp only [Bool.false_eq_true, if_false, if_neg hattempt, reduceCtorEq]
        refine .acts task hmem hsup rfl rfl (fun d hd => ?_)
          (.inr ⟨_, rfl, rfl, rfl, .inr ⟨rfl, Nat.lt_of_not_le hattempt, ?_⟩⟩)
        · cases needsRequeue
          · exact absurd hd List.not_mem_nil
          · exact ⟨_, List.mem_singleton.mp hd⟩
        · cases needsRequeue <;> rfl
  · exact move_unseen rfl rfl List.filter_sublist

/-- A step on the task that an id names at a point. -/
theorem move_taskAt {id : ℕ} {point : AdmissionPoint} {f : OriginAdmission → AckChains × List AckDeed}
    (h : ∀ task ∈ s.admissions, task.point = point → Move s (f task).1 (f task).2) :
    Move s ((s.taskAt id point).elim (s, []) f).1 ((s.taskAt id point).elim (s, []) f).2 := by
  rcases hfind : s.taskAt id point with _ | task
  · exact move_unseen rfl rfl (List.Sublist.refl _)
  · have hpoint := List.find?_some hfind
    rw [decide_eq_true_eq] at hpoint
    exact h task (List.mem_of_find?_eq_some hfind) hpoint.2

/-- **What a step can do.** -/
theorem move_step (e : Event) : Move s (s.step e).1 (s.step e).2 := by
  cases e with
  | observe view => exact move_unseen rfl rfl (List.Sublist.refl _)
  | emitEarlyAck origin turnId originEpoch dispatched searching =>
    rw [step]
    split_ifs
    · exact move_unseen rfl rfl (List.Sublist.refl _)
    · exact move_emit origin turnId originEpoch
    · exact move_unseen rfl rfl (List.Sublist.refl _)
  | resumeEmission id searchDone =>
    rw [step]
    generalize s.emissions.find? (fun emission => decide (emission.id = id)) = found
    rcases found with _ | emission
    · exact move_unseen rfl rfl (List.Sublist.refl _)
    · exact move_resumeEmission emission searchDone
  | cancelEmission id => exact move_unseen rfl rfl (List.Sublist.refl _)
  | runAdmission id => exact move_taskAt fun task hmem hpoint => move_runAdmission hmem hpoint
  | returned id admitted =>
    refine move_taskAt fun task hmem _ => ?_
    cases admitted
    · exact move_retryOrAbandon hmem false
    · exact move_unseen rfl rfl List.filter_sublist
  | raised id => exact move_taskAt fun task hmem _ => move_retryOrAbandon hmem true
  | wake id =>
    exact move_taskAt fun task hmem hpoint => .wake task _ hmem hpoint rfl rfl rfl rfl rfl rfl
  | cancelAdmission id => exact move_unseen rfl rfl List.filter_sublist
  | onAckTerminal turnId =>
    rcases turnId with _ | turnId
    · exact move_unseen rfl rfl (List.Sublist.refl _)
    · exact .idle rfl rfl (List.Sublist.refl _) fun d hd => ⟨_, List.mem_singleton.mp hd⟩
  | settleTurnAck origin turnId cancelAdmitted =>
    refine .idle rfl rfl (List.Sublist.refl _) fun d hd => ?_
    cases cancelAdmitted <;> simp only [step, settleTurnAck, if_true, Bool.false_eq_true, if_false, List.nil_append,
      List.cons_append, List.mem_cons, List.not_mem_nil, or_false] at hd
    · rcases hd with rfl | rfl <;> exact ⟨_, rfl⟩
    · rcases hd with rfl | rfl | rfl <;> exact ⟨_, rfl⟩
  | clearAckLatch turnId =>
    exact .idle rfl rfl (List.Sublist.refl _) fun d hd => ⟨_, List.mem_singleton.mp hd⟩
  | clearAll => exact .clearedAll rfl rfl rfl

end AckChains

/-! ## The table of the newest chains -/

namespace TurnAckLedger

/-- The oldest entries go. -/
theorem entries_evict (d : Dict String ℕ) :
    (evict d).entries = d.entries.drop (d.entries.length - maxAckGenerationTurns) := by
  rw [evict, Dict.entries_foldl_pop_take, Dict.keys, List.length_map]

/-- A claim puts the turn last. -/
theorem entries_claim (d : Dict String ℕ) (turnId : String) (generation : ℕ) :
    ((d.pop turnId).set turnId generation).entries
      = (d.pop turnId).entries ++ [(turnId, generation)] :=
  Dict.write_of_notMem generation fun hmem => by
    obtain ⟨e, he, hkey⟩ := List.mem_map.mp hmem
    have hne := (List.mem_filter.mp he).2
    rw [decide_eq_true_eq] at hne
    exact hne hkey

end TurnAckLedger

/-- The table holds the newest chain of a turn, in the order they were claimed; the turns it misses were
claimed before all it holds, and then it is full. -/
structure Tracks (table : Dict String ℕ) (chains : List AckChain) : Prop where
  sorted : table.entries.Pairwise fun e e' => e.2 < e'.2
  claimed : ∀ e ∈ table.entries, ⟨e.1, e.2⟩ ∈ chains
  kept : ∀ c ∈ chains, (∃ g, (c.turnId, g) ∈ table.entries ∧ c.generation ≤ g) ∨
    maxAckGenerationTurns ≤ table.entries.length ∧ ∀ e ∈ table.entries, c.generation < e.2

theorem tracks_nil : Tracks ∅ [] where
  sorted := List.Pairwise.nil
  claimed := fun _ he => absurd he List.not_mem_nil
  kept := fun _ hc => absurd hc List.not_mem_nil

/-- **The table keeps track of a claim.** -/
theorem Tracks.claim {l : TurnAckLedger} {chains : List AckChain} (h : Tracks l.admissionGeneration chains)
    (hle : ∀ c ∈ chains, c.generation ≤ l.generationSequence) (turnId : String) :
    Tracks (l.claimGeneration turnId).1.admissionGeneration
      (chains ++ [⟨turnId, l.generationSequence + 1⟩]) := by
  have hothers : ∀ {e}, e ∈ (l.admissionGeneration.pop turnId).entries ↔
      e ∈ l.admissionGeneration.entries ∧ e.1 ≠ turnId := fun {e} => by
    rw [Dict.pop, List.mem_filter, decide_eq_true_eq]
  have hsize : l.admissionGeneration.entries.length ≤
      (l.admissionGeneration.pop turnId).entries.length + 1 := by
    have hpop := l.admissionGeneration.length_keys_pop turnId
    rw [Dict.keys, Dict.keys, List.length_map, List.length_map] at hpop
    cases hget : l.admissionGeneration.get? turnId <;> rw [hget] at hpop <;> simp at hpop <;> omega
  have hsorted : (l.admissionGeneration.pop turnId).entries.Pairwise fun e e' => e.2 < e'.2 :=
    h.sorted.sublist List.filter_sublist
  -- the entries after the claim: what is dropped, what stays, and the turn that claims
  have hentries : (l.claimGeneration turnId).1.admissionGeneration.entries
      = (l.admissionGeneration.pop turnId).entries.drop
          ((l.admissionGeneration.pop turnId).entries.length + 1 - maxAckGenerationTurns)
        ++ [(turnId, l.generationSequence + 1)] := by
    rw [TurnAckLedger.claimGeneration, TurnAckLedger.entries_evict, TurnAckLedger.entries_claim,
      List.length_append, List.length_singleton, List.drop_append_of_le_length]
    rw [maxAckGenerationTurns]
    omega
  generalize (l.admissionGeneration.pop turnId).entries = others at hothers hsize hsorted hentries
  have hbound : ∀ e ∈ others, e.2 < l.generationSequence + 1 := fun e he =>
    Nat.lt_succ_of_le (hle _ (h.claimed e (hothers.mp he).1))
  constructor
  · rw [hentries, List.pairwise_append]
    refine ⟨hsorted.sublist (List.drop_sublist _ _), List.pairwise_singleton _ _, fun e he e' he' => ?_⟩
    rw [List.mem_singleton.mp he']
    exact hbound e (List.mem_of_mem_drop he)
  · intro e he
    rw [hentries, List.mem_append, List.mem_singleton] at he
    rcases he with he | rfl
    · exact List.mem_append_left _ (h.claimed e (hothers.mp (List.mem_of_mem_drop he)).1)
    · exact List.mem_append_right _ (List.mem_singleton_self _)
  · intro c hc
    rw [hentries]
    by_cases hturn : c.turnId = turnId
    · refine .inl ⟨l.generationSequence + 1, ?_, ?_⟩
      · rw [hturn]
        exact List.mem_append_right _ (List.mem_singleton_self _)
      · rcases List.mem_append.mp hc with hc | hc
        · exact Nat.le_succ_of_le (hle c hc)
        · rw [List.mem_singleton.mp hc]
    · have hc : c ∈ chains := by
        rcases List.mem_append.mp hc with hc | hc
        · exact hc
        · exact absurd (congrArg AckChain.turnId (List.mem_singleton.mp hc)) hturn
      rcases h.kept c hc with ⟨g, hg, hcg⟩ | ⟨hfull, hlater⟩
      · have hmem := hothers.mpr ⟨hg, hturn⟩
        rw [← List.take_append_drop (others.length + 1 - maxAckGenerationTurns) others, List.mem_append] at hmem
        rcases hmem with hout | hin
        · -- the entry is evicted: all that stays was claimed later
          refine .inr ⟨?_, fun e he => ?_⟩
          · have hpos : 0 < others.length + 1 - maxAckGenerationTurns := by
              rcases Nat.eq_zero_or_pos (others.length + 1 - maxAckGenerationTurns) with h0 | hpos
              · rw [h0, List.take_zero] at hout
                exact absurd hout List.not_mem_nil
              · exact hpos
            rw [List.length_append, List.length_drop, List.length_singleton]
            omega
          · refine Nat.lt_of_le_of_lt hcg ?_
            rcases List.mem_append.mp he with he | he
            · rw [← List.take_append_drop (others.length + 1 - maxAckGenerationTurns) others,
                List.pairwise_append] at hsorted
              exact hsorted.2.2 _ hout e he
            · rw [List.mem_singleton.mp he]
              exact hbound _ (List.mem_of_mem_take hout)
        · exact .inl ⟨g, List.mem_append_left _ hin, hcg⟩
      · refine .inr ⟨?_, fun e he => ?_⟩
        · rw [List.length_append, List.length_drop, List.length_singleton]
          omega
        · rcases List.mem_append.mp he with he | he
          · exact hlater e (hothers.mp (List.mem_of_mem_drop he)).1
          · rw [List.mem_singleton.mp he]
            exact Nat.lt_succ_of_le (hle c hc)

/-! ## The ledger over a run -/

/-- The ledger, and everything it has done. -/
structure AckChronicle where
  chains : AckChains
  log : List AckDeed := []

namespace AckChronicle

/-- One step, on record. -/
def step (w : AckChronicle) (e : AckChains.Event) : AckChronicle :=
  ⟨(w.chains.step e).1, w.log ++ (w.chains.step e).2⟩

/-- Fewer than `_MAX_ACK_GENERATION_TURNS` other turns have claimed a chain since a pending one did. -/
def Uncrowded (w : AckChronicle) : Prop :=
  ∀ task ∈ w.chains.admissions, (rivals w.log task.chain).card < maxAckGenerationTurns

instance (w : AckChronicle) : Decidable w.Uncrowded := inferInstanceAs (Decidable (∀ task ∈ _, _))

/-- A chain has called `start_next` once for each attempt before this one, and for this one unless it is
yet to run. -/
def Quota (log : List AckDeed) (task : OriginAdmission) : Prop :=
  startNextCalls log task.chain + (if task.point = .scheduled then 1 else 0) ≤ task.attempt ∧
    task.attempt ≤ ackAdmissionMaxAttempts ∧
    (task.point = .sleeping → task.attempt < ackAdmissionMaxAttempts)

/-- What holds of the ledger and its log, crowded or not. -/
structure Sound (w : AckChronicle) : Prop where
  claimed_le : ∀ c ∈ claimedChains w.log, c.generation ≤ w.chains.ledger.generationSequence
  increasing : ((claimedChains w.log).map AckChain.generation).Pairwise (· < ·)
  recent : ∀ c ∈ recentChains w.log, c ∈ claimedChains w.log
  tracks : Tracks w.chains.ledger.admissionGeneration (recentChains w.log)
  one_task : (w.chains.admissions.map (·.generation)).Nodup
  task_le : ∀ task ∈ w.chains.admissions, task.generation ≤ w.chains.ledger.generationSequence
  calls_le : ∀ c, startNextCalls w.log c ≤ ackAdmissionMaxAttempts
  calls_new : ∀ c, w.chains.ledger.generationSequence < c.generation → startNextCalls w.log c = 0
  quota : ∀ task ∈ w.chains.admissions, Quota w.log task

theorem sound_fresh (view : AckView) : Sound ⟨{ view }, []⟩ where
  claimed_le := fun _ hc => absurd hc List.not_mem_nil
  increasing := List.Pairwise.nil
  recent := fun _ hc => absurd hc List.not_mem_nil
  tracks := tracks_nil
  one_task := List.nodup_nil
  task_le := fun _ ht => absurd ht List.not_mem_nil
  calls_le := fun _ => Nat.zero_le _
  calls_new := fun _ _ => rfl
  quota := fun _ ht => absurd ht List.not_mem_nil

/-! ### Deeds on the log -/

theorem claimedChains_append (log ds : List AckDeed) :
    claimedChains (log ++ ds) = claimedChains log ++ claimedChains ds := List.filterMap_append

theorem startNextCalls_append (log ds : List AckDeed) (c : AckChain) :
    startNextCalls (log ++ ds) c = startNextCalls log c + startNextCalls ds c := List.countP_append

theorem recentChains_append (log ds : List AckDeed) :
    recentChains (log ++ ds) = ds.foldl AckDeed.tally (recentChains log) := List.foldl_append

variable {log ds : List AckDeed} {actor : Option AckChain}

theorem claimedChains_did (hds : ∀ d ∈ ds, ∃ effect, d = .did actor effect) : claimedChains ds = [] :=
  List.filterMap_eq_nil_iff.mpr fun d hd => by
    obtain ⟨effect, rfl⟩ := hds d hd
    rfl

theorem recentChains_did (hds : ∀ d ∈ ds, ∃ effect, d = .did actor effect) :
    recentChains (log ++ ds) = recentChains log := by
  induction ds using List.reverseRecOn with
  | nil => rw [List.append_nil]
  | append_singleton ds d ih =>
    obtain ⟨effect, rfl⟩ := hds d (List.mem_append_right _ (List.mem_singleton_self d))
    rw [← List.append_assoc, recentChains_append,
      ih fun d hd => hds d (List.mem_append_left _ hd)]
    rfl

theorem startNextCalls_did {c : AckChain} (hds : ∀ d ∈ ds, ∃ effect, d = .did actor effect)
    (hc : actor ≠ some c) : startNextCalls ds c = 0 :=
  List.countP_eq_zero.mpr fun d hd hstarts => by
    obtain ⟨effect, rfl⟩ := hds d hd
    cases actor with
    | none => cases hstarts
    | some c' =>
      cases effect <;> try cases hstarts
      exact hc (congrArg some (of_decide_eq_true hstarts))

/-! ### One step -/

variable {w : AckChronicle} {s' : AckChains}

/-- Nothing is claimed and the table stays: what is left to see to are the tasks and their calls. -/
theorem Sound.unclaimed (h : Sound w) (htable : s'.ledger.admissionGeneration = w.chains.ledger.admissionGeneration)
    (hseq : s'.ledger.generationSequence = w.chains.ledger.generationSequence)
    (hds : ∀ d ∈ ds, ∃ effect, d = .did actor effect)
    (hone : (s'.admissions.map (·.generation)).Nodup)
    (hle : ∀ task ∈ s'.admissions, task.generation ≤ w.chains.ledger.generationSequence)
    (hcalls : ∀ c, startNextCalls (w.log ++ ds) c ≤ ackAdmissionMaxAttempts)
    (hnew : ∀ c, w.chains.ledger.generationSequence < c.generation → startNextCalls (w.log ++ ds) c = 0)
    (hquota : ∀ task ∈ s'.admissions, Quota (w.log ++ ds) task) : Sound ⟨s', w.log ++ ds⟩ := by
  have hclaimed : claimedChains (w.log ++ ds) = claimedChains w.log := by
    rw [claimedChains_append, claimedChains_did hds, List.append_nil]
  have hrecent : recentChains (w.log ++ ds) = recentChains w.log := recentChains_did hds
  constructor
  · rw [hclaimed, hseq]
    exact h.claimed_le
  · rw [hclaimed]
    exact h.increasing
  · rw [hclaimed, hrecent]
    exact h.recent
  · rw [hrecent, htable]
    exact h.tracks
  · exact hone
  · rw [hseq]
    exact hle
  · exact hcalls
  · rw [hseq]
    exact hnew
  · exact hquota

theorem Quota.quiet {task : OriginAdmission} (h : Quota log task) (hds : startNextCalls ds task.chain = 0) :
    Quota (log ++ ds) task := by
  rw [Quota, startNextCalls_append, hds, Nat.add_zero]
  exact h

/-- Nobody acts for a chain. -/
theorem Sound.idle (h : Sound w) (htable : s'.ledger.admissionGeneration = w.chains.ledger.admissionGeneration)
    (hseq : s'.ledger.generationSequence = w.chains.ledger.generationSequence)
    (htasks : List.Sublist s'.admissions w.chains.admissions)
    (hds : ∀ d ∈ ds, ∃ effect, d = .did none effect) : Sound ⟨s', w.log ++ ds⟩ := by
  have hquiet : ∀ c, startNextCalls ds c = 0 := fun c => startNextCalls_did hds nofun
  refine h.unclaimed htable hseq hds (h.one_task.sublist (htasks.map _))
    (fun task ht => h.task_le task (htasks.subset ht)) (fun c => ?_) (fun c hc => ?_)
    fun task ht => (h.quota task (htasks.subset ht)).quiet (hquiet _)
  · rw [startNextCalls_append, hquiet]
    exact h.calls_le c
  · rw [startNextCalls_append, hquiet]
    exact h.calls_new c hc

/-- The tasks of the other chains. -/
theorem Sound.ne_of_mem_forget (h : Sound w) {task other : OriginAdmission} (hmem : task ∈ w.chains.admissions)
    (hother : other ∈ (w.chains.forget task.id).admissions) : other.generation ≠ task.generation := by
  obtain ⟨hother, hid⟩ := List.mem_filter.mp hother
  intro heq
  rw [List.inj_on_of_nodup_map h.one_task hother hmem heq] at hid
  exact of_decide_eq_true hid rfl

/-- A task goes on as another one of its chain. -/
theorem Sound.succeed (h : Sound w) {task next : OriginAdmission} (hmem : task ∈ w.chains.admissions)
    (hchain : next.chain = task.chain) :
    (((w.chains.forget task.id).admissions ++ [next]).map (·.generation)).Nodup := by
  have hgeneration : next.generation = task.generation := congrArg AckChain.generation hchain
  rw [List.map_append, List.map_singleton, hgeneration, List.nodup_append]
  refine ⟨h.one_task.sublist (List.filter_sublist.map _), List.nodup_singleton _, fun g hg g' hg' => ?_⟩
  obtain ⟨other, hother, rfl⟩ := List.mem_map.mp hg
  rw [List.mem_singleton.mp hg']
  exact h.ne_of_mem_forget hmem hother

/-- A chain acts that has its quota of calls. -/
theorem Sound.acts (h : Sound w) {task : OriginAdmission} (hmem : task ∈ w.chains.admissions)
    (htable : s'.ledger.admissionGeneration = w.chains.ledger.admissionGeneration)
    (hseq : s'.ledger.generationSequence = w.chains.ledger.generationSequence)
    (hds : ∀ d ∈ ds, ∃ effect, d = .did (some task.chain) effect)
    (hcalls : startNextCalls (w.log ++ ds) task.chain ≤ ackAdmissionMaxAttempts)
    (hnext : s'.admissions = (w.chains.forget task.id).admissions ∨
      ∃ next : OriginAdmission, s'.admissions = (w.chains.forget task.id).admissions ++ [next] ∧
        next.chain = task.chain ∧ Quota (w.log ++ ds) next) : Sound ⟨s', w.log ++ ds⟩ := by
  have hquiet : ∀ c, c ≠ task.chain → startNextCalls ds c = 0 := fun c hc =>
    startNextCalls_did hds fun heq => hc (Option.some.inj heq).symm
  have hothers : ∀ other ∈ (w.chains.forget task.id).admissions, Quota (w.log ++ ds) other := fun other hother =>
    (h.quota other (List.mem_of_mem_filter hother)).quiet (hquiet _ fun heq =>
      h.ne_of_mem_forget hmem hother (congrArg AckChain.generation heq))
  have hnew : ∀ c, w.chains.ledger.generationSequence < c.generation →
      startNextCalls (w.log ++ ds) c = 0 := fun c hc => by
    have hne : c ≠ task.chain := fun heq => by
      have hle := h.task_le task hmem
      rw [heq] at hc
      exact absurd hle (Nat.not_le_of_lt hc)
    rw [startNextCalls_append, hquiet c hne]
    exact h.calls_new c hc
  have hall : ∀ c, startNextCalls (w.log ++ ds) c ≤ ackAdmissionMaxAttempts := fun c => by
    by_cases hc : c = task.chain
    · rw [hc]
      exact hcalls
    · rw [startNextCalls_append, hquiet c hc]
      exact h.calls_le c
  rcases hnext with htasks | ⟨next, htasks, hchain, hquota⟩
  · refine h.unclaimed htable hseq hds ?_ (fun other hother => ?_) hall hnew fun other hother => ?_
    · rw [htasks]
      exact h.one_task.sublist (List.filter_sublist.map _)
    · rw [htasks] at hother
      exact h.task_le other (List.mem_of_mem_filter hother)
    · rw [htasks] at hother
      exact hothers other hother
  · refine h.unclaimed htable hseq hds ?_ (fun other hother => ?_) hall hnew fun other hother => ?_
    · rw [htasks]
      exact h.succeed hmem hchain
    · rw [htasks, List.mem_append, List.mem_singleton] at hother
      rcases hother with hother | rfl
      · exact h.task_le other (List.mem_of_mem_filter hother)
      · rw [show other.generation = task.generation from congrArg AckChain.generation hchain]
        exact h.task_le task hmem
    · rw [htasks, List.mem_append, List.mem_singleton] at hother
      rcases hother with hother | rfl
      · exact hothers other hother
      · exact hquota

/-- A turn claims a chain. -/
theorem Sound.claim (h : Sound w) {effect effect' : AckEffect} {task : OriginAdmission}
    (htable : s'.ledger.admissionGeneration
      = (w.chains.ledger.claimGeneration task.turnId).1.admissionGeneration)
    (hseq : s'.ledger.generationSequence = w.chains.ledger.generationSequence + 1)
    (htasks : s'.admissions = w.chains.admissions ++ [task])
    (hgeneration : task.generation = w.chains.ledger.generationSequence + 1) (hattempt : task.attempt = 1) :
    Sound ⟨s', w.log ++ [.did none effect, .did none effect', .claimed task.chain]⟩ := by
  have hchain : task.chain = ⟨task.turnId, w.chains.ledger.generationSequence + 1⟩ := by
    rw [OriginAdmission.chain, hgeneration]
  have hclaimed : claimedChains (w.log ++ [.did none effect, .did none effect', .claimed task.chain])
      = claimedChains w.log ++ [task.chain] := by
    rw [claimedChains_append]
    rfl
  have hrecent : recentChains (w.log ++ [.did none effect, .did none effect', .claimed task.chain])
      = recentChains w.log ++ [task.chain] := by
    rw [recentChains_append]
    rfl
  have hquiet : ∀ c, startNextCalls
      (w.log ++ [.did none effect, .did none effect', .claimed task.chain]) c = startNextCalls w.log c :=
    fun c => by
      rw [startNextCalls_append]
      rfl
  constructor
  · intro c hc
    rw [hclaimed, List.mem_append, List.mem_singleton] at hc
    rw [hseq]
    rcases hc with hc | rfl
    · exact Nat.le_succ_of_le (h.claimed_le c hc)
    · exact Nat.le_of_eq hgeneration
  · rw [hclaimed, List.map_append, List.pairwise_append]
    refine ⟨h.increasing, List.pairwise_singleton _ _, fun g hg g' hg' => ?_⟩
    obtain ⟨c, hc, rfl⟩ := List.mem_map.mp hg
    rw [List.mem_singleton.mp hg', OriginAdmission.chain, hgeneration]
    exact Nat.lt_succ_of_le (h.claimed_le c hc)
  · intro c hc
    rw [hrecent, List.mem_append] at hc
    rw [hclaimed, List.mem_append]
    exact hc.imp_left (h.recent c)
  · rw [hrecent, htable, hchain]
    exact h.tracks.claim (fun c hc => h.claimed_le c (h.recent c hc)) task.turnId
  · rw [htasks, List.map_append, List.nodup_append]
    refine ⟨h.one_task, List.nodup_singleton _, fun g hg g' hg' heq => ?_⟩
    obtain ⟨other, hother, rfl⟩ := List.mem_map.mp hg
    have hle : other.generation ≤ w.chains.ledger.generationSequence := h.task_le other hother
    have heq : other.generation = task.generation := heq.trans (List.mem_singleton.mp hg')
    rw [heq, hgeneration] at hle
    exact Nat.not_succ_le_self _ hle
  · intro other hother
    rw [htasks, List.mem_append, List.mem_singleton] at hother
    rw [hseq]
    rcases hother with hother | rfl
    · exact Nat.le_succ_of_le (h.task_le other hother)
    · exact Nat.le_of_eq hgeneration
  · intro c
    rw [hquiet]
    exact h.calls_le c
  · intro c hc
    rw [hquiet]
    rw [hseq] at hc
    exact h.calls_new c (Nat.lt_of_succ_lt hc)
  · intro other hother
    rw [htasks, List.mem_append, List.mem_singleton] at hother
    rw [Quota, hquiet]
    rcases hother with hother | rfl
    · exact h.quota other hother
    · have hnone : startNextCalls w.log other.chain = 0 := h.calls_new _ (by
        rw [OriginAdmission.chain, hgeneration]
        exact Nat.lt_succ_self _)
      rw [hnone, hattempt, ackAdmissionMaxAttempts]
      refine ⟨?_, by omega, fun _ => by omega⟩
      split_ifs <;> omega

/-- The table is forgotten. -/
theorem Sound.clearedAll (h : Sound w) (htable : s'.ledger.admissionGeneration = ∅)
    (hseq : s'.ledger.generationSequence = w.chains.ledger.generationSequence)
    (htasks : s'.admissions = w.chains.admissions) : Sound ⟨s', w.log ++ [.clearedAll]⟩ := by
  have hclaimed : claimedChains (w.log ++ [.clearedAll]) = claimedChains w.log := by
    rw [claimedChains_append]
    exact List.append_nil _
  have hrecent : recentChains (w.log ++ [.clearedAll]) = [] := by
    rw [recentChains_append]
    rfl
  have hquiet : ∀ c, startNextCalls (w.log ++ [.clearedAll]) c = startNextCalls w.log c := fun c => by
    rw [startNextCalls_append]
    rfl
  constructor
  · rw [hclaimed, hseq]
    exact h.claimed_le
  · rw [hclaimed]
    exact h.increasing
  · rw [hrecent]
    exact fun c hc => absurd hc List.not_mem_nil
  · rw [hrecent, htable]
    exact tracks_nil
  · rw [htasks]
    exact h.one_task
  · rw [htasks, hseq]
    exact h.task_le
  · intro c
    rw [hquiet]
    exact h.calls_le c
  · intro c hc
    rw [hquiet]
    exact h.calls_new c (hseq ▸ hc)
  · intro task ht
    rw [htasks] at ht
    rw [Quota, hquiet]
    exact h.quota task ht

/-- **What holds of the ledger and its log, a step keeps.** -/
theorem Sound.step (h : Sound w) (e : AckChains.Event) : Sound (w.step e) := by
  have hmove := AckChains.move_step (s := w.chains) e
  rw [AckChronicle.step]
  generalize w.chains.step e = r at hmove
  obtain ⟨s', ds⟩ := r
  dsimp only at hmove ⊢
  cases hmove with
  | idle htable hseq htasks hds => exact h.idle htable hseq htasks hds
  | claim turnId task htable hseq htasks hturn hgeneration hattempt =>
    subst hturn
    exact h.claim htable hseq htasks hgeneration hattempt
  | clearedAll htable hseq htasks => exact h.clearedAll htable hseq htasks
  | acts task hmem hnewest htable hseq hds hnext =>
    obtain ⟨hdue, hattempt, -⟩ := h.quota task hmem
    rcases hnext with ⟨htasks, hcalls⟩ | ⟨next, htasks, hchain, hsame, ⟨hpoint, hnext, hcalls⟩ | ⟨hnext, hlt, hcalls⟩⟩
    · refine h.acts hmem htable hseq hds ?_ (.inl htasks)
      rw [startNextCalls_append, hcalls]
      exact h.calls_le _
    · rw [if_pos hpoint] at hdue
      refine h.acts hmem htable hseq hds ?_ (.inr ⟨next, htasks, hchain, ?_, ?_, ?_⟩)
      · rw [startNextCalls_append, hcalls]
        exact Nat.le_trans hdue hattempt
      · rw [startNextCalls_append, hchain, hcalls, hsame, hnext]
        exact hdue
      · rw [hsame]
        exact hattempt
      · rw [hnext]
        exact nofun
    · refine h.acts hmem htable hseq hds ?_ (.inr ⟨next, htasks, hchain, ?_, ?_, ?_⟩)
      · rw [startNextCalls_append, hcalls]
        exact h.calls_le _
      · rw [startNextCalls_append, hchain, hcalls, hsame, hnext]
        exact Nat.le_trans (Nat.le_add_right _ _) hdue
      · rw [hsame]
        exact hattempt
      · rw [hsame]
        exact fun _ => hlt
  | wake task next hmem hpoint htable hseq htasks hchain hattempt hnext =>
    obtain ⟨hdue, -, hlt⟩ := h.quota task hmem
    rw [hpoint] at hdue
    refine h.acts hmem htable hseq (fun d hd => absurd hd List.not_mem_nil) ?_
      (.inr ⟨next, htasks, hchain, ?_, ?_, ?_⟩)
    · rw [List.append_nil]
      exact h.calls_le _
    · rw [List.append_nil, hchain, hattempt, hnext]
      exact Nat.succ_le_succ hdue
    · rw [hattempt]
      exact hlt hpoint
    · rw [hnext]
      exact nofun

/-! ### Inertia -/

/-- A chain that acts is the newest its turn has claimed since the last `clear_all`. -/
def Inert (log : List AckDeed) : Prop :=
  ∀ before after c effect, log = before ++ AckDeed.did (some c) effect :: after →
    ∀ k ∈ recentChains before, k.turnId = c.turnId → k.generation ≤ c.generation

/-- A pending chain that no newer one is seen to supersede has no newer one. -/
theorem Sound.newest (h : Sound w) (hun : w.Uncrowded) {task : OriginAdmission}
    (hmem : task ∈ w.chains.admissions)
    (hsup : w.chains.ledger.superseded task.turnId task.generation = false) {k : AckChain}
    (hk : k ∈ recentChains w.log) (hturn : k.turnId = task.turnId) : k.generation ≤ task.generation := by
  by_contra hnewer
  rw [Nat.not_le] at hnewer
  rcases h.tracks.kept k hk with ⟨g, hg, hkg⟩ | ⟨hfull, hlater⟩
  · -- the table holds a newer chain of the turn
    rw [hturn] at hg
    rw [TurnAckLedger.superseded, Dict.get?_eq_some_iff.mpr hg] at hsup
    have heq : g = task.generation := by simpa using hsup
    omega
  · -- the turn was evicted: a full table of other turns has claimed since
    refine absurd (hun task hmem) (Nat.not_lt_of_le (Nat.le_trans hfull ?_))
    have hget : w.chains.ledger.admissionGeneration.get? task.turnId = none := by
      rcases hget : w.chains.ledger.admissionGeneration.get? task.turnId with _ | g
      · rfl
      · rw [TurnAckLedger.superseded, hget] at hsup
        have heq : g = task.generation := by simpa using hsup
        have hlt := hlater _ (Dict.get?_eq_some_iff.mp hget)
        omega
    have hkeys := Dict.length_keys_le (d := w.chains.ledger.admissionGeneration)
      (K := rivals w.log task.chain) fun turnId hsome => by
        obtain ⟨g, hg⟩ := Option.isSome_iff_exists.mp hsome
        have hentry := Dict.get?_eq_some_iff.mp hg
        rw [rivals, List.mem_toFinset]
        refine List.mem_map.mpr ⟨⟨turnId, g⟩, List.mem_filter.mpr
          ⟨h.recent _ (h.tracks.claimed _ hentry), decide_eq_true ⟨?_, fun heq => ?_⟩⟩, rfl⟩
        · exact Nat.lt_trans hnewer (hlater _ hentry)
        · rw [show turnId = task.turnId from heq, hget] at hg
          cases hg
    rw [Dict.keys, List.length_map] at hkeys
    exact hkeys

/-- Deeds that are no chain's, or those of a chain that is the newest of its turn. -/
theorem Inert.append (h : Inert log) (hds : ∀ before after c effect,
    ds = before ++ AckDeed.did (some c) effect :: after →
      ∀ k ∈ recentChains (log ++ before), k.turnId = c.turnId → k.generation ≤ c.generation) :
    Inert (log ++ ds) := by
  intro before after c effect heq
  rcases List.append_eq_append_iff.mp heq with ⟨before', hbefore, hds'⟩ | ⟨after', hlog, hafter⟩
  · rw [hbefore]
    exact hds before' after c effect hds'
  · cases after' with
    | nil =>
      rw [List.append_nil] at hlog
      rw [← hlog, ← List.append_nil log]
      exact hds [] after c effect hafter.symm
    | cons d after' =>
      rw [List.cons_append, List.cons.injEq] at hafter
      rw [← hafter.1] at hlog
      exact h before after' c effect hlog

theorem Inert.step (h : Inert w.log) (hs : Sound w) (hun : w.Uncrowded) (e : AckChains.Event) :
    Inert (w.step e).log := by
  have hmove := AckChains.move_step (s := w.chains) e
  rw [AckChronicle.step]
  generalize w.chains.step e = r at hmove
  obtain ⟨s', ds⟩ := r
  dsimp only at hmove ⊢
  refine h.append fun before after c effect heq => ?_
  have hmem : AckDeed.did (some c) effect ∈ ds := by
    rw [heq]
    exact List.mem_append_right _ List.mem_cons_self
  cases hmove with
  | idle htable hseq htasks hds =>
    obtain ⟨_, hd⟩ := hds _ hmem
    cases hd
  | claim turnId task => simp at hmem
  | clearedAll => simp at hmem
  | acts task hpending hnewest htable hseq hds hnext =>
    obtain ⟨_, hd⟩ := hds _ hmem
    cases hd
    intro k hk hturn
    rw [recentChains_did fun d hd => hds d (by rw [heq]; exact List.mem_append_left _ hd)] at hk
    exact hs.newest hun hpending hnewest hk hturn
  | wake => cases hmem

/-- **Superseded acknowledgement chains are inert**: over every run of a ledger in which fewer than
`_MAX_ACK_GENERATION_TURNS` other turns claim a chain while one is pending, the generations handed out
increase strictly, a chain that calls `start_next`, files or discards an acknowledgement or touches a latch
is the newest its turn has claimed since the last `clear_all`, and no chain calls `start_next` more than
`_ACK_ADMISSION_MAX_ATTEMPTS` times. -/
theorem superseded_chains_inert (view : AckView) (es : List AckChains.Event)
    (hun : Guarded step (fun w _ => w.Uncrowded) ⟨{ view }, []⟩ es) :
    ((claimedChains (run step ⟨{ view }, []⟩ es).log).map AckChain.generation).Pairwise (· < ·) ∧
      Inert (run step ⟨{ view }, []⟩ es).log ∧
      ∀ c, startNextCalls (run step ⟨{ view }, []⟩ es).log c ≤ ackAdmissionMaxAttempts := by
  have hrun := run_invariant (I := fun w => Sound w ∧ Inert w.log) (fun w e h hun =>
    ⟨h.1.step e, h.2.step h.1 hun e⟩)
    ⟨sound_fresh view, fun before after c effect heq => by simp at heq⟩ hun
  exact ⟨hrun.1.increasing, hrun.2, hrun.1.calls_le⟩

/-- A turn whose first chain finds the transport busy, whose latch is cleared, and that claims a second
chain while the first one sleeps. -/
def reclaimed : List AckChains.Event :=
  [.emitEarlyAck 0 "turn-1" 0 false false, .runAdmission 0, .returned 0 false, .clearAckLatch "turn-1",
    .emitEarlyAck 0 "turn-1" 0 false false, .wake 1, .runAdmission 3, .runAdmission 2]

/-- Of the two chains, only the second calls `start_next` after it has been claimed. -/
theorem superseded_chains_inert_reclaimed :
    Guarded step (fun w _ => w.Uncrowded) ⟨{ view := { connection := some 0 } }, []⟩ reclaimed ∧
      claimedChains (run step ⟨{ view := { connection := some 0 } }, []⟩ reclaimed).log
        = [⟨"turn-1", 1⟩, ⟨"turn-1", 2⟩] ∧
      startNextCalls (run step ⟨{ view := { connection := some 0 } }, []⟩ reclaimed).log ⟨"turn-1", 1⟩ = 1 ∧
      startNextCalls (run step ⟨{ view := { connection := some 0 } }, []⟩ reclaimed).log ⟨"turn-1", 2⟩ = 1 ∧
      Inert (run step ⟨{ view := { connection := some 0 } }, []⟩ reclaimed).log := by
  have hun : Guarded step (fun w _ => w.Uncrowded) ⟨{ view := { connection := some 0 } }, []⟩ reclaimed := by
    decide +kernel
  exact ⟨hun, by decide +kernel, by decide +kernel, by decide +kernel, (superseded_chains_inert _ _ hun).2.1⟩

end AckChronicle

end SubagentsLab

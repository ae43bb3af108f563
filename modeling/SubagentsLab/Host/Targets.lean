import SubagentsLab.Host.Cancellation
import SubagentsLab.Turn.Serving

/-!
# Host/Targets — a cancellation hits what it names

An acknowledgement stands under the key of its turn, and nothing else does (`Tagged`); children have keys of
their own.  So the cancellation of a child takes the speech of that child, tells the ledger of nothing, and
settles the acknowledgement of its turn exactly if no other child is alive (`remaining_eq_empty_iff`); and
once an acknowledgement is settled, no chain of retries can bring one back, because the turn is not served
any more (`Serves`).

Two things are not as one would have them.  Without a connection, the latch of the turn is cleared whatever
is left of it; and the coordinator is asked to cancel everything, with no exception (`cancel_misses`).
-/

namespace SubagentsLab

open Machinery

/-! ## Speech under a key -/

namespace SpeechScheduler

variable {cfg : LifecycleConfig} {s s' : SpeechScheduler} {key : String}

/-- What stands under the key is the same. -/
structure Same (key : String) (s s' : SpeechScheduler) : Prop where
  lane : s'.queues.lane key = s.queues.lane key
  paused : s'.paused.get? key = s.paused.get? key
  leased : ∀ lease : UtteranceLease, lease.item.workItemId = key → (s'.active = some lease ↔ s.active = some lease)

theorem Same.trans {s'' : SpeechScheduler} (h : Same key s s') (h' : Same key s' s'') : Same key s s'' where
  lane := h'.lane.trans h.lane
  paused := h'.paused.trans h.paused
  leased := fun lease hkey => (h'.leased lease hkey).trans (h.leased lease hkey)

/-- Nothing stands under the key. -/
structure Vacant (key : String) (s : SpeechScheduler) : Prop where
  lane : s.queues.lane key = []
  paused : s.paused.get? key = none
  idle : ∀ lease, s.active = some lease → lease.item.workItemId ≠ key

theorem vacant_iff_stands : Vacant key s ↔ Stands (fun k _ => k ≠ key) s := by
  constructor
  · refine fun h => ⟨fun item hi hkey => ?_, h.idle, fun k item hget hkey => ?_⟩
    · have hlane := Lanes.mem_items.mp hi
      rw [hkey, h.lane] at hlane
      exact List.not_mem_nil hlane
    · rw [hkey, h.paused] at hget
      cases hget
  · refine fun h => ⟨List.eq_nil_iff_forall_not_mem.mpr fun item hi => ?_, ?_, h.leased⟩
    · have hkey : item.workItemId = key := Lanes.key_of_mem_lane hi
      refine h.queued item (Lanes.mem_items.mpr ?_) hkey
      rw [hkey]
      exact hi
    · rcases hget : s.paused.get? key with _ | item
      · rfl
      · exact absurd rfl (h.paused key item hget)

/-- The other keys keep what they have. -/
theorem same_cancel (cfg : LifecycleConfig) (s : SpeechScheduler) {k : String} (hk : key ≠ k) :
    Same key s (s.cancel cfg (some k)).1 := by
  obtain ⟨hqueues, hpaused, hactive⟩ := cancel_some cfg s k
  refine ⟨?_, ?_, fun lease hkey => ?_⟩
  · rw [hqueues, Lanes.lane_pop, if_neg hk]
  · rw [hpaused, Dict.get?_pop, if_neg hk]
  · rw [hactive, Option.filter_eq_some_iff, hkey]
    exact and_iff_left (decide_eq_true hk)

theorem vacant_cancel (cfg : LifecycleConfig) (s : SpeechScheduler) (key : String) :
    Vacant key (s.cancel cfg (some key)).1 := by
  obtain ⟨hqueues, hpaused, hactive⟩ := cancel_some cfg s key
  refine ⟨?_, ?_, fun lease hl => ?_⟩
  · rw [hqueues, Lanes.lane_pop, if_pos rfl]
  · rw [hpaused, Dict.get?_pop, if_pos rfl]
  · rw [hactive, Option.filter_eq_some_iff, decide_eq_true_eq] at hl
    exact hl.2

theorem Vacant.same (h : Vacant key s) (hs : Same key s s') : Vacant key s' := by
  refine ⟨hs.lane.trans h.lane, hs.paused.trans h.paused, fun lease hl hkey => ?_⟩
  exact h.idle lease ((hs.leased lease hkey).mp hl) hkey

/-- Everything that is held is among what `cancel(None)` returns. -/
theorem mem_cancelled_none {item : SpeechItem} (h : item ∈ s.held) : item ∈ s.cancelled none := by
  rw [held, List.mem_append, List.mem_append] at h
  rw [cancelled, List.mem_append, List.mem_append]
  rcases h with (hqueued | hleased) | hpaused
  · have hlane := Lanes.mem_items.mp hqueued
    exact .inl (.inr (List.mem_flatMap.mpr ⟨_, Lanes.mem_keys.mpr (List.ne_nil_of_mem hlane), hlane⟩))
  · refine .inl (.inl ?_)
    rcases hactive : s.active with _ | lease
    · rw [hactive] at hleased
      exact hleased
    · rw [hactive] at hleased
      exact hleased
  · obtain ⟨key, hget⟩ := Dict.mem_values.mp hpaused
    refine .inr (List.mem_flatMap.mpr ⟨key, Dict.mem_keys.mpr (by rw [hget]; rfl), ?_⟩)
    rw [hget]
    exact List.mem_singleton_self _

end SpeechScheduler

/-! ## What the ledger hears of a cancellation -/

namespace AckHost

open SpeechScheduler ConnectionPipeline

variable {cfg : LifecycleConfig} {h : AckHost}

/-- An acknowledgement of a turn is what stands under the turn's key. -/
def Tagged (key : String) (item : SpeechItem) : Prop :=
  ∀ turnId, item.ackOf turnId = true ↔ key = ackWorkItemId turnId

/-- The acknowledgements swept with a key are those of its turn. -/
theorem sweptTurn_cancel {s : SpeechScheduler} (hs : Stands Tagged s) {key turnId : String}
    (hswept : turnId ∈ (s.cancel cfg (some key)).2.filterMap Notice.sweptTurn) : key = ackWorkItemId turnId := by
  obtain ⟨stops, swept, htells, hstops, hunder⟩ := cancel_tells cfg s (some key)
  obtain ⟨n, hn, hturn⟩ := List.mem_filterMap.mp hswept
  rw [htells] at hn
  rcases List.mem_append.mp hn with hn | hn
  · obtain ⟨item, rfl⟩ := hstops n hn
    cases hturn
  · obtain ⟨item, hitem, hn⟩ := List.mem_flatMap.mp hn
    rw [ackSwept] at hn
    split_ifs at hn with hack
    · rw [List.mem_singleton.mp hn] at hturn
      have hof : item.ackOf turnId = true := by
        rw [SpeechItem.ackOf, hack, Bool.true_and]
        exact decide_eq_true hturn
      rcases hunder key rfl item hitem with hlane | hpaused
      · have hkey : item.workItemId = key := Lanes.key_of_mem_lane hlane
        rw [← hkey] at hlane ⊢
        exact (hs.queued item (Lanes.mem_items.mpr hlane) turnId).mp hof
      · exact (hs.paused key item hpaused turnId).mp hof
    · exact absurd hn List.not_mem_nil

theorem allows_tagged : Allows Tagged fun _ => True where
  result := fun _ hproper _ => hproper
  ack := fun turnId item _ hack hturn hkey t => by
    rw [hkey, SpeechItem.ackOf, hack, hturn, Bool.true_and, decide_eq_true_eq, Option.some.injEq]
    exact ackWorkItemId_injective.eq_iff.symm

theorem allows_vacant (turnId : String) :
    Allows (fun key _ => key ≠ ackWorkItemId turnId) (· ≠ turnId) where
  result := fun item hproper hno hkey => by
    have hof := (hproper turnId).mpr hkey
    rw [hno] at hof
    cases hof
  ack := fun t item ht _ _ hkey heq => ht (ackWorkItemId_injective (hkey.symm.trans heq))

end AckHost

/-! ## The host over a run -/

namespace CancelHost

open AckHost SpeechScheduler

variable {cfg : LifecycleConfig} {h h' : CancelHost} {P : String → SpeechItem → Prop} {Q : String → Prop}

theorem cancelSpeech_acks (cfg : LifecycleConfig) (h : CancelHost) (key : Option String) :
    (h.cancelSpeech cfg key).acks = { h.acks with
      pipeline := { h.acks.pipeline with scheduler := (h.scheduler.cancel cfg key).1 }
      ledger := ((h.scheduler.cancel cfg key).2.filterMap Notice.sweptTurn).foldl
        TurnAckLedger.clearAckLatch h.acks.ledger } :=
  foldl_hear_swept (ConnectionPipeline.noAdmission_of_apart (apart_cancel h.scheduler key))

theorem scheduler_cancelSpeech (cfg : LifecycleConfig) (h : CancelHost) (key : Option String) :
    (h.cancelSpeech cfg key).scheduler = (h.scheduler.cancel cfg key).1 := by
  rw [scheduler, cancelSpeech_acks]

theorem mem_latched_cancelSpeech {key : Option String} {turnId : String} :
    turnId ∈ (h.cancelSpeech cfg key).latched ↔
      turnId ∈ h.latched ∧ turnId ∉ (h.scheduler.cancel cfg key).2.filterMap Notice.sweptTurn := by
  rw [latched, cancelSpeech_acks]
  exact TurnAckLedger.mem_foldl_clearAckLatch

/-- The latches of other turns are left alone. -/
theorem latched_cancelSpeech (hs : Stands Tagged h.scheduler) {key turnId : String}
    (hkey : key ≠ ackWorkItemId turnId) :
    turnId ∈ (h.cancelSpeech cfg (some key)).latched ↔ turnId ∈ h.latched := by
  rw [mem_latched_cancelSpeech]
  exact and_iff_left fun hswept => hkey (sweptTurn_cancel hs hswept)

theorem mem_latched_clearAckLatch {turnId : String} {t : Option String} :
    turnId ∈ (h.clearAckLatch t).latched ↔ turnId ∈ h.latched ∧ t ≠ some turnId := by
  cases t with
  | none => exact (and_iff_left nofun).symm
  | some t =>
    change turnId ∈ h.acks.ledger.emittedTurns.filter (fun x => decide (x ≠ t)) ↔ _
    rw [List.mem_filter, decide_eq_true_eq, Ne, Ne, Option.some.injEq, eq_comm]

/-! ### What a step does to the acknowledgements -/

/-- A cancellation clears latches and cancels speech. -/
def sweeps : AckHost.Event → Bool
  | .speech (.cancel _) => true
  | .clearAckLatch _ => true
  | .clearAll => true
  | _ => false

/-- Cancellations preserve `I`. -/
def Swept (cfg : LifecycleConfig) (I : AckHost → Prop) : Prop :=
  ∀ a e, sweeps e = true → I a → I (a.step cfg e).1

variable {I : AckHost → Prop}

theorem Swept.clearAckLatch (hI : Swept cfg I) (h0 : I h.acks) (turnId : Option String) :
    I (h.clearAckLatch turnId).acks := by
  cases turnId with
  | none => exact h0
  | some t => exact hI h.acks (.clearAckLatch t) rfl h0

theorem Swept.cancelSpeech (hI : Swept cfg I) (h0 : I h.acks) (key : Option String) :
    I (h.cancelSpeech cfg key).acks :=
  hI h.acks (.speech (.cancel key)) rfl h0

theorem Swept.clearSwept (hI : Swept cfg I) (h0 : I h.acks) (speech : List SpeechItem) :
    I (h.clearSwept speech).acks :=
  run_invariant_of_step (I := fun h : CancelHost => I h.acks) (fun h item h0 => by
    split_ifs
    · exact hI.clearAckLatch h0 item.turnId
    · exact h0) h0 speech

theorem Swept.settleSole (hI : Swept cfg I) (h0 : I h.acks) (turnId : Option String) (child : String) :
    I (h.settleSole cfg turnId child).acks := by
  cases turnId with
  | none => exact h0
  | some t =>
    rw [CancelHost.settleSole, Option.elim_some]
    split_ifs
    · exact hI.clearAckLatch (hI.cancelSpeech h0 _) (some t)
    · exact h0

theorem Swept.cancelTurnOrChild (hI : Swept cfg I) (h0 : I h.acks) (turnId child : Option String)
    (origin : Bool) (exclude : Option String) :
    I (h.cancelTurnOrChild cfg turnId child origin exclude).1.acks := by
  rw [CancelHost.cancelTurnOrChild]
  split_ifs
  · cases child with
    | none =>
      have hwork : I (h.cancelWork none exclude).1.acks := h0
      exact hI.clearSwept (hI.clearAckLatch (hI.cancelSpeech hwork none) turnId) _
    | some c =>
      have hwork : I (h.cancelWork (some c) exclude).1.acks := h0
      exact hI.settleSole (hI.cancelSpeech hwork (some c)) turnId c
  · exact hI.clearAckLatch h0 turnId

/-- **A step of the host** is a step of its acknowledgements, or sweeps some of them. -/
theorem Swept.step (hI : Swept cfg I) (h0 : I h.acks) {e : Event}
    (hacks : ∀ x, e = .acks x → I (h.acks.step cfg x).1) : I (h.step cfg e).acks := by
  cases e with
  | acks x => exact hacks x rfl
  | releaseTurnWorkItem turnId workItemId =>
    rw [CancelHost.step, CancelHost.releaseTurnWorkItem]
    split
    · exact h0
    · split_ifs
      · exact hI.clearAckLatch h0 (some turnId)
      · exact h0
  | releaseAllTurnWorkItems turnId => exact hI.clearAckLatch h0 (some turnId)
  | submittedDone workItemId task =>
    rw [CancelHost.step]
    split_ifs
    · exact h0
    · exact h0
  | cancelTurnOrChild turnId child origin exclude => exact hI.cancelTurnOrChild h0 turnId child origin exclude
  | clearAll => exact hI h.acks .clearAll rfl h0
  | _ => exact h0

theorem swept_serves (cfg : LifecycleConfig) (ha : Allows P Q) : Swept cfg (Serves P Q) := by
  intro a e he hs
  cases e with
  | speech e =>
    cases e with
    | cancel key => exact hs.step ha rfl fun _ _ _ _ heq => nomatch heq
    | _ => cases he
  | clearAckLatch turnId => exact hs.step ha rfl fun _ _ _ _ heq => nomatch heq
  | clearAll => exact hs.step ha rfl fun _ _ _ _ heq => nomatch heq
  | _ => cases he

theorem swept_prompt (cfg : LifecycleConfig) : Swept cfg Prompt := by
  intro a e he hp
  cases e with
  | speech e => exact hp.step rfl
  | clearAckLatch turnId => exact hp.step rfl
  | clearAll => exact hp.step rfl
  | _ => cases he

/-! ### Reachable hosts -/

/-- Speech is filed as the host files it, and a turn awaits its emissions. -/
def orderly (h : CancelHost) : Event → Bool
  | .acks e => h.acks.outside e && h.acks.prompt e
  | _ => true

/-- `emit_early_ack` is called for the turn. -/
def emits (turnId : String) : Event → Bool
  | .acks (.emitEarlyAck t _ _ _) => t = turnId
  | _ => false

/-- What holds of every host that is reached. -/
structure Sane (h : CancelHost) : Prop where
  serves : Serves Tagged (fun _ => True) h.acks
  prompt : Prompt h.acks
  children : ∀ turnId, ∀ w ∈ h.children turnId, isAckKey w = false

theorem sane_opened (epoch : ℤ) (enableEarlyAck : Bool) (earlyAckText : String) :
    Sane (opened epoch enableEarlyAck earlyAckText) where
  serves := ⟨⟨fun _ hi => absurd hi List.not_mem_nil, fun _ hl => (nomatch hl), fun _ _ hget => (nomatch hget)⟩,
    fun _ _ => trivial, fun _ _ => trivial⟩
  prompt := ⟨List.nodup_nil, fun _ he => absurd he List.not_mem_nil⟩
  children := fun _ w hw => absurd hw (Finset.notMem_empty w)

theorem clearSwept_eq (h : CancelHost) (speech : List SpeechItem) :
    h.clearSwept speech = { h with acks := (h.clearSwept speech).acks } :=
  run_invariant_of_step (I := fun h' : CancelHost => h' = { h with acks := h'.acks }) (fun h' item heq => by
    rw [heq]
    split_ifs
    · rfl
    · rfl) rfl speech

theorem settleSole_eq (cfg : LifecycleConfig) (h : CancelHost) (turnId : Option String) (child : String) :
    h.settleSole cfg turnId child = { h with acks := (h.settleSole cfg turnId child).acks } := by
  cases turnId with
  | none => rfl
  | some t =>
    rw [settleSole, Option.elim_some]
    split_ifs
    · rfl
    · rfl

/-- A cancellation keeps the children of every turn. -/
theorem turnWorkItems_cancelTurnOrChild (cfg : LifecycleConfig) (h : CancelHost) (turnId child : Option String)
    (origin : Bool) (exclude : Option String) :
    (h.cancelTurnOrChild cfg turnId child origin exclude).1.turnWorkItems = h.turnWorkItems := by
  rw [cancelTurnOrChild]
  split_ifs
  · cases child with
    | none =>
      rw [Option.elim_none, cancelAll, clearSwept_eq]
      rfl
    | some c =>
      rw [Option.elim_some, cancelChild, settleSole_eq]
      rfl
  · rfl

/-- A child comes to a turn by a delegation. -/
theorem children_step {turnId w : String} {e : Event} (hw : w ∈ (h.step cfg e).children turnId) :
    w ∈ h.children turnId ∨ ∃ id, w = Session.workItemId id := by
  cases e with
  | beginDelegation t item =>
    simp only [CancelHost.step, beginDelegation, children, Dict.get?_set] at hw
    split_ifs at hw with ht
    · rw [Option.getD_some, Finset.mem_insert] at hw
      rcases hw with rfl | hw
      · exact .inr ⟨_, rfl⟩
      · rw [ht]
        exact .inl hw
    · exact .inl hw
  | releaseTurnWorkItem t workItemId =>
    rw [CancelHost.step, releaseTurnWorkItem] at hw
    split at hw
    · exact .inl hw
    · rename_i items hitems
      split_ifs at hw
      · simp only [clearAckLatch, children, Dict.get?_pop] at hw
        split_ifs at hw
        · exact absurd hw (Finset.notMem_empty w)
        · exact .inl hw
      · simp only [children, Dict.get?_set] at hw
        split_ifs at hw with ht
        · rw [children, ht, hitems]
          exact .inl (Finset.mem_of_mem_erase hw)
        · exact .inl hw
  | releaseAllTurnWorkItems t =>
    simp only [CancelHost.step, clearAckLatch, children, Dict.get?_pop] at hw
    split_ifs at hw
    · exact absurd hw (Finset.notMem_empty w)
    · exact .inl hw
  | submittedDone workItemId task =>
    rw [CancelHost.step] at hw
    split_ifs at hw
    · exact .inl hw
    · exact .inl hw
  | cancelTurnOrChild t child origin exclude =>
    rw [children, CancelHost.step, turnWorkItems_cancelTurnOrChild] at hw
    exact .inl hw
  | clearAll => exact absurd hw (Finset.notMem_empty w)
  | _ => exact .inl hw

theorem isAckKey_workItemId (id : String) : isAckKey (Session.workItemId id) = false := by
  rw [isAckKey, Session.workItemId, String.toList_append]
  rfl

theorem Sane.step (hs : Sane h) {e : Event} (he : h.orderly e = true) : Sane (h.step cfg e) := by
  refine ⟨(swept_serves cfg allows_tagged).step hs.serves fun x hx => ?_,
    (swept_prompt cfg).step hs.prompt fun x hx => ?_, fun turnId w hw => ?_⟩
  · rw [hx, orderly, Bool.and_eq_true] at he
    exact hs.serves.step allows_tagged he.1 fun _ _ _ _ _ => trivial
  · rw [hx, orderly, Bool.and_eq_true] at he
    exact hs.prompt.step he.2
  · rcases children_step hw with hw | ⟨id, rfl⟩
    · exact hs.children turnId w hw
    · exact isAckKey_workItemId id

/-! ### The sole child -/

/-- Something is left of the work item: queued or active speech, a task of the host or a known id, or a task
of the coordinator. -/
def Alive (h : CancelHost) (w : String) : Prop :=
  h.scheduler.queues.lane w ≠ [] ∨ (∃ lease, h.scheduler.active = some lease ∧ lease.item.workItemId = w) ∨
    w ∈ h.work.liveIds ∨ w ∈ h.coordinatorTasks.keys

/-- Every other child of the turn is cancelled, or nothing is left of it. -/
def SoleChild (h : CancelHost) (turnId child : String) : Prop :=
  ∀ w ∈ h.children turnId, w ≠ child → w ∈ h.work.cancelledIds ∨ ¬ h.Alive w

theorem mem_remaining {turnId child w : String} (hchildren : ∀ w ∈ h.children turnId, isAckKey w = false) :
    w ∈ h.remaining turnId child ↔
      w ≠ child ∧ (h.Alive w ∧ w ∈ h.children turnId) ∧ w ∉ h.work.cancelledIds := by
  rw [remaining, Finset.mem_erase, Finset.mem_sdiff, Finset.mem_inter]
  refine and_congr_right fun _ => and_congr_left fun _ => and_congr_left fun hchild => ?_
  have hack : w ≠ ackWorkItemId turnId := fun heq => by
    have hkey := hchildren w hchild
    rw [heq, isAckKey_ackWorkItemId] at hkey
    cases hkey
  simp only [Finset.mem_union, List.mem_toFinset, List.mem_filter, decide_eq_true_eq, Option.mem_toList,
    Option.map_eq_some_iff, and_iff_left hack, Lanes.mem_keys, Alive, or_assoc]

/-- The cancellation of a child marks no other work item. -/
theorem mem_cancelledIds_cancelWork_some {child w : String} {exclude : Option String} (hw : w ≠ child) :
    w ∈ (h.cancelWork (some child) exclude).1.work.cancelledIds ↔ w ∈ h.work.cancelledIds := by
  have hselected : w ∉ (h.cancelWork (some child) exclude).2.1 := by
    simp [cancelWork, hw.symm]
  exact Finset.mem_union.trans (or_iff_left hselected)

/-- What is left of the other work items, the cancellation of a child leaves. -/
theorem alive_cancelChild {child w : String} {exclude : Option String} (hw : w ≠ child) :
    ((h.cancelWork (some child) exclude).1.cancelSpeech cfg (some child)).Alive w ↔ h.Alive w := by
  have hsame := same_cancel cfg h.scheduler hw
  have hscheduler : ((h.cancelWork (some child) exclude).1.cancelSpeech cfg (some child)).scheduler
      = (h.scheduler.cancel cfg (some child)).1 := scheduler_cancelSpeech cfg _ _
  rw [Alive, Alive, hscheduler, hsame.lane]
  refine or_congr_right (or_congr_left (exists_congr fun lease => ?_))
  exact and_congr_left fun hkey => hsame.leased lease hkey

/-- **The acknowledgement is settled exactly with the last child.** -/
theorem remaining_eq_empty_iff (hs : Sane h) (turnId child : String) (exclude : Option String) :
    ((h.cancelWork (some child) exclude).1.cancelSpeech cfg (some child)).remaining turnId child = ∅ ↔
      h.SoleChild turnId child := by
  have hmem : ∀ w,
      w ∈ ((h.cancelWork (some child) exclude).1.cancelSpeech cfg (some child)).remaining turnId child ↔
      w ≠ child ∧ (h.Alive w ∧ w ∈ h.children turnId) ∧ w ∉ h.work.cancelledIds := fun w => by
    refine (mem_remaining (h := (h.cancelWork (some child) exclude).1.cancelSpeech cfg (some child))
      (hs.children turnId)).trans (and_congr_right fun hw => ?_)
    exact and_congr (and_congr_left' (alive_cancelChild hw)) (not_congr (mem_cancelledIds_cancelWork_some hw))
  rw [Finset.eq_empty_iff_forall_notMem]
  simp only [hmem, SoleChild]
  refine forall_congr' fun w => ⟨fun hnot hchild hw => ?_, fun hsole ⟨hw, ⟨halive, hchild⟩, hcancelled⟩ => ?_⟩
  · by_contra hno
    rw [not_or, not_not] at hno
    exact hnot ⟨hw, ⟨hno.2, hchild⟩, hno.1⟩
  · exact (hsole hchild hw).elim hcancelled (absurd halive)

/-! ## A child -/

/-- What the cancellation of a child of the turn comes to. -/
structure ChildCancelled (cfg : LifecycleConfig) (h h' : CancelHost) (turnId child : String) : Prop where
  /-- The child has no speech left. -/
  named : Vacant child h'.scheduler
  /-- The speech of every other work item is as it was, -/
  others : ∀ key, key ≠ child → key ≠ ackWorkItemId turnId → Same key h.scheduler h'.scheduler
  /-- and the latch of every other turn. -/
  latches : ∀ t, t ≠ turnId → (t ∈ h'.latched ↔ t ∈ h.latched)
  /-- The acknowledgement goes, and its latch, if this was the last child, -/
  settled : h.SoleChild turnId child →
    Vacant (ackWorkItemId turnId) h'.scheduler ∧ turnId ∉ h'.latched
  /-- and stays otherwise. -/
  kept : ¬ h.SoleChild turnId child →
    Same (ackWorkItemId turnId) h.scheduler h'.scheduler ∧ (turnId ∈ h'.latched ↔ turnId ∈ h.latched)
  /-- A chain that is under way then brings no acknowledgement back, as long as none is emitted. -/
  barred : h.SoleChild turnId child → (∃ task ∈ h.acks.admissions, task.turnId = turnId) → ∀ fs,
    Guarded (step cfg) (fun h e => h.orderly e = true ∧ emits turnId e = false) h' fs →
      Vacant (ackWorkItemId turnId) (run (step cfg) h' fs).scheduler

theorem swept_yielding (cfg : LifecycleConfig) (turnId : String) :
    Swept cfg fun a => ∀ emission ∈ a.emissions, emission.turnId ≠ turnId := by
  intro a e he hnone
  cases e with
  | speech e =>
    intro emission hmem
    rw [AckHost.step, (succeeds_listen a e).1] at hmem
    exact hnone emission hmem
  | clearAckLatch t => exact hnone
  | clearAll => exact hnone
  | _ => cases he

/-- Nothing stands for a turn that is not served, over a whole run. -/
theorem vacant_run {turnId : String} (hs : Serves (fun key _ => key ≠ ackWorkItemId turnId) (· ≠ turnId) h.acks)
    {fs : List Event}
    (hg : Guarded (step cfg) (fun h e => h.orderly e = true ∧ emits turnId e = false) h fs) :
    Vacant (ackWorkItemId turnId) (run (step cfg) h fs).scheduler := by
  have hrun := run_invariant (I := fun h : CancelHost =>
    Serves (fun key _ => key ≠ ackWorkItemId turnId) (· ≠ turnId) h.acks) (fun h e hs ⟨hord, hemit⟩ => by
      refine (swept_serves cfg (allows_vacant turnId)).step hs fun x hx => ?_
      rw [hx, orderly, Bool.and_eq_true] at hord
      refine hs.step (allows_vacant turnId) hord.1 fun t originEpoch dispatched searching heq => ?_
      rw [hx, heq, emits, decide_eq_false_iff_not] at hemit
      exact hemit) hs hg
  exact vacant_iff_stands.mpr hrun.stands

theorem ne_ackWorkItemId (hs : Sane h) {turnId child : String} (hchild : child ∈ h.children turnId) (t : String) :
    child ≠ ackWorkItemId t := fun heq => by
  have hkey := hs.children turnId child hchild
  rw [heq, isAckKey_ackWorkItemId] at hkey
  cases hkey

/-- The turns that hold the latch once an acknowledgement is settled. -/
theorem mem_latched_settled (hs : Stands Tagged h.scheduler) {turnId t : String} :
    t ∈ ((h.cancelSpeech cfg (some (ackWorkItemId turnId))).clearAckLatch (some turnId)).latched ↔
      t ∈ h.latched ∧ t ≠ turnId := by
  rw [mem_latched_clearAckLatch, Ne, Option.some.injEq, eq_comm]
  refine and_congr_left fun ht => latched_cancelSpeech hs fun heq => ht (ackWorkItemId_injective heq).symm

/-- **A child is cancelled alone**, and the acknowledgement with the last of them. -/
theorem childCancelled (hs : Sane h) {turnId child : String} (hchild : child ∈ h.children turnId)
    {origin : Bool} (hconn : h.connected origin = true) (exclude : Option String) :
    ChildCancelled cfg h (h.cancelTurnOrChild cfg (some turnId) (some child) origin exclude).1 turnId child := by
  rw [cancelTurnOrChild, if_pos hconn, Option.elim_some, cancelChild, settleSole, Option.elim_some]
  set h₁ := (h.cancelWork (some child) exclude).1.cancelSpeech cfg (some child) with hh₁
  have hsole : h₁.remaining turnId child = ∅ ↔ h.SoleChild turnId child :=
    remaining_eq_empty_iff hs turnId child exclude
  have hsame : ∀ key, key ≠ child → Same key h.scheduler h₁.scheduler := fun key hne => by
    rw [hh₁, scheduler_cancelSpeech]
    exact same_cancel cfg h.scheduler hne
  have hnamed : Vacant child h₁.scheduler := by
    rw [hh₁, scheduler_cancelSpeech]
    exact vacant_cancel cfg h.scheduler child
  have hlatched : ∀ t, t ∈ h₁.latched ↔ t ∈ h.latched := fun t =>
    latched_cancelSpeech (h := (h.cancelWork (some child) exclude).1) hs.serves.stands (ne_ackWorkItemId hs hchild t)
  have hserves : Serves Tagged (fun _ => True) h₁.acks :=
    (swept_serves cfg allows_tagged).cancelSpeech (h := (h.cancelWork (some child) exclude).1) hs.serves (some child)
  by_cases hrem : h₁.remaining turnId child = ∅
  · have hsettled : ((h₁.cancelSpeech cfg (some (ackWorkItemId turnId))).clearAckLatch (some turnId)).scheduler
        = (h₁.scheduler.cancel cfg (some (ackWorkItemId turnId))).1 := scheduler_cancelSpeech cfg h₁ _
    have hvacant : Vacant (ackWorkItemId turnId)
        ((h₁.cancelSpeech cfg (some (ackWorkItemId turnId))).clearAckLatch (some turnId)).scheduler :=
      hsettled ▸ vacant_cancel cfg h₁.scheduler (ackWorkItemId turnId)
    rw [if_pos hrem]
    refine ⟨?_, fun key hne hack => ?_, fun t ht => ?_, fun _ => ⟨hvacant, fun ht => ?_⟩,
      fun hnot => absurd (hsole.mp hrem) hnot, fun _ ⟨task, htask, hturn⟩ fs hg => ?_⟩
    · rw [hsettled]
      exact hnamed.same (same_cancel cfg h₁.scheduler (ne_ackWorkItemId hs hchild turnId))
    · refine (hsame key hne).trans ?_
      rw [hsettled]
      exact same_cancel cfg h₁.scheduler hack
    · rw [mem_latched_settled hserves.stands, hlatched]
      exact and_iff_left ht
    · exact ((mem_latched_settled hserves.stands).mp ht).2 rfl
    · -- the chain rules an emission of the turn out, so the turn is served no more
      refine vacant_run ⟨vacant_iff_stands.mp hvacant,
        fun t ht => ((mem_latched_settled hserves.stands).mp ht).2, ?_⟩ hg
      have hnone : ∀ emission ∈ h.acks.emissions, emission.turnId ≠ turnId := fun emission he heq =>
        hs.prompt.apart emission he task htask (hturn.trans heq.symm)
      have hswept := swept_yielding cfg turnId
      exact hswept.clearAckLatch (hswept.cancelSpeech
        (hswept.cancelSpeech (h := (h.cancelWork (some child) exclude).1) hnone (some child)) _) (some turnId)
  · rw [if_neg hrem]
    have hnot : ¬ h.SoleChild turnId child := fun h => hrem (hsole.mpr h)
    exact ⟨hnamed, fun key hne _ => hsame key hne, fun t _ => hlatched t, fun h => absurd h hnot,
      fun _ => ⟨hsame _ (ne_ackWorkItemId hs hchild turnId).symm, hlatched turnId⟩, fun h => absurd h hnot⟩

/-! ## Everything -/

/-- What a cancellation without a child comes to. -/
structure AllCancelled (h : CancelHost) (r : CancelHost × Cancelled) (exclude : Option String) : Prop where
  /-- No speech is left, -/
  silent : ∀ key, Vacant key r.1.scheduler
  /-- and no acknowledgement that was swept holds a latch. -/
  swept : ∀ item ∈ h.scheduler.held, item.isAck = true →
    ∀ turnId, item.turnId = some turnId → turnId ∉ r.1.latched
  /-- All work is marked, -/
  marked : ∀ w, w ∈ h.work.liveIds ∨ w ∈ h.coordinatorTasks.keys → exclude ≠ some w →
    w ∈ r.1.work.cancelledIds
  /-- except what is excluded: of that, the host stops no task. -/
  spared : ∀ w, exclude = some w → (w ∈ r.1.work.cancelledIds ↔ w ∈ h.work.cancelledIds) ∧
    ∀ request ∈ r.2.requests, request.ofHost w = false
  /-- The coordinator is asked to stop everything. -/
  asked : ∀ w task, h.coordinatorTasks.get? w = some task → .coordinatorTask w task ∈ r.2.requests

theorem scheduler_clearSwept (h : CancelHost) (speech : List SpeechItem) :
    (h.clearSwept speech).scheduler = h.scheduler :=
  run_invariant_of_step (I := fun h' : CancelHost => h'.scheduler = h.scheduler) (fun h' item heq => by
    split_ifs
    · exact heq
    · exact heq) rfl speech

theorem mem_latched_clearSwept {turnId : String} {speech : List SpeechItem} :
    turnId ∈ (h.clearSwept speech).latched ↔
      turnId ∈ h.latched ∧ ∀ item ∈ speech, item.isAck = true → item.turnId ≠ some turnId := by
  induction speech generalizing h with
  | nil => exact (and_iff_left fun _ hi => absurd hi List.not_mem_nil).symm
  | cons item speech ih =>
    rw [clearSwept, List.foldl_cons, ← clearSwept, ih, List.forall_mem_cons, ← and_assoc]
    refine and_congr_left fun _ => ?_
    split_ifs with hack
    · rw [mem_latched_clearAckLatch, forall_prop_of_true hack]
    · exact (and_iff_left fun h => absurd h hack).symm

/-- A cancellation of everything selects all work but what is excluded. -/
theorem mem_selected_cancelWork_none {exclude : Option String} {w : String} :
    w ∈ (h.cancelWork none exclude).2.1 ↔
      (w ∈ h.work.liveIds ∨ w ∈ h.coordinatorTasks.keys) ∧ exclude ≠ some w := by
  simp only [cancelWork, WorkTaskLedger.liveIds, Dict.keys, Finset.mem_filter, Finset.mem_union,
    Option.all_none, List.filter_true, Finset.filter_true, List.mem_toFinset, if_true]
  rw [ne_comm]
  refine and_congr_left fun _ => ?_
  tauto

/-- The tasks that are stopped are those of the items that are selected. -/
theorem ofHost_cancelSelected {l : WorkTaskLedger} {selected : Finset String} {w : String} (hw : w ∉ selected)
    {r : TaskRequest} (hr : r ∈ (l.cancelSelected selected).2) : r.ofHost w = false := by
  have hne : ∀ k, k ∈ selected → decide (k = w) = false := fun k hk =>
    decide_eq_false fun heq => hw (heq ▸ hk)
  rcases List.mem_append.mp hr with hr | hr
  · obtain ⟨e, he, rfl⟩ := List.mem_map.mp hr
    exact hne e.1 (of_decide_eq_true (List.mem_filter.mp he).2)
  · obtain ⟨e, he, hr⟩ := List.mem_flatMap.mp hr
    obtain ⟨task, -, rfl⟩ := List.mem_map.mp hr
    exact hne e.1 (of_decide_eq_true (List.mem_filter.mp he).2)

/-- **Nothing is spoken on, and all work is marked**, except what is excluded. -/
theorem allCancelled (h : CancelHost) (turnId : Option String) {origin : Bool}
    (hconn : h.connected origin = true) (exclude : Option String) :
    AllCancelled h (h.cancelTurnOrChild cfg turnId none origin exclude) exclude := by
  rw [cancelTurnOrChild, if_pos hconn, Option.elim_none, cancelAll]
  refine ⟨fun key => ?_, fun item hitem hack t hturn ht => ?_, fun w hw hne => ?_, fun w hw => ⟨?_, fun r hr => ?_⟩,
    fun w task hget => ?_⟩
  · have hscheduler := scheduler_cancelSpeech cfg (h.cancelWork none exclude).1 none
    obtain ⟨hlane, hpaused, hactive⟩ := cancel_none cfg h.scheduler key
    rw [scheduler_clearSwept]
    change Vacant key ((h.cancelWork none exclude).1.cancelSpeech cfg none).scheduler
    rw [hscheduler]
    exact ⟨hlane, hpaused, fun lease hl => nomatch hactive.symm.trans hl⟩
  · exact (mem_latched_clearSwept.mp ht).2 item (mem_cancelled_none hitem) hack hturn
  · rw [clearSwept_eq]
    exact Finset.mem_union_right _ (mem_selected_cancelWork_none.mpr ⟨hw, hne⟩)
  · rw [clearSwept_eq]
    exact Finset.mem_union.trans (or_iff_left fun hsel => (mem_selected_cancelWork_none.mp hsel).2 hw)
  · have hnot : w ∉ (h.cancelWork none exclude).2.1 := fun hsel => (mem_selected_cancelWork_none.mp hsel).2 hw
    rcases List.mem_append.mp hr with hr | hr
    · obtain ⟨e, -, rfl⟩ := List.mem_map.mp hr
      rfl
    · exact ofHost_cancelSelected hnot hr
  · have hentry : (w, task) ∈ h.coordinatorTasks.entries := Dict.get?_eq_some_iff.mp hget
    exact List.mem_append_left _ (List.mem_map.mpr ⟨_, List.mem_filter.mpr ⟨hentry, rfl⟩, rfl⟩)

/-! ## Whole runs -/

/-- The hosts that are reached from a connection as it is opened. -/
def Reached (cfg : LifecycleConfig) (h : CancelHost) : Prop :=
  ∃ epoch enableEarlyAck earlyAckText es,
    Guarded (step cfg) (fun h e => h.orderly e = true) (opened epoch enableEarlyAck earlyAckText) es ∧
      run (step cfg) (opened epoch enableEarlyAck earlyAckText) es = h

theorem Reached.sane (hr : Reached cfg h) : Sane h := by
  obtain ⟨epoch, enableEarlyAck, earlyAckText, es, hg, rfl⟩ := hr
  exact run_invariant (fun _ _ hs he => hs.step he) (sane_opened epoch enableEarlyAck earlyAckText) hg

/-- **A cancellation hits what it names**, on a connection: a child of a turn, with the acknowledgement of the
turn if it is the last; or all speech and all work, except that the host keeps the work it excludes. -/
theorem cancellation_targets (hr : Reached cfg h) {origin : Bool} (hconn : h.connected origin = true)
    (exclude : Option String) :
    (∀ turnId, ∀ child ∈ h.children turnId, ChildCancelled cfg h
      (h.cancelTurnOrChild cfg (some turnId) (some child) origin exclude).1 turnId child) ∧
    ∀ turnId, AllCancelled h (h.cancelTurnOrChild cfg turnId none origin exclude) exclude :=
  ⟨fun _ _ hchild => childCancelled hr.sane hchild hconn exclude,
    fun turnId => allCancelled h turnId hconn exclude⟩

/-- A turn with two children is acknowledged while a result is spoken.  Its admission sleeps when the first child
is cancelled. -/
abbrev oneLeft : List Event :=
  [.acks (.speech (.enqueue { resultId := some "result", workItemId := "work", originEpoch := some 1 })),
    .acks (.speech (.startNext (some "work"))), .acks (.speech (.speakReturns 0)),
    .beginDelegation "turn-1" (some 0), .beginDelegation "turn-1" (some 1), .submitted "work-turn-1-0" 0,
    .acks (.emitEarlyAck "turn-1" 1 false false), .acks (.runAdmission 0),
    .cancelTurnOrChild (some "turn-1") (some "work-turn-1-0") true none]

theorem reached_oneLeft : Reached {} (run (step {}) (opened 1 true "One moment.") oneLeft) :=
  ⟨1, true, "One moment.", oneLeft, by decide +kernel, rfl⟩

/-- The second child takes the acknowledgement with it, and the admission that wakes has nothing to admit. -/
theorem cancellation_targets_oneLeft :
    (run (step {}) (opened 1 true "One moment.") oneLeft).latched = ["turn-1"] ∧
      (run (step {}) (opened 1 true "One moment.") oneLeft).scheduler.queues.keys = ["ack-turn-1"] ∧
      Vacant "ack-turn-1" (run (step {}) ((run (step {}) (opened 1 true "One moment.") oneLeft).cancelTurnOrChild {}
        (some "turn-1") (some "work-turn-1-1") true none).1 [.acks (.wake 1), .acks (.runAdmission 2)]).scheduler := by
  have hconn : (run (step {}) (opened 1 true "One moment.") oneLeft).connected true = true := rfl
  have htargets := (cancellation_targets reached_oneLeft hconn none).1 "turn-1" "work-turn-1-1" (by decide +kernel)
  have hempty : (((run (step {}) (opened 1 true "One moment.") oneLeft).cancelWork
      (some "work-turn-1-1") none).1.cancelSpeech {} (some "work-turn-1-1")).remaining
        "turn-1" "work-turn-1-1" = ∅ := by decide +kernel
  have hsole := (remaining_eq_empty_iff reached_oneLeft.sane "turn-1" "work-turn-1-1" none).mp hempty
  exact ⟨by decide +kernel, by decide +kernel, htargets.barred hsole (by decide +kernel) _ (by decide +kernel)⟩

/-- An acknowledgement is spoken, and its connection replaced by none. -/
abbrev disconnected : List Event :=
  [.beginDelegation "turn-1" (some 0), .beginDelegation "turn-1" (some 1),
    .acks (.emitEarlyAck "turn-1" 1 false false), .acks (.runAdmission 0), .acks (.speech (.speakReturns 0)),
    .acks (.speech (.replaced none false))]

/-- **Two cancellations that miss.**  Without a connection, the cancellation of a child clears the latch of a turn
that has another child alive; and a cancellation of everything stops the coordinator's task of the work that it
excludes. -/
theorem cancel_misses :
    (Guarded (step {}) (fun h e => h.orderly e = true) (opened 1 true "One moment.") disconnected ∧
      "work-turn-1-0" ∈ (run (step {}) (opened 1 true "One moment.") disconnected).children "turn-1" ∧
      "work-turn-1-1" ∈ (run (step {}) (opened 1 true "One moment.") disconnected).children "turn-1" ∧
      "work-turn-1-1" ∈ (run (step {}) (opened 1 true "One moment.") disconnected).work.liveIds ∧
      "work-turn-1-1" ∉ (run (step {}) (opened 1 true "One moment.") disconnected).work.cancelledIds ∧
      "turn-1" ∈ (run (step {}) (opened 1 true "One moment.") disconnected).latched ∧
      "turn-1" ∉ ((run (step {}) (opened 1 true "One moment.") disconnected).cancelTurnOrChild {}
        (some "turn-1") (some "work-turn-1-0") false none).1.latched) ∧
    TaskRequest.coordinatorTask "work-turn-1" 0 ∈ ((run (step {}) (opened 1 true "One moment.")
      [.beginDelegation "turn-1" none, .submitted "work-turn-1" 0]).cancelTurnOrChild {} none none true
        (some "work-turn-1")).2.requests := by
  decide +kernel

end CancelHost

end SubagentsLab

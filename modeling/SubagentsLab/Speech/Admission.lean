import SubagentsLab.Speech.Connection
import SubagentsLab.Speech.Slot

/-!
# Speech/Admission — what `start_next` does

With the slot free, the pre-admission loop **sheds** the candidates the lifecycle rejects for good
and stops at the first it admits.  `startNext_cases` says all a call can do: it is refused, it finds
nothing to say, or it hands one item to `speak` under a fresh token.
-/

namespace SubagentsLab

open Machinery

namespace SpeechLifecycleCoordinator

variable {c : SpeechLifecycleCoordinator}

/-- A free slot is never busy: a candidate is rejected for good or admitted. -/
theorem preAdmissionDisposition_cases (cfg : LifecycleConfig) (acceptable : Bool)
    (identity : GenerationIdentity) (hfree : c.slotToken = none) :
    (∃ reason, c.preAdmissionDisposition cfg acceptable identity = (c, .terminal reason)) ∨
      (c.connectionClosed = false ∧ (identity.role = .ack → acceptable = true) ∧
        c.preAdmissionDisposition cfg acceptable identity = (c.upon (c.enter identity), .admitted c.nextToken)) := by
  rw [preAdmissionDisposition]
  split_ifs with htts hack hclosed
  · exact Or.inl ⟨_, rfl⟩
  · exact Or.inl ⟨_, rfl⟩
  · exact Or.inl ⟨_, rfl⟩
  · have hopen : c.connectionClosed = false := by simpa using hclosed
    exact Or.inr ⟨hopen, fun hrole => by simpa [hrole] using hack,
      by simp [tryAdmit, hopen, hfree]⟩

/-- On a live connection every candidate is admitted. -/
theorem preAdmissionDisposition_of_live {cfg : LifecycleConfig} {identity : GenerationIdentity}
    (hfree : c.slotToken = none) (htts : cfg.ttsAvailable = true) (hopen : c.connectionClosed = false) :
    c.preAdmissionDisposition cfg true identity
      = (c.upon (c.enter identity), .admitted c.nextToken) := by
  simp [preAdmissionDisposition, tryAdmit, htts, hopen, hfree]

end SpeechLifecycleCoordinator

namespace SpeechScheduler

variable {cfg : LifecycleConfig} {s s' s'' : SpeechScheduler} {acceptable : Bool}

theorem emitAll_append (s : SpeechScheduler) (D D' : List SpeechItem) (state : DeliveryState)
    (stale : Bool) (epoch : Option ℤ) :
    s.emitAll (D ++ D') state stale epoch = (s.emitAll D state stale epoch).emitAll D' state stale epoch := by
  simp [emitAll]

/-! ## The lease -/

section Lease

variable {lease : UtteranceLease} {u : UtteranceId}

theorem activeLease_eq_some : s.activeLease u = some lease ↔
    s.active = some lease ∧ lease.item.utteranceId = u := by
  simp [activeLease, Option.filter_eq_some_iff]

/-- `_release` of the leased item. -/
theorem release_of_active (h : s.active = some lease) :
    s.release lease.item.utteranceId
      = { s with active := none, providerContexts := s.contextsWithout lease.token } := by
  simp [release, h]

/-- `_release` of any other. -/
theorem release_of_ne (h : s.activeLease u = none) : s.release u = s := by
  rcases hactive : s.active with _ | lease
  · simp [release, hactive]
  · rw [activeLease, hactive] at h
    have hne : lease.item.utteranceId ≠ u := by simpa [Option.filter] using h
    simp [release, hactive, hne]

/-- `delivery_completed` and `delivery_unknown` of the leased item. -/
theorem deliver_of_active (h : s.active = some lease) (d : DeliveryState)
    (disposition : DeliveryDisposition) :
    s.deliver cfg d disposition lease.item.utteranceId = { s with
      state := s.state.emit d false none lease.item
      lifecycle := s.lifecycle.releaseGeneration cfg lease.token true disposition
      active := none
      providerContexts := s.contextsWithout lease.token } := by
  have hlease : s.activeLease lease.item.utteranceId = some lease := activeLease_eq_some.mpr ⟨h, rfl⟩
  simp only [deliver, hlease, emitProgress, release, h, if_true]
  rfl

/-- The leased item is interrupted. -/
theorem interruptActive_of_active (h : s.active = some lease) (d : DeliveryState)
    (pause stale : Bool) (epoch : Option ℤ) :
    s.interruptActive cfg lease d pause stale epoch = { s with
      state := s.state.emit d stale epoch lease.item
      lifecycle := s.lifecycle.recordInterruption cfg lease.token pause
      active := none
      providerContexts := s.contextsWithout lease.token } := by
  simp only [interruptActive, h, emitProgress, release, if_true]
  rfl

/-- `_release` looks at the lease only. -/
theorem release_update (s : SpeechScheduler) (subs : List Submission) (c : SpeechLifecycleCoordinator)
    (u : UtteranceId) :
    ({ s with submissions := subs, lifecycle := c } : SpeechScheduler).release u
      = { s.release u with submissions := subs, lifecycle := c } := by
  rcases hl : s.activeLease u with _ | lease
  · rw [release_of_ne hl]
    exact release_of_ne hl
  · obtain ⟨hactive, rfl⟩ := activeLease_eq_some.mp hl
    rw [release_of_active hactive]
    exact release_of_active hactive

/-- `pause` acts on the lease of the work item, if there is one. -/
theorem pause_cases (cfg : LifecycleConfig) (s : SpeechScheduler) (key : String) :
    s.pause cfg key = (s, []) ∨
      ∃ lease, s.active = some lease ∧ lease.item.workItemId = key ∧ s.pause cfg key = ({ s with
        state := s.state.emit .paused false none lease.item
        lifecycle := s.lifecycle.recordInterruption cfg lease.token true
        active := none
        paused := s.paused.set key lease.item
        providerContexts := s.contextsWithout lease.token }, [.stop lease.item]) := by
  rcases hactive : s.active with _ | lease
  · exact Or.inl (by simp [pause, hactive])
  · rcases eq_or_ne lease.item.workItemId key with hwork | hne
    · refine Or.inr ⟨lease, rfl, hwork, ?_⟩
      simp only [pause, hactive, hwork, if_true]
      rw [interruptActive_of_active rfl]
      rfl
    · exact Or.inl (by simp [pause, hactive, hne])

end Lease

/-! ## Shedding -/

/-- `s'` is `s` without the items `D`, which were queued in front and are reported as unknown. -/
structure Sheds (s s' : SpeechScheduler) (D : List SpeechItem) : Prop where
  frame : s' = { s.emitAll D .deliveryUnknown with queues := s'.queues }
  items : (D ++ s'.queues.items).Perm s.queues.items
  lane : ∀ key, s'.queues.lane key <:+ s.queues.lane key

theorem Sheds.refl (s : SpeechScheduler) : Sheds s s [] where
  frame := rfl
  items := .refl _
  lane := fun _ => List.suffix_refl _

theorem Sheds.trans {D D' : List SpeechItem} (h : Sheds s s' D) (h' : Sheds s' s'' D') :
    Sheds s s'' (D ++ D') where
  frame := by
    have hframe := h'.frame
    rw [h.frame] at hframe
    rw [emitAll_append]
    exact hframe
  items := by
    rw [List.append_assoc]
    exact (h'.items.append_left D).trans h.items
  lane := fun key => (h'.lane key).trans (h.lane key)

theorem Sheds.lifecycle {D : List SpeechItem} (h : Sheds s s' D) : s'.lifecycle = s.lifecycle := by
  rw [h.frame]
  rfl

theorem Sheds.active {D : List SpeechItem} (h : Sheds s s' D) : s'.active = s.active := by
  rw [h.frame]
  rfl

theorem Sheds.submissions {D : List SpeechItem} (h : Sheds s s' D) :
    s'.submissions = s.submissions := by
  rw [h.frame]
  rfl

/-- A rejected head of its queue is shed. -/
theorem sheds_discardFromQueue {item : SpeechItem} {rest : List SpeechItem}
    (hlane : s.queues.lane item.workItemId = item :: rest) :
    Sheds s ((s.discardFromQueue item).emitProgress item .deliveryUnknown) [item] := by
  rw [discardFromQueue, if_pos (by rw [hlane]; rfl)]
  refine ⟨rfl, s.queues.items_dropHead_perm hlane, fun key => ?_⟩
  change (s.queues.dropHead item.workItemId).lane key <:+ _
  rw [Lanes.lane_dropHead]
  split_ifs with hkey
  · rw [hkey]
    exact List.tail_suffix _
  · exact List.suffix_refl _

/-! ## The pre-admission loop -/

/-- Only acknowledgements are told of. -/
def OnlyAcks (ns : List Notice) : Prop := ∀ n ∈ ns, ∃ identity reason, n = .ackTerminal identity reason

theorem onlyAcks_ackSwept (reason : PreAdmissionTerminalReason) (item : SpeechItem) :
    OnlyAcks (ackSwept reason item) := by
  intro n hn
  rw [ackSwept] at hn
  split_ifs at hn
  · exact ⟨_, _, List.mem_singleton.mp hn⟩
  · cases hn

theorem onlyAcks_sweep (reason : PreAdmissionTerminalReason) (items : List SpeechItem) :
    OnlyAcks (items.flatMap (ackSwept reason)) := fun n hn => by
  obtain ⟨item, -, hn⟩ := List.mem_flatMap.mp hn
  exact onlyAcks_ackSwept reason item n hn

/-- Only acknowledgements among `D` are told of. -/
def TellsOf (D : List SpeechItem) (ns : List Notice) : Prop :=
  ∀ n ∈ ns, ∃ item ∈ D, ∃ reason, n ∈ ackSwept reason item

theorem TellsOf.append {D D' : List SpeechItem} {ns ns' : List Notice} (h : TellsOf D ns) (h' : TellsOf D' ns') :
    TellsOf (D ++ D') (ns ++ ns') := by
  intro n hn
  rcases List.mem_append.mp hn with hn | hn
  · obtain ⟨item, hitem, hswept⟩ := h n hn
    exact ⟨item, List.mem_append_left _ hitem, hswept⟩
  · obtain ⟨item, hitem, hswept⟩ := h' n hn
    exact ⟨item, List.mem_append_right _ hitem, hswept⟩

theorem tellsOf_nil : TellsOf [] [] := fun _ hn => absurd hn List.not_mem_nil

theorem tellsOf_ackSwept (reason : PreAdmissionTerminalReason) (item : SpeechItem) :
    TellsOf [item] (ackSwept reason item) := fun _ hn => ⟨item, List.mem_singleton_self item, reason, hn⟩

theorem TellsOf.onlyAcks {D : List SpeechItem} {ns : List Notice} (h : TellsOf D ns) : OnlyAcks ns := fun n hn => by
  obtain ⟨item, -, reason, hswept⟩ := h n hn
  exact onlyAcks_ackSwept reason item n hswept

/-- How the loop leaves the scheduler. -/
inductive Scanned (acceptable : Bool) (s : SpeechScheduler) : SpeechScheduler × List Notice × Scan → Prop
  | exhausted (s' : SpeechScheduler) (ns : List Notice) (D : List SpeechItem) (h : Sheds s s' D)
      (hns : TellsOf D ns) : Scanned acceptable s (s', ns, .exhausted)
  | admitted (s' : SpeechScheduler) (ns : List Notice) (D rest : List SpeechItem) (item : SpeechItem)
      (h : Sheds s s' D) (hns : TellsOf D ns) (hopen : s.lifecycle.connectionClosed = false)
      (hack : item.isAck = true → acceptable = true)
      (hlane : s'.queues.lane item.workItemId = item :: rest) :
      Scanned acceptable s
        ({ s' with lifecycle := s.lifecycle.upon (s.lifecycle.enter item.identity) }, ns,
          .admitted item s.lifecycle.nextToken)

theorem Scanned.of_sheds {D : List SpeechItem} {s' : SpeechScheduler} (h : Sheds s s' D)
    {ns : List Notice} (hns : TellsOf D ns) {r : SpeechScheduler × List Notice × Scan}
    (hr : Scanned acceptable s' r) : Scanned acceptable s (r.1, ns ++ r.2.1, r.2.2) := by
  rcases hr with ⟨s'', ns', D', h', hns'⟩ | ⟨s'', ns', D', rest, item, h', hns', hopen, hack, hlane⟩
  · exact .exhausted s'' _ (D ++ D') (h.trans h') (hns.append hns')
  · rw [h.lifecycle] at hopen ⊢
    exact .admitted s'' _ (D ++ D') rest item (h.trans h') (hns.append hns') hopen hack hlane

theorem scanLane_scanned (cfg : LifecycleConfig) (acceptable : Bool) {s : SpeechScheduler}
    {q : List SpeechItem} (key : String) (hq : s.queues.lane key = q) (hfree : s.lifecycle.slotToken = none) :
    Scanned acceptable s (scanLane cfg acceptable s q) := by
  induction q generalizing s with
  | nil => exact .exhausted s [] [] (.refl s) tellsOf_nil
  | cons item rest ih =>
    obtain rfl : item.workItemId = key := Lanes.key_of_mem_lane (hq ▸ List.mem_cons_self)
    rcases SpeechLifecycleCoordinator.preAdmissionDisposition_cases cfg acceptable item.identity hfree with ⟨reason, hpre⟩ | ⟨hopen, hrole, hpre⟩
    · simp only [scanLane, hpre]
      have hshed := sheds_discardFromQueue hq
      refine Scanned.of_sheds hshed (tellsOf_ackSwept reason item) (ih ?_ ?_)
      · simp [discardFromQueue, hq, emitProgress, Lanes.lane_dropHead]
      · rw [hshed.lifecycle, hfree]
    · simp only [scanLane, hpre]
      refine .admitted s [] [] rest item (.refl s) tellsOf_nil hopen (fun hack => hrole ?_) hq
      simp [SpeechItem.identity, hack]

/-- **The pre-admission loop sheds what is rejected and stops at the first candidate admitted.** -/
theorem scanKeys_scanned (cfg : LifecycleConfig) (acceptable : Bool) {s : SpeechScheduler}
    (keys : List String) (hfree : s.lifecycle.slotToken = none) :
    Scanned acceptable s (scanKeys cfg acceptable s keys) := by
  induction keys generalizing s with
  | nil => exact .exhausted s [] [] (.refl s) tellsOf_nil
  | cons key keys ih =>
    have hlane := scanLane_scanned cfg acceptable key rfl hfree
    rw [scanKeys]
    generalize scanLane cfg acceptable s (s.queues.lane key) = r at hlane
    rcases hlane with ⟨s', ns, D, h, hns⟩ | ⟨s', ns, D, rest, item, h, hns, hopen, hack, hq⟩
    · exact Scanned.of_sheds h hns (ih (by rw [h.lifecycle, hfree]))
    · exact .admitted s' ns D rest item h hns hopen hack hq

/-! ## `start_next` -/

/-- How a call of `start_next` goes. -/
inductive Started (cfg : LifecycleConfig) (acceptable : Bool) (s : SpeechScheduler) (caller : Caller) :
    SpeechScheduler × List Notice → Prop
  | refused (hbusy : s.active.isSome = true ∨ s.lifecycle.slotToken.isSome = true) :
      Started cfg acceptable s caller (s.finish cfg caller true, [.returned caller none])
  | nothing (s' : SpeechScheduler) (ns : List Notice) (D : List SpeechItem) (h : Sheds s s' D)
      (hns : TellsOf D ns) (hidle : s.active = none) (hfree : s.lifecycle.slotToken = none) :
      Started cfg acceptable s caller (s'.finish cfg caller true, ns ++ [.returned caller none])
  | speaking (s' : SpeechScheduler) (ns : List Notice) (D rest : List SpeechItem) (item : SpeechItem)
      (h : Sheds s s' D) (hns : TellsOf D ns) (hidle : s.active = none)
      (hfree : s.lifecycle.slotToken = none) (hopen : s.lifecycle.connectionClosed = false)
      (hack : item.isAck = true → acceptable = true)
      (hlane : s'.queues.lane item.workItemId = item :: rest) :
      Started cfg acceptable s caller
        (submit cfg { s' with lifecycle := s.lifecycle.upon (s.lifecycle.enter item.identity) } item
            s.lifecycle.nextToken caller,
          ns ++ [.speak item])

/-- **A call of `start_next` is refused, finds nothing to say, or hands one item to `speak`.** -/
theorem startNext_cases (cfg : LifecycleConfig) (s : SpeechScheduler) (acceptable : Bool)
    (key : Option String) (caller : Caller) :
    Started cfg acceptable s caller (s.startNext cfg acceptable key caller) := by
  rw [startNext]
  split_ifs with hbusy
  · exact .refused (by simpa using hbusy)
  · obtain ⟨hidle, hfree⟩ : s.active = none ∧ s.lifecycle.slotToken = none := by simpa using hbusy
    have hscan := scanKeys_scanned cfg acceptable (key.elim s.queues.keys fun key => [key]) hfree
    generalize s.scanKeys cfg acceptable (key.elim s.queues.keys fun key => [key]) = r at hscan
    rcases hscan with ⟨s', ns, D, h, hns⟩ | ⟨s', ns, D, rest, item, h, hns, hopen, hack, hlane⟩
    · exact .nothing s' ns D h hns hidle hfree
    · exact .speaking s' ns D rest item h hns hidle hfree hopen hack hlane

end SpeechScheduler

end SubagentsLab

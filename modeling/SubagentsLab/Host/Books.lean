import SubagentsLab.Host.Commit
import SubagentsLab.Status.Children

/-!
# Host/Books — what every step of a commit keeps

Two layers.  **The session only grows** (`Grows`): the log gains results and loses none, no id twice; a child
known to the ledger stays known, a child that is shut stays shut, and only the work items a step reports as
ready become ready.  **The books agree** (`Booked`): a delegated child is on record, one that is ready has
nothing pending in the foreground, a status held back belongs to an item the loop still comes to, and what
is being spoken is in the log.
-/

namespace SubagentsLab

open Machinery

namespace Session

namespace CommitHost

open WorkStatusLedger

variable {cfg : RetentionConfig} {h h' : CommitHost} {W : Set String} {r : GroundedResult}

/-! ## The session grows -/

/-- A host whose log has no id twice, whose ledger was filled by reports, and which recorded nobody while
statuses are off. -/
structure Tidy (h : CommitHost) : Prop where
  authored : Authored h.state.ledger
  nodup : h.log.Nodup
  silent : h.enableBackgroundStatus = false → ∀ k w, h.state.ledger.childState k w = none

/-- What becomes of the session: only the work items in `W` may have become ready. -/
structure Grows (W : Set String) (h h' : CommitHost) : Prop where
  tidy : Tidy h'
  enabled : h'.enableBackgroundStatus = h.enableBackgroundStatus
  log : ∀ id ∈ h.log, id ∈ h'.log
  known : ∀ k w, Known h.state.ledger k w → Known h'.state.ledger k w
  shut : ∀ k w, Shut h.state.ledger k w → Shut h'.state.ledger k w
  ready : ∀ k w, h'.state.ledger.childState k w = some .resultReady →
    h.state.ledger.childState k w = some .resultReady ∨ w ∈ W

theorem Grows.trans {h₂ : CommitHost} (hg : Grows W h h') (hg' : Grows W h' h₂) : Grows W h h₂ where
  tidy := hg'.tidy
  enabled := hg'.enabled.trans hg.enabled
  log id hid := hg'.log id (hg.log id hid)
  known k w hk := hg'.known k w (hg.known k w hk)
  shut k w hs := hg'.shut k w (hg.shut k w hs)
  ready k w hready := by
    rcases hg'.ready k w hready with hready' | hmem
    · exact hg.ready k w hready'
    · exact Or.inr hmem

theorem Grows.mono {W' : Set String} (hg : Grows W h h') (hsub : W ⊆ W') : Grows W' h h' where
  tidy := hg.tidy
  enabled := hg.enabled
  log := hg.log
  known := hg.known
  shut := hg.shut
  ready k w hready := (hg.ready k w hready).imp_right fun hmem => hsub hmem

theorem Grows.widen (hg : Grows ∅ h h') : Grows W h h' := hg.mono (Set.empty_subset W)

/-- Whatever leaves the log and the ledger alone. -/
theorem Tidy.grows_of_eq (ht : Tidy h) (henabled : h'.enableBackgroundStatus = h.enableBackgroundStatus)
    (hresults : h'.state.results = h.state.results) (hledger : h'.state.ledger = h.state.ledger) : Grows W h h' where
  tidy := by
    refine ⟨hledger ▸ ht.authored, ?_, fun hoff => ?_⟩
    · rw [log, hresults]
      exact ht.nodup
    · rw [hledger]
      exact ht.silent (henabled ▸ hoff)
  enabled := henabled
  log id hid := by rwa [log, hresults]
  known k w hk := hledger ▸ hk
  shut k w hs := hledger ▸ hs
  ready k w hready := Or.inl (hledger ▸ hready)

/-- A step that only touches the ledger, and there only drops what is terminal. -/
theorem Tidy.grows_of_sheds (ht : Tidy h) (henabled : h'.enableBackgroundStatus = h.enableBackgroundStatus)
    (hresults : h'.state.results = h.state.results) (hs : Sheds h.state.ledger h'.state.ledger) : Grows W h h' where
  tidy := by
    refine ⟨hs.authored, ?_, fun hoff k w => ?_⟩
    · rw [log, hresults]
      exact ht.nodup
    · rcases hs.keeps k w with htomb | ⟨hkept, -⟩
      · exact hs.authored.childState_of_tombed htomb w
      · exact hkept.trans (ht.silent (henabled ▸ hoff) k w)
  enabled := henabled
  log id hid := by rwa [log, hresults]
  known k w hk := hs.known hk
  shut k w hsh := hs.shut hsh
  ready k w hready := Or.inl (hs.ready hready)

theorem results_setChildWorkStatus (s : SessionState) (rep : ChildReport) (now : ℚ) :
    (s.setChildWorkStatus cfg rep now).1.results = s.results := by
  rw [SessionState.setChildWorkStatus]
  split <;> rfl

theorem ledger_setChildWorkStatus (s : SessionState) (rep : ChildReport) (now : ℚ) :
    (s.setChildWorkStatus cfg rep now).1.ledger = (s.ledger.setChildWorkStatus cfg rep now).1 := by
  rw [SessionState.setChildWorkStatus]
  split
  · rename_i heq
    rw [heq]
    rfl
  · rename_i heq
    rw [heq]

/-- The host after a status, where statuses are on. -/
theorem emitWorkStatus_on (hon : h.enableBackgroundStatus = true) (rep : ChildReport) (canonical : Option String)
    (now : ℚ) : h.emitWorkStatus cfg rep canonical now
      = ({ h with state := (h.state.setChildWorkStatus cfg rep now).1 }, [.status ⟨rep, canonical, h.log⟩]) :=
  if_pos hon

/-- **A status readies its own work item, or none.** -/
theorem Tidy.grows_emit (ht : Tidy h) (rep : ChildReport) (canonical : Option String) (now : ℚ)
    (hW : rep.state = .resultReady → rep.workItemId ∈ W) : Grows W h (h.emitWorkStatus cfg rep canonical now).1 := by
  rw [emitWorkStatus]
  split_ifs with hon
  · have hfiling := ht.authored.filing cfg rep now
    refine ⟨⟨?_, ?_, fun hoff => ?_⟩, rfl, fun id hid => ?_, fun k w hk => ?_, fun k w hs => ?_, fun k w hready => ?_⟩
    · dsimp only
      rw [ledger_setChildWorkStatus]
      exact hfiling.authored
    · rw [log]
      dsimp only
      rw [results_setChildWorkStatus]
      exact ht.nodup
    · rw [hon] at hoff
      cases hoff
    · rw [log]
      dsimp only
      rwa [results_setChildWorkStatus]
    · dsimp only
      rw [ledger_setChildWorkStatus]
      exact hfiling.known hk
    · dsimp only
      rw [ledger_setChildWorkStatus]
      exact hfiling.shut hs
    · dsimp only at hready
      rw [ledger_setChildWorkStatus] at hready
      rcases hfiling.ready hready with hready' | ⟨-, rfl, hstate⟩
      · exact Or.inl hready'
      · exact Or.inr (hW hstate)
  · exact ht.grows_of_eq rfl rfl rfl

theorem Tidy.grows_emit_idle (ht : Tidy h) (rep : ChildReport) (canonical : Option String) (now : ℚ)
    (hidle : rep.state ≠ .resultReady) : Grows W h (h.emitWorkStatus cfg rep canonical now).1 :=
  ht.grows_emit rep canonical now fun hready => absurd hready hidle

@[simp] theorem children_emitWorkStatus (rep : ChildReport) (canonical : Option String) (now : ℚ) :
    (h.emitWorkStatus cfg rep canonical now).1.children = h.children := by
  rw [emitWorkStatus]
  split_ifs <;> rfl

@[simp] theorem fanOuts_emitWorkStatus (rep : ChildReport) (canonical : Option String) (now : ℚ) :
    (h.emitWorkStatus cfg rep canonical now).1.fanOuts = h.fanOuts := by
  rw [emitWorkStatus]
  split_ifs <;> rfl

@[simp] theorem log_emitWorkStatus (rep : ChildReport) (canonical : Option String) (now : ℚ) :
    (h.emitWorkStatus cfg rep canonical now).1.log = h.log := by
  rw [emitWorkStatus]
  split_ifs
  · exact congrArg (List.map (·.resultId)) (results_setChildWorkStatus _ _ _)
  · rfl

theorem cancelledIds_emitWorkStatus (rep : ChildReport) (canonical : Option String) (now : ℚ) :
    (h.emitWorkStatus cfg rep canonical now).1.cancelledIds = h.cancelledIds := by
  rw [emitWorkStatus]
  split_ifs <;> rfl

/-! ## Commits -/

/-- **A result with an epoch is filed, or was filed before.** -/
theorem mem_log_appendResult (s : SessionState) (hepoch : r.originEpoch.isSome = true) :
    r.resultId ∈ (s.appendResult r none r.originEpoch).1.results.map (·.resultId) := by
  rw [SessionState.appendResult]
  have hbound : ¬(s.activeEpoch.isSome = true ∧ r.originEpoch = none) := by
    rintro ⟨-, hnone⟩
    rw [hnone] at hepoch
    cases hepoch
  have hown : ¬(r.originEpoch.isSome = true ∧ r.originEpoch.isSome = true ∧ r.originEpoch ≠ r.originEpoch) :=
    fun hforeign => hforeign.2.2 rfl
  rw [if_neg hbound, if_neg hown]
  dsimp only
  split_ifs with hdup
  · obtain ⟨item, hitem, hid⟩ := List.any_eq_true.mp hdup
    exact List.mem_map.mpr ⟨item, hitem, of_decide_eq_true hid⟩
  all_goals simp [SessionState.emit]

/-- **The log gains at most a result it does not have.** -/
theorem Tidy.grows_appendResult (ht : Tidy h) (r : GroundedResult) (sequence originEpoch : Option ℕ) :
    Grows W h { h with state := (h.state.appendResult r sequence originEpoch).1 } := by
  rcases h.state.appendResult_cases r sequence originEpoch with hout | ⟨n, workers, -, hnew, -, hout, -⟩
  · rw [hout]
    exact ht.grows_of_eq rfl rfl rfl
  · rw [hout]
    have hlog : ∀ id, id ∈ (CommitHost.log { h with
        state := { h.state with sequence := n, results := h.state.results ++ [SessionState.filedResult r originEpoch], workers } })
          ↔ id ∈ h.log ∨ id = r.resultId := by
      intro id
      simp [log, SessionState.filedResult]
    refine ⟨⟨ht.authored, ?_, ht.silent⟩, rfl, fun id hid => (hlog id).mpr (Or.inl hid), fun _ _ hk => hk,
      fun _ _ hs => hs, fun _ _ hready => Or.inl hready⟩
    rw [log]
    dsimp only
    rw [List.map_append, List.nodup_append]
    refine ⟨ht.nodup, by simp, ?_⟩
    rintro id hid id' hid' rfl
    rw [List.map_singleton, List.mem_singleton] at hid'
    obtain ⟨item, hitem, hsame⟩ := List.mem_map.mp hid
    have hnone := List.any_eq_false.mp hnew item hitem
    exact hnone (decide_eq_true (hsame.trans hid'))

theorem results_appendTranscript (s : SessionState) (t : TranscriptEntry) :
    (s.appendTranscript t).1.results = s.results ∧ (s.appendTranscript t).1.ledger = s.ledger := by
  rw [SessionState.appendTranscript]
  split_ifs <;> exact ⟨rfl, rfl⟩

theorem results_setWorker (s : SessionState) (worker : WorkerState) :
    (s.setWorker worker).1.results = s.results ∧ (s.setWorker worker).1.ledger = s.ledger := by
  rw [SessionState.setWorker]
  split_ifs <;> exact ⟨rfl, rfl⟩

/-- What leaves the books of the turns alone. -/
structure Apart (h h' : CommitHost) : Prop where
  grows : Grows ∅ h h'
  children : h'.children = h.children
  fanOuts : h'.fanOuts = h.fanOuts

theorem Apart.trans {h₂ : CommitHost} (ha : Apart h h') (ha' : Apart h' h₂) : Apart h h₂ :=
  ⟨ha.grows.trans ha'.grows, ha'.children.trans ha.children, ha'.fanOuts.trans ha.fanOuts⟩

theorem Tidy.apart_of_eq (ht : Tidy h) (henabled : h'.enableBackgroundStatus = h.enableBackgroundStatus)
    (hresults : h'.state.results = h.state.results) (hledger : h'.state.ledger = h.state.ledger)
    (hchildren : h'.children = h.children) (hfanOuts : h'.fanOuts = h.fanOuts) : Apart h h' :=
  ⟨ht.grows_of_eq henabled hresults hledger, hchildren, hfanOuts⟩

/-- **What `_commit_result_state` does**: the log grows, and holds the result unless it raised. -/
theorem Tidy.commitResultState (ht : Tidy h) (r : GroundedResult) (stamp : String) (fault : Option Fault) :
    Apart h (h.commitResultState r stamp fault).1 ∧
      (r.originEpoch.isSome = true → (h.commitResultState r stamp fault).2 = false →
        r.resultId ∈ (h.commitResultState r stamp fault).1.log) := by
  rw [CommitHost.commitResultState]
  dsimp only
  set entry : TranscriptEntry := ⟨.assistant, r.text, r.turnId, stamp, r.originEpoch⟩
  have hentry := results_appendTranscript h.state entry
  have hfirst : Apart h { h with state := (h.state.appendTranscript entry).1 } :=
    ht.apart_of_eq rfl hentry.1 hentry.2 rfl rfl
  split_ifs with hfault
  · exact ⟨hfirst, fun _ hraised => absurd hraised (by decide)⟩
  · refine ⟨hfirst.trans ⟨hfirst.grows.tidy.grows_appendResult r none r.originEpoch, rfl, rfl⟩, fun hepoch _ => ?_⟩
    exact mem_log_appendResult _ hepoch

/-- No status among the effects. -/
def Mute (out : List Effect) : Prop := ∀ e, Effect.status e ∉ out

/-- **What `_commit_and_speak` does**: a marked work item leaves the session as it is and says nothing;
otherwise the result is in the log unless the commit raised. -/
theorem Tidy.commitAndSpeak (ht : Tidy h) (r : GroundedResult) (origin : Origin) (role : SpeechRole) (requireTts : Bool)
    (stamp : String) (fault : Option Fault) :
    Apart h (h.commitAndSpeak r origin role requireTts stamp fault).1 ∧
      Mute (h.commitAndSpeak r origin role requireTts stamp fault).2.2 ∧
      (workItemId r.turnId ∈ h.cancelledIds →
        (h.commitAndSpeak r origin role requireTts stamp fault).1.state = h.state ∧
        (h.commitAndSpeak r origin role requireTts stamp fault).2 = (.suppressed, [])) ∧
      (workItemId r.turnId ∉ h.cancelledIds →
        (h.commitAndSpeak r origin role requireTts stamp fault).2.1 ≠ .suppressed ∧
        (r.originEpoch.isSome = true → (h.commitAndSpeak r origin role requireTts stamp fault).2.1 ≠ .raised →
          r.resultId ∈ (h.commitAndSpeak r origin role requireTts stamp fault).1.log)) := by
  rw [CommitHost.commitAndSpeak]
  dsimp only
  by_cases hmarked : workItemId r.turnId ∈ h.cancelledIds
  · rw [if_pos hmarked]
    exact ⟨ht.apart_of_eq rfl rfl rfl rfl rfl, fun _ => List.not_mem_nil, fun _ => ⟨rfl, rfl⟩, fun hnot => absurd hmarked hnot⟩
  · rw [if_neg hmarked]
    obtain ⟨hapart, hlog⟩ := ht.commitResultState r stamp fault
    generalize h.commitResultState r stamp fault = committed at hapart hlog
    obtain ⟨h₁, raised⟩ := committed
    dsimp only at hapart hlog
    rcases raised with _ | _
    · have hretired : Apart h₁ (h₁.retire (workItemId r.turnId)) := hapart.grows.tidy.apart_of_eq rfl rfl rfl rfl rfl
      dsimp only
      split_ifs
      · exact ⟨hapart.trans hretired, fun _ => List.not_mem_nil, fun hmem => absurd hmem hmarked,
          fun _ => ⟨nofun, fun hepoch _ => hlog hepoch rfl⟩⟩
      · refine ⟨hapart.trans hretired, fun e hmem => ?_, fun hmem => absurd hmem hmarked,
          fun _ => ⟨nofun, fun hepoch _ => hlog hepoch rfl⟩⟩
        cases List.mem_singleton.mp hmem
    · exact ⟨hapart, fun _ => List.not_mem_nil, fun hmem => absurd hmem hmarked,
        fun _ => ⟨nofun, fun _ hraised => absurd rfl hraised⟩⟩

/-! ## The books -/

end CommitHost

/-- Nothing is pending for the child in the foreground but the end of a speech. -/
def Child.settled (c : Child) : Bool :=
  match c.stage with
  | .searching => false
  | .deferred _ _ => false
  | .speaking _ _ => true
  | .closed => true

/-- The key the child's statuses are filed under. -/
def Child.key (c : Child) (w : String) : WorkStatusKey := (c.report w none (.routing, none)).key

theorem Child.key_report (c : Child) (w : String) (workerId : Option String) (derived : Derived) :
    (c.report w workerId derived).key = c.key w := rfl

theorem Child.valid_report (c : Child) (w : String) (workerId : Option String) {derived : Derived}
    (hreason : derived.2.isSome = true → derived.1 = .failed) : (c.report w workerId derived).Valid :=
  ⟨c.turnId_ne, fun _ he => Option.some.inj he ▸ Int.natCast_nonneg _, hreason⟩

/-- The loop of the turn holds the child's status back, for the item at the index. -/
structure Child.Defers (c : Child) (turnId : String) (index epoch : ℕ) : Prop where
  stage : c.stage = .deferred turnId index
  turn : c.turnId = turnId
  parent : c.parentWorkItemId = some (workItemId turnId)
  epoch : c.originEpoch = epoch

namespace CommitHost

open WorkStatusLedger

variable {cfg : RetentionConfig} {h h' : CommitHost} {W : Set String} {r : GroundedResult}

/-- What holds of a child on the books. -/
structure ChildKept (h : CommitHost) (w : String) (c : Child) : Prop where
  known : h.enableBackgroundStatus = true → Known h.state.ledger (c.key w) w
  retained : c.retained = true → c.settled = true
  spoken : ∀ r reason, c.stage = .speaking r (some (.resultReady, reason)) → r.resultId ∈ h.log

/-- What holds of a fan-out on the books. -/
structure FanKept (h : CommitHost) (turnId : String) (fan : FanOut) : Prop where
  spoken : ∀ index r, fan.current = some (index, r) → r.resultId ∈ h.log
  held : ∀ index d, fan.deferred.get? index = some d →
    ∃ c, h.children.get? d.workItemId = some c ∧ c.Defers turnId index fan.origin.epoch
  awaited : ∀ index d, fan.deferred.get? index = some d → ∃ r, workItemId r.turnId = d.workItemId ∧
    ((∃ role, fan.results.get? index = some (r, role)) ∨ fan.current = some (index, r))
  dated : ∀ index entry, fan.results.get? index = some entry → entry.1.originEpoch.isSome = true

/-- **The books agree with the session.** -/
structure Booked (h : CommitHost) : Prop extends Tidy h where
  earned : ∀ k w, h.state.ledger.childState k w = some .resultReady →
    ∃ c, h.children.get? w = some c ∧ c.settled = true
  child : ∀ w c, h.children.get? w = some c → ChildKept h w c
  fan : ∀ turnId fan, h.fanOuts.get? turnId = some fan → FanKept h turnId fan

theorem ChildKept.grows {w : String} {c : Child} (hk : ChildKept h w c) (hg : Grows W h h') : ChildKept h' w c where
  known hon := hg.known _ _ (hk.known (hg.enabled ▸ hon))
  retained := hk.retained
  spoken r reason hstage := hg.log _ (hk.spoken r reason hstage)

theorem FanKept.grows {turnId : String} {fan : FanOut} (hk : FanKept h turnId fan) (hg : Grows W h h')
    (hkeep : ∀ w c index, h.children.get? w = some c → c.stage = .deferred turnId index → h'.children.get? w = some c) :
    FanKept h' turnId fan where
  spoken index r hcurrent := hg.log _ (hk.spoken index r hcurrent)
  held index d hd := by
    obtain ⟨c, hc, hdefers⟩ := hk.held index d hd
    exact ⟨c, hkeep d.workItemId c index hc hdefers.stage, hdefers⟩
  awaited := hk.awaited
  dated := hk.dated

/-- A step that leaves the entries alone keeps the books, if what it readied is settled. -/
theorem Booked.frame (hb : Booked h) (hg : Grows W h h') (hchildren : h'.children = h.children)
    (hfanOuts : h'.fanOuts = h.fanOuts) (hW : ∀ w ∈ W, ∃ c, h.children.get? w = some c ∧ c.settled = true) :
    Booked h' where
  toTidy := hg.tidy
  earned k w hready := by
    rw [hchildren]
    rcases hg.ready k w hready with hready' | hmem
    · exact hb.earned k w hready'
    · exact hW w hmem
  child w c hc := (hb.child w c (hchildren ▸ hc)).grows hg
  fan turnId fan hfan := by
    refine (hb.fan turnId fan (hfanOuts ▸ hfan)).grows hg fun w c _ hc _ => ?_
    rw [hchildren]
    exact hc

theorem Booked.apart (hb : Booked h) (ha : Apart h h') : Booked h' :=
  hb.frame ha.grows ha.children ha.fanOuts fun w hw => absurd hw (Set.notMem_empty w)

/-- A step that rewrites the entry of one child. -/
theorem Booked.rewrite (hb : Booked h) (hg : Grows W h h') (w₀ : String) (c₀ : Child)
    (hchildren : h'.children = h.children.set w₀ c₀) (hW : ∀ w ∈ W, w = w₀ ∧ c₀.settled = true)
    (hsettled : ∀ c, h.children.get? w₀ = some c → c.settled = true → c₀.settled = true) (hkept : ChildKept h' w₀ c₀)
    (hfans : ∀ turnId fan, h'.fanOuts.get? turnId = some fan → FanKept h' turnId fan) : Booked h' where
  toTidy := hg.tidy
  earned k w hready := by
    rw [hchildren, Dict.get?_set]
    by_cases hw : w = w₀
    · subst hw
      rw [if_pos rfl]
      refine ⟨c₀, rfl, ?_⟩
      rcases hg.ready k w hready with hready' | hmem
      · obtain ⟨c, hc, hcs⟩ := hb.earned k w hready'
        exact hsettled c hc hcs
      · exact (hW w hmem).2
    · rw [if_neg hw]
      rcases hg.ready k w hready with hready' | hmem
      · exact hb.earned k w hready'
      · exact absurd (hW w hmem).1 hw
  child w c hc := by
    rw [hchildren, Dict.get?_set] at hc
    by_cases hw : w = w₀
    · rw [if_pos hw] at hc
      cases hc
      exact hw ▸ hkept
    · rw [if_neg hw] at hc
      exact (hb.child w c hc).grows hg
  fan := hfans

/-- The other fan-outs do not notice the entry of a child they do not wait for. -/
theorem Booked.fans_rewrite (hb : Booked h) (hg : Grows W h h') (w₀ : String) (c₀ : Child)
    (hchildren : h'.children = h.children.set w₀ c₀) {turnId : String} {fan : FanOut}
    (hfan : h.fanOuts.get? turnId = some fan)
    (hfree : ∀ c index, h.children.get? w₀ = some c → c.stage ≠ .deferred turnId index) : FanKept h' turnId fan := by
  refine (hb.fan turnId fan hfan).grows hg fun w c index hc hstage => ?_
  have hw : w ≠ w₀ := by
    rintro rfl
    exact hfree c index hc hstage
  rw [hchildren, Dict.get?_set, if_neg hw]
  exact hc

/-- A step that rewrites the entry of a child no fan-out waits for, and no fan-out. -/
theorem Booked.rewrite_child (hb : Booked h) (hg : Grows W h h') (w₀ : String) (c₀ : Child)
    (hchildren : h'.children = h.children.set w₀ c₀) (hfanOuts : h'.fanOuts = h.fanOuts)
    (hW : ∀ w ∈ W, w = w₀ ∧ c₀.settled = true)
    (hfree : ∀ c, h.children.get? w₀ = some c → (∀ turnId index, c.stage ≠ .deferred turnId index) ∧
      (c.settled = true → c₀.settled = true)) (hkept : ChildKept h' w₀ c₀) : Booked h' := by
  refine hb.rewrite hg w₀ c₀ hchildren hW (fun c hc => (hfree c hc).2) hkept fun turnId fan hfan => ?_
  exact hb.fans_rewrite hg w₀ c₀ hchildren (hfanOuts ▸ hfan) fun c index hc => (hfree c hc).1 turnId index

/-- A step that rewrites fan-outs only. -/
theorem Booked.refan (hb : Booked h) (hg : Grows ∅ h h') (hchildren : h'.children = h.children)
    (hfans : ∀ turnId fan, h'.fanOuts.get? turnId = some fan → FanKept h' turnId fan) : Booked h' where
  toTidy := hg.tidy
  earned k w hready := by
    rcases hg.ready k w hready with hready' | hmem
    · rw [hchildren]
      exact hb.earned k w hready'
    · exact absurd hmem (Set.notMem_empty w)
  child w c hc := (hb.child w c (hchildren ▸ hc)).grows hg
  fan := hfans

/-! ## Statuses -/

/-- **Every `result_ready` speaks for a result of the log.** -/
def Honest (out : List Effect) : Prop :=
  ∀ e, Effect.status e ∈ out → e.report.state = .resultReady → ∃ id, e.canonical = some id ∧ id ∈ e.log

theorem Honest.append {out out' : List Effect} (ho : Honest out) (ho' : Honest out') : Honest (out ++ out') := by
  intro e he
  rcases List.mem_append.mp he with hmem | hmem
  · exact ho e hmem
  · exact ho' e hmem

theorem honest_nil : Honest [] := fun _ hmem => absurd hmem List.not_mem_nil

theorem Mute.honest {out : List Effect} (hm : Mute out) : Honest out := fun e hmem => absurd hmem (hm e)

theorem honest_emit {rep : ChildReport} {canonical : Option String} {now : ℚ}
    (hready : rep.state = .resultReady → ∃ id, canonical = some id ∧ id ∈ h.log) :
    Honest (h.emitWorkStatus cfg rep canonical now).2 := by
  rw [emitWorkStatus]
  split_ifs
  · intro e he hstate
    cases List.mem_singleton.mp he
    exact hready hstate
  · exact honest_nil

/-- What a step keeps: the books, and the honesty of what it emits. -/
structure Keeps (h : CommitHost) (out : CommitHost × List Effect) : Prop where
  booked : Booked out.1
  honest : Honest out.2
  grows : Grows Set.univ h out.1

theorem Booked.keeps_refl (hb : Booked h) : Keeps h (h, []) :=
  ⟨hb, honest_nil, hb.toTidy.grows_of_eq rfl rfl rfl⟩

theorem Booked.keeps_apart (hb : Booked h) (ha : Apart h h') : Keeps h (h', []) :=
  ⟨hb.apart ha, honest_nil, ha.grows.widen⟩

theorem Keeps.trans {out out' : CommitHost × List Effect} (hk : Keeps h out) (hk' : Keeps out.1 out') :
    Keeps h (out'.1, out.2 ++ out'.2) :=
  ⟨hk'.booked, hk.honest.append hk'.honest, hk.grows.trans hk'.grows⟩

/-- What `publish` does: the books are untouched, and only its own work item may become ready. -/
theorem Tidy.publish (ht : Tidy h) (cfg : RetentionConfig) (W : Set String) (w : String) (c : Child)
    (derived : Option Derived) (canonical : Option String) (now : ℚ) (hready : ∀ reason, derived = some (.resultReady, reason) →
      w ∈ W ∧ ∃ id, canonical = some id ∧ id ∈ h.log) :
    Grows W h (h.publish cfg w c derived canonical now).1 ∧
      (h.publish cfg w c derived canonical now).1.children = h.children ∧
      (h.publish cfg w c derived canonical now).1.fanOuts = h.fanOuts ∧
      Honest (h.publish cfg w c derived canonical now).2 := by
  rcases derived with _ | ⟨state, reason⟩
  · exact ⟨ht.grows_of_eq rfl rfl rfl, rfl, rfl, honest_nil⟩
  · rw [CommitHost.publish]
    have hspeaks : ∀ hstate : state = .resultReady, w ∈ W ∧ ∃ id, canonical = some id ∧ id ∈ h.log := by
      rintro rfl
      exact hready reason rfl
    exact ⟨ht.grows_emit _ canonical now fun hstate => (hspeaks hstate).1, children_emitWorkStatus _ _ _,
      fanOuts_emitWorkStatus _ _ _, honest_emit fun hstate => (hspeaks hstate).2⟩

/-! ## Delegation -/

/-- **A child enters the books on record.** -/
theorem Booked.delegate (hb : Booked h) {w : String} {c : Child} (hfresh : h.children.get? w = none)
    (hstage : c.stage = .searching) (hretained : c.retained = false) (now : ℚ) : Keeps h (h.delegate cfg w c now) := by
  rw [CommitHost.delegate]
  set h₁ : CommitHost := { h with knownIds := insert w h.knownIds }.note w c
  have hg₁ : Grows ∅ h h₁ := hb.toTidy.grows_of_eq rfl rfl rfl
  set rep : ChildReport := c.report w (some c.workerId) (.routing, none)
  have hg₂ : Grows ∅ h₁ (h₁.emitWorkStatus cfg rep none now).1 := hg₁.tidy.grows_emit_idle rep none now nofun
  have hg := hg₁.trans hg₂
  refine ⟨hb.rewrite_child hg w c ?_ (fanOuts_emitWorkStatus _ _ _) (fun w hw => absurd hw (Set.notMem_empty w)) ?_ ?_,
    honest_emit nofun, hg.widen⟩
  · rw [children_emitWorkStatus]
    rfl
  · intro c' hc'
    rw [hfresh] at hc'
    cases hc'
  · have hcold : WorkStatusState.routing ∈ WorkStatusState.coldStart := by decide
    refine ⟨fun hon => ?_, fun hr => ?_, fun r reason hspeaking => ?_⟩
    · rw [hg₂.enabled] at hon
      rw [emitWorkStatus_on hon]
      dsimp only
      rw [ledger_setChildWorkStatus]
      exact (hg₁.tidy.authored.filing cfg rep now).known_of_coldStart (c.valid_report w _ nofun) hcold
    · rw [hretained] at hr
      cases hr
    · rw [hstage] at hspeaking
      cases hspeaking

/-! ## A turn with one child -/

theorem deriveStatus_cancelled (handler : Handler) (outcome terminalKind : Option WorkOutcome) :
    handler.deriveStatus outcome true terminalKind = some (.cancelled, none) := by
  cases handler with
  | transcript => simp [Handler.deriveStatus, statusOmittedWhileRetained, workStatusForOutcome]
  | pending => simp [Handler.deriveStatus, childWorkStatusAfterDispatch, workStatusForOutcome]

theorem workStatusAfterCommitFailure_ne (derived : Option Derived) (reason : Option TerminalReason) :
    workStatusAfterCommitFailure derived ≠ some (.resultReady, reason) := by
  rcases derived with _ | ⟨state, reason'⟩
  · exact nofun
  · rw [workStatusAfterCommitFailure]
    dsimp only
    split_ifs with hlive hcancelled
    · exact nofun
    · rw [hcancelled]
      exact nofun
    · exact nofun

/-- A child that has nothing pending any more, and what it publishes. -/
theorem Booked.close (hb : Booked h) {w : String} {c₁ : Child} (hc : h.children.get? w = some c₁) (c : Child)
    (hkey : c.key w = c₁.key w) (hstage : c.stage = .closed)
    (hfree : ∀ turnId index, c₁.stage ≠ .deferred turnId index) {derived : Option Derived} {canonical : Option String}
    (c₂ : Child) (now : ℚ) (hready : ∀ reason, derived = some (.resultReady, reason) →
      ∃ id, canonical = some id ∧ id ∈ h.log) : Keeps h ((h.note w c).publish cfg w c₂ derived canonical now) := by
  have hg₁ : Grows {w} h (h.note w c) := hb.toTidy.grows_of_eq rfl rfl rfl
  obtain ⟨hg₂, hchildren, hfanOuts, hhonest⟩ :=
    hg₁.tidy.publish cfg {w} w c₂ derived canonical now fun reason hderived => ⟨Set.mem_singleton w, hready reason hderived⟩
  have hg := hg₁.trans hg₂
  have hsettled : c.settled = true := by rw [Child.settled, hstage]
  refine ⟨hb.rewrite_child hg w c hchildren hfanOuts (fun w' hw' => ⟨hw', hsettled⟩) ?_ ?_, hhonest,
    hg.mono (Set.subset_univ _)⟩
  · intro c' hc'
    rw [hc] at hc'
    cases hc'
    exact ⟨hfree, fun _ => hsettled⟩
  · refine ⟨fun hon => ?_, fun _ => hsettled, fun r reason hspeaking => ?_⟩
    · rw [hkey]
      exact hg.known _ _ ((hb.child w c₁ hc).known (hg.enabled ▸ hon))
    · rw [hstage] at hspeaking
      cases hspeaking

/-- The entry of a child before its turn settled it: nothing waits for it, and it is not ready. -/
structure Fronted (h : CommitHost) (w : String) (c : Child) : Prop where
  entry : ∃ c₁, h.children.get? w = some c₁ ∧ c₁.stage = .searching ∧ c.key w = c₁.key w

theorem Fronted.apart {w : String} {c : Child} (hf : Fronted h w c) (ha : Apart h h') : Fronted h' w c := by
  obtain ⟨c₁, hc₁, hrest⟩ := hf.entry
  exact ⟨c₁, ha.children ▸ hc₁, hrest⟩

/-- A child is settled at once. -/
theorem Booked.close_fronted (hb : Booked h) {w : String} {c : Child} (hf : Fronted h w c) {derived : Option Derived}
    {canonical : Option String} (now : ℚ) (hready : ∀ reason, derived = some (.resultReady, reason) →
      ∃ id, canonical = some id ∧ id ∈ h.log) :
    Keeps h ((h.note w { c with stage := .closed }).publish cfg w c derived canonical now) := by
  obtain ⟨c₁, hc₁, hstage, hkey⟩ := hf.entry
  refine hb.close hc₁ { c with stage := .closed } hkey rfl (fun turnId index hdeferred => ?_) c now hready
  rw [hstage] at hdeferred
  cases hdeferred

/-- A child whose result is being spoken. -/
theorem Booked.speak_fronted (hb : Booked h) {w : String} {c : Child} (hf : Fronted h w c) (r : GroundedResult)
    (derived : Option Derived) (hlog : r.resultId ∈ h.log) : Booked (h.note w { c with stage := .speaking r derived }) := by
  obtain ⟨c₁, hc₁, hstage, hkey⟩ := hf.entry
  have hg : Grows ∅ h (h.note w { c with stage := .speaking r derived }) := hb.toTidy.grows_of_eq rfl rfl rfl
  refine hb.rewrite_child hg w { c with stage := .speaking r derived } rfl rfl
    (fun w' hw' => absurd hw' (Set.notMem_empty w')) (fun c' hc' => ?_) ⟨fun hon => ?_, fun _ => rfl, fun r' reason hspeaking => ?_⟩
  · rw [hc₁] at hc'
    cases hc'
    refine ⟨fun turnId index hdeferred => ?_, fun _ => rfl⟩
    rw [hstage] at hdeferred
    cases hdeferred
  · exact hkey ▸ (hb.child w c₁ hc₁).known hon
  · cases hspeaking
    exact hlog

/-- **The epilogue of a turn with one child keeps the books**, if it derived no `result_ready` for a marked
work item. -/
theorem Booked.finalizeSingleChildTurn (hb : Booked h) {w : String} {c : Child} (hf : Fronted h w c)
    (hepoch : r.originEpoch.isSome = true) (hw : workItemId r.turnId = w) (origin : Origin) (role : SpeechRole)
    {derived : Option Derived} (hmarked : w ∈ h.cancelledIds → ∀ reason, derived ≠ some (.resultReady, reason))
    (stamp : String) (fault : Option Fault) (now : ℚ) :
    Keeps h (h.finalizeSingleChildTurn cfg w c r origin role derived stamp fault now) := by
  obtain ⟨hapart, hmute, hsuppressed, hcommitted⟩ := hb.toTidy.commitAndSpeak r origin role true stamp fault
  rw [CommitHost.finalizeSingleChildTurn]
  rw [hw] at hsuppressed hcommitted
  generalize h.commitAndSpeak r origin role true stamp fault = attempted at *
  obtain ⟨h₁, attempt, out⟩ := attempted
  dsimp only at hapart hmute hsuppressed hcommitted ⊢
  have hb₁ := hb.apart hapart
  have hf₁ := hf.apart hapart
  have hfirst : Keeps h (h₁, out) := ⟨hb₁, hmute.honest, hapart.grows.widen⟩
  cases attempt with
  | speaking =>
    have hfree : w ∉ h.cancelledIds := fun hmem => by cases (hsuppressed hmem).2
    have hlog := (hcommitted hfree).2 hepoch nofun
    exact ⟨hb₁.speak_fronted hf₁ r derived hlog, hmute.honest,
      hapart.grows.widen.trans (hapart.grows.tidy.grows_of_eq rfl rfl rfl)⟩
  | raised =>
    exact hfirst.trans (hb₁.close_fronted hf₁ now fun reason hready =>
      absurd hready (workStatusAfterCommitFailure_ne derived reason))
  | suppressed =>
    refine hfirst.trans (hb₁.close_fronted hf₁ now fun reason hready => ?_)
    by_cases hmem : w ∈ h.cancelledIds
    · exact absurd hready (hmarked hmem reason)
    · exact absurd rfl (hcommitted hmem).1
  | returned =>
    have hfree : w ∉ h.cancelledIds := fun hmem => by cases (hsuppressed hmem).2
    have hlog := (hcommitted hfree).2 hepoch nofun
    exact hfirst.trans (hb₁.close_fronted hf₁ now fun _ _ => ⟨r.resultId, rfl, hlog⟩)

/-- The `background` of a retained child. -/
theorem Booked.background (hb : Booked h) (cfg : RetentionConfig) (w : String) (c : Child) (outcome : WorkOutcome) (now : ℚ) :
    let background :=
      if outcome = .retained then
        h.emitWorkStatus cfg (c.report w (some c.workerId) (.background, none)) none now
      else (h, [])
    Apart h background.1 ∧ Honest background.2 ∧ background.1.cancelledIds = h.cancelledIds ∧
      background.1.enableBackgroundStatus = h.enableBackgroundStatus := by
  dsimp only
  split_ifs
  · have hg : Grows ∅ h (h.emitWorkStatus cfg (c.report w (some c.workerId) (.background, none)) none now).1 :=
      hb.toTidy.grows_emit_idle _ none now nofun
    exact ⟨⟨hg, children_emitWorkStatus _ _ _, fanOuts_emitWorkStatus _ _ _⟩, honest_emit nofun,
      cancelledIds_emitWorkStatus _ _ _, hg.enabled⟩
  · exact ⟨hb.toTidy.apart_of_eq rfl rfl rfl rfl rfl, honest_nil, rfl, rfl⟩

theorem Booked.settleChild (hb : Booked h) {w : String} {c : Child} (hc : h.children.get? w = some c)
    (hstage : c.stage = .searching) (hepoch : r.originEpoch.isSome = true) (hw : workItemId r.turnId = w)
    (handler : Handler) (outcome : WorkOutcome) (origin : Origin) (stamp : String) (fault : Option Fault)
    (backgroundAt settledAt : ℚ) :
    Keeps h (h.settleChild cfg w c handler outcome r origin stamp fault backgroundAt settledAt) := by
  rw [CommitHost.settleChild]
  dsimp only
  set c' : Child := { c with retained := outcome = .retained }
  obtain ⟨hapart, hhonest, hmarks, -⟩ := hb.background cfg w c' outcome backgroundAt
  generalize (if outcome = .retained then
    h.emitWorkStatus cfg (c'.report w (some c'.workerId) (.background, none)) none backgroundAt else (h, []))
    = background at *
  obtain ⟨h₁, out⟩ := background
  dsimp only at hapart hhonest hmarks ⊢
  have hb₁ := hb.apart hapart
  have hf₁ : Fronted h₁ w c' := ⟨c, hapart.children ▸ hc, hstage, rfl⟩
  have hfirst : Keeps h (h₁, out) := ⟨hb₁, hhonest, hapart.grows.widen⟩
  split_ifs with hcapable
  · have hclosed : Keeps h₁ ((h₁.note w { c' with stage := .closed }).publish cfg w c' none none 0) :=
      hb₁.close_fronted hf₁ 0 nofun
    have hboth := hfirst.trans hclosed
    rwa [CommitHost.publish, List.append_nil] at hboth
  · refine hfirst.trans (hb₁.finalizeSingleChildTurn hf₁ hepoch hw origin _ (fun hmem reason => ?_) stamp fault settledAt)
    rw [hmarks] at hmem
    rw [decide_eq_true hmem, deriveStatus_cancelled]
    exact nofun

theorem Booked.finishChild (hb : Booked h) {w : String} {c : Child} (hc : h.children.get? w = some c)
    {derived : Option Derived} (hstage : c.stage = .speaking r derived) (finish : Finish) (now : ℚ) :
    Keeps h (h.finishChild cfg w c r derived finish now) := by
  have hfree : ∀ turnId index, c.stage ≠ .deferred turnId index := fun _ _ hdeferred => by
    rw [hstage] at hdeferred
    cases hdeferred
  cases finish with
  | returned =>
    refine hb.close hc { c with stage := .closed } rfl rfl hfree c now fun reason hready => ⟨r.resultId, rfl, ?_⟩
    exact (hb.child w c hc).spoken r reason (hready ▸ hstage)
  | raised => exact hb.close hc { c with stage := .closed } rfl rfl hfree c now fun reason hready => absurd hready (workStatusAfterCommitFailure_ne derived reason)
  | cancelled =>
    have hclosed : Keeps h ((h.note w { c with stage := .closed }).publish cfg w c none none 0) :=
      hb.close hc { c with stage := .closed } rfl rfl hfree c 0 nofun
    rwa [CommitHost.publish] at hclosed

/-! ## A fan-out -/

/-- Answering an item that nothing is held back for. -/
theorem FanKept.answer {turnId : String} {fan : FanOut} (hk : FanKept h turnId fan) {index : ℕ}
    (hnone : fan.deferred.get? index = none) {entry : GroundedResult × SpeechRole}
    (hentry : entry.1.originEpoch.isSome = true) :
    FanKept h turnId { fan with results := fan.results.set index entry } where
  spoken := hk.spoken
  held := hk.held
  awaited i d hd := by
    obtain ⟨r, hr, hwhere⟩ := hk.awaited i d hd
    refine ⟨r, hr, hwhere.imp_left fun ⟨role, hrole⟩ => ⟨role, ?_⟩⟩
    have hi : i ≠ index := by
      rintro rfl
      rw [hnone] at hd
      cases hd
    dsimp only
    rw [Dict.get?_set, if_neg hi]
    exact hrole
  dated i entry' hget := by
    dsimp only at hget
    rw [Dict.get?_set] at hget
    split_ifs at hget
    · cases hget
      exact hentry
    · exact hk.dated i entry' hget

/-- A step that rewrites one fan-out, and nothing else. -/
theorem Booked.rewrite_fan (hb : Booked h) (turnId : String) (fan : FanOut)
    (hkept : FanKept { h with fanOuts := h.fanOuts.set turnId fan } turnId fan) :
    Keeps h ({ h with fanOuts := h.fanOuts.set turnId fan }, []) := by
  have hg : Grows ∅ h { h with fanOuts := h.fanOuts.set turnId fan } := hb.toTidy.grows_of_eq rfl rfl rfl
  refine ⟨hb.refan hg rfl fun t fan' hfan' => ?_, honest_nil, hg.widen⟩
  dsimp only at hfan'
  rw [Dict.get?_set] at hfan'
  split_ifs at hfan' with ht
  · cases hfan'
    exact ht ▸ hkept
  · exact (hb.fan t fan' hfan').grows hg fun _ _ _ hc _ => hc

theorem Booked.answerItem (hb : Booked h) {turnId : String} {fan : FanOut} (hfan : h.fanOuts.get? turnId = some fan)
    {index : ℕ} (hnone : fan.deferred.get? index = none) {entry : GroundedResult × SpeechRole}
    (hentry : entry.1.originEpoch.isSome = true) :
    Keeps h ({ h with fanOuts := h.fanOuts.set turnId { fan with results := fan.results.set index entry } }, []) := by
  refine hb.rewrite_fan turnId _ ?_
  have hk := (hb.fan turnId fan hfan).answer hnone hentry
  exact ⟨hk.spoken, hk.held, hk.awaited, hk.dated⟩

/-- The status of an item is held back. -/
theorem Booked.defer (hb : Booked h) {turnId : String} {fan : FanOut} (hfan : h.fanOuts.get? turnId = some fan)
    {index : ℕ} (hnone : fan.deferred.get? index = none) {w : String} {c : Child} (hc : h.children.get? w = some c)
    (hstage : c.stage = .searching) (hturn : c.turnId = turnId) (hparent : c.parentWorkItemId = some (workItemId turnId))
    (hepoch : c.originEpoch = fan.origin.epoch) (hw : workItemId r.turnId = w) (hdated : r.originEpoch.isSome = true)
    (derived : Option Derived) :
    Keeps h (h.defer turnId fan index w c r derived, []) := by
  rcases derived with _ | derived
  · exact hb.answerItem hfan hnone hdated
  rw [CommitHost.defer]
  set c₀ : Child := { c with stage := .deferred turnId index }
  set fan' : FanOut := { fan with
    results := fan.results.set index (r, .result)
    deferred := fan.deferred.set index ⟨w, some c.workerId, derived⟩ }
  set h' : CommitHost := { h.note w c₀ with fanOuts := h.fanOuts.set turnId fan' }
  have hg : Grows ∅ h h' := hb.toTidy.grows_of_eq rfl rfl rfl
  have hfree : ∀ c' t index', h.children.get? w = some c' → c'.stage ≠ .deferred t index' := by
    intro c' t index' hc' hdeferred
    rw [hc] at hc'
    cases hc'
    rw [hstage] at hdeferred
    cases hdeferred
  refine ⟨hb.rewrite hg w c₀ rfl (fun w' hw' => absurd hw' (Set.notMem_empty w')) ?_ ⟨fun hon => ?_, fun hr => ?_, nofun⟩ ?_,
    honest_nil, hg.widen⟩
  · intro c' hc' hsettled
    rw [hc] at hc'
    cases hc'
    rw [Child.settled, hstage] at hsettled
    cases hsettled
  · exact (hb.child w c hc).known hon
  · have hsettled := (hb.child w c hc).retained hr
    rw [Child.settled, hstage] at hsettled
    cases hsettled
  · intro t fan₁ hfan₁
    dsimp only [h'] at hfan₁
    rw [Dict.get?_set] at hfan₁
    split_ifs at hfan₁ with ht
    · subst ht
      cases hfan₁
      have hold := hb.fans_rewrite hg w c₀ rfl hfan fun c' index' hc' => hfree c' t index' hc'
      refine ⟨hold.spoken, fun i d hd => ?_, fun i d hd => ?_, ((hb.fan t fan hfan).answer hnone hdated).dated⟩
      · dsimp only [fan'] at hd ⊢
        rw [Dict.get?_set] at hd
        split_ifs at hd with hi
        · cases hd
          refine ⟨c₀, (Dict.get?_set _ _ _ _).trans (if_pos rfl), ?_, hturn, hparent, hepoch⟩
          rw [hi]
        · exact hold.held i d hd
      · dsimp only [fan'] at hd ⊢
        rw [Dict.get?_set] at hd
        rw [Dict.get?_set]
        split_ifs at hd with hi
        · cases hd
          exact ⟨r, hw, Or.inl ⟨.result, if_pos hi⟩⟩
        · rw [if_neg hi]
          exact hold.awaited i d hd
    · exact hb.fans_rewrite hg w c₀ rfl hfan₁ fun c' index' hc' => hfree c' t index' hc'

theorem childWorkStatusAfterDispatch_retained_ne (cancelled : Bool) (reason : Option TerminalReason) :
    childWorkStatusAfterDispatch (some .retained) cancelled none ≠ some (.resultReady, reason) := by
  cases cancelled <;> simp [childWorkStatusAfterDispatch, workStatusForOutcome]

/-- **Joining an item keeps the books.** -/
theorem Booked.joinItem (hb : Booked h) {turnId : String} {fan : FanOut} (hfan : h.fanOuts.get? turnId = some fan)
    {index : ℕ} (hnone : fan.deferred.get? index = none) {w : String} {c : Child} (hc : h.children.get? w = some c)
    (hstage : c.stage = .searching) (hturn : c.turnId = turnId) (hparent : c.parentWorkItemId = some (workItemId turnId))
    (hepoch : c.originEpoch = fan.origin.epoch) {d : Disposition}
    (hd : ∀ r, d.result = some r → workItemId r.turnId = w ∧ r.originEpoch.isSome = true) (now : ℚ) :
    Keeps h (h.joinItem cfg turnId fan index w c now d) := by
  have hfree : ∀ t index', c.stage ≠ .deferred t index' := fun _ _ hdeferred => by
    rw [hstage] at hdeferred
    cases hdeferred
  cases d with
  | main r => exact hb.keeps_refl
  | completed outcome r => exact hb.defer hfan hnone hc hstage hturn hparent hepoch (hd r rfl).1 (hd r rfl).2 _
  | failed outcome r => exact hb.defer hfan hnone hc hstage hturn hparent hepoch (hd r rfl).1 (hd r rfl).2 _
  | missing =>
    rw [CommitHost.joinItem]
    refine hb.close hc { c with stage := .closed, retained := true } rfl rfl hfree c now fun reason hready => ?_
    split_ifs at hready <;> cases hready
  | pending notice =>
    rw [CommitHost.joinItem]
    split_ifs
    · have hsame : Keeps h ({ h with fanOuts := h.fanOuts.set turnId { fan with results := fan.results } }, []) := by
        have hk := hb.fan turnId fan hfan
        exact hb.rewrite_fan turnId _ ⟨hk.spoken, hk.held, hk.awaited, hk.dated⟩
      exact hsame.trans (hsame.booked.close hc { c with stage := .closed, retained := true } rfl rfl hfree c now
        fun reason hready => absurd hready (childWorkStatusAfterDispatch_retained_ne _ reason))
    · let fan' : FanOut := { fan with results := fan.results.set index (notice, .timeoutNotice) }
      have hanswered : Keeps h ({ h with fanOuts := h.fanOuts.set turnId fan' }, []) :=
        hb.answerItem hfan hnone (hd notice rfl).2
      exact hanswered.trans (hanswered.booked.close hc { c with stage := .closed, retained := true } rfl rfl hfree c now
        fun reason hready => absurd hready (childWorkStatusAfterDispatch_retained_ne _ reason))

/-- **Concluding an item keeps the books**: its entry is closed, and its status goes out. -/
theorem Booked.concludeItem (hb : Booked h) {turnId : String} (fan : FanOut) {index : ℕ}
    (hheld : ∀ i d, fan.deferred.get? i = some d →
      ∃ c, h.children.get? d.workItemId = some c ∧ c.Defers turnId i fan.origin.epoch)
    (hawaited : ∀ i d, fan.deferred.get? i = some d → i ≠ index →
      ∃ r, workItemId r.turnId = d.workItemId ∧ ∃ role, fan.results.get? i = some (r, role))
    (hdated : ∀ i entry, fan.results.get? i = some entry → entry.1.originEpoch.isSome = true) (attempt : Attempt)
    (hready : ∀ d reason, fan.deferred.get? index = some d →
      itemStatus d r attempt = (.resultReady, reason) → r.resultId ∈ h.log) (now : ℚ) :
    Keeps h (h.concludeItem cfg turnId fan index r attempt now) := by
  rw [CommitHost.concludeItem]
  dsimp only
  set fan' : FanOut := { fan with deferred := fan.deferred.pop index, current := none }
  have hpopped : ∀ i d, fan'.deferred.get? i = some d → i ≠ index ∧ fan.deferred.get? i = some d := by
    intro i d hd
    dsimp only [fan'] at hd
    rw [Dict.get?_pop] at hd
    split_ifs at hd with hi
    exact ⟨hi, hd⟩
  rcases hd : fan.deferred.get? index with _ | d
  · refine hb.rewrite_fan turnId fan' ⟨nofun, fun i d hd => hheld i d (hpopped i d hd).2, fun i d hd => ?_, hdated⟩
    obtain ⟨r', hr', hrole⟩ := hawaited i d (hpopped i d hd).2 (hpopped i d hd).1
    exact ⟨r', hr', Or.inl hrole⟩
  · obtain ⟨c, hc, hdefers⟩ := hheld index d hd
    dsimp only
    rw [hc]
    dsimp only
    set c₀ : Child := { c with stage := .closed }
    set h₁ : CommitHost := { h with fanOuts := h.fanOuts.set turnId fan' }.note d.workItemId c₀
    have hg₁ : Grows {d.workItemId} h h₁ := hb.toTidy.grows_of_eq rfl rfl rfl
    set rep := fan.report turnId d (itemStatus d r attempt)
    have hg₂ : Grows {d.workItemId} h₁ (h₁.emitWorkStatus cfg rep (some r.resultId) now).1 :=
      hg₁.tidy.grows_emit rep _ now fun _ => Set.mem_singleton d.workItemId
    have hg := hg₁.trans hg₂
    have hchildren : (h₁.emitWorkStatus cfg rep (some r.resultId) now).1.children = h.children.set d.workItemId c₀ :=
      children_emitWorkStatus _ _ _
    refine ⟨hb.rewrite hg d.workItemId c₀ hchildren (fun w hw => ⟨hw, rfl⟩) (fun _ _ _ => rfl)
      ⟨fun hon => ?_, fun _ => rfl, nofun⟩ ?_, honest_emit fun hstate => ⟨r.resultId, rfl, ?_⟩,
      hg.mono (Set.subset_univ _)⟩
    · exact hg.known _ _ ((hb.child d.workItemId c hc).known (hg.enabled ▸ hon))
    · intro t fan₁ hfan₁
      rw [fanOuts_emitWorkStatus] at hfan₁
      dsimp only [h₁, note] at hfan₁
      rw [Dict.get?_set] at hfan₁
      split_ifs at hfan₁ with ht
      · subst ht
        cases hfan₁
        refine ⟨nofun, fun i d' hd' => ?_, fun i d' hd' => ?_, hdated⟩
        · obtain ⟨hi, hd'⟩ := hpopped i d' hd'
          obtain ⟨c', hc', hdefers'⟩ := hheld i d' hd'
          have hw : d'.workItemId ≠ d.workItemId := by
            intro hsame
            rw [hsame, hc] at hc'
            cases hc'
            have hstages := hdefers.stage.symm.trans hdefers'.stage
            cases hstages
            exact hi rfl
          refine ⟨c', ?_, hdefers'⟩
          rw [hchildren, Dict.get?_set, if_neg hw]
          exact hc'
        · obtain ⟨r', hr', hrole⟩ := hawaited i d' (hpopped i d' hd').2 (hpopped i d' hd').1
          exact ⟨r', hr', Or.inl hrole⟩
      · refine hb.fans_rewrite hg d.workItemId c₀ hchildren hfan₁ fun c' index' hc' hdeferred => ht ?_
        rw [hc] at hc'
        cases hc'
        have hstages := hdefers.stage.symm.trans hdeferred
        cases hstages
        rfl
    · rcases hitem : itemStatus d r attempt with ⟨state, reason⟩
      have hstate' : state = .resultReady := by
        have hrep : rep.state = (itemStatus d r attempt).1 := rfl
        rw [hrep, hitem] at hstate
        exact hstate
      exact hready d reason hd (hstate' ▸ hitem)

theorem FanOut.next_eq_some {fan : FanOut} {index : ℕ} {entry : GroundedResult × SpeechRole}
    (hnext : fan.next = some (index, entry)) : fan.results.get? index = some entry := by
  rw [FanOut.next] at hnext
  obtain ⟨i, hmin, hentry⟩ := Option.bind_eq_some_iff.mp hnext
  obtain ⟨entry', hget, heq⟩ := Option.map_eq_some_iff.mp hentry
  cases heq
  exact hget

theorem FanOut.next_ne_none {fan : FanOut} {index : ℕ} {entry : GroundedResult × SpeechRole}
    (hget : fan.results.get? index = some entry) : fan.next ≠ none := by
  intro hnone
  rw [FanOut.next] at hnone
  have hmem : index ∈ fan.results.keys := Dict.mem_keys.mpr (by rw [hget]; rfl)
  rcases hmin : fan.results.keys.min? with _ | least
  · rw [List.min?_eq_none_iff.mp hmin] at hmem
    cases hmem
  · rw [hmin, Option.bind_some, Option.map_eq_none_iff] at hnone
    have hleast : least ∈ fan.results.keys := List.min?_mem hmin
    rw [Dict.mem_keys, hnone] at hleast
    cases hleast

/-- The status an item ends with is `result_ready` only if that was held back and its commit came through. -/
theorem itemStatus_ready {d : Deferred} {attempt : Attempt} {reason : Option TerminalReason}
    (hstatus : itemStatus d r attempt = (.resultReady, reason)) (hd : d.workItemId = workItemId r.turnId) :
    attempt ≠ .raised ∧ attempt ≠ .suppressed := by
  refine ⟨?_, ?_⟩
  · rintro rfl
    cases hstatus
  · rintro rfl
    rw [itemStatus, if_pos hd] at hstatus
    cases hstatus

/-- What an item that is committed leaves behind in its fan-out. -/
theorem Booked.popItem (hb : Booked h) {turnId : String} {fan : FanOut} (hfan : h.fanOuts.get? turnId = some fan)
    {index : ℕ} (hcurrent : fan.current = none) {i : ℕ} {d : Deferred} (hd : fan.deferred.get? i = some d)
    (hi : i ≠ index) :
    ∃ r, workItemId r.turnId = d.workItemId ∧ ∃ role, (fan.results.pop index).get? i = some (r, role) := by
  obtain ⟨r, hr, ⟨role, hrole⟩ | hspeaking⟩ := (hb.fan turnId fan hfan).awaited i d hd
  · refine ⟨r, hr, role, ?_⟩
    rw [Dict.get?_pop, if_neg hi]
    exact hrole
  · rw [hcurrent] at hspeaking
    cases hspeaking

theorem Booked.dated_pop (hb : Booked h) {turnId : String} {fan : FanOut} (hfan : h.fanOuts.get? turnId = some fan)
    (index : ℕ) : ∀ i entry, (fan.results.pop index).get? i = some entry → entry.1.originEpoch.isSome = true := by
  intro i entry hget
  rw [Dict.get?_pop] at hget
  split_ifs at hget
  exact (hb.fan turnId fan hfan).dated i entry hget

/-- The work item a held back status belongs to is the one its result is committed under. -/
theorem Booked.item_eq (hb : Booked h) {turnId : String} {fan : FanOut} (hfan : h.fanOuts.get? turnId = some fan)
    {index : ℕ} (hcurrent : fan.current = none) {d : Deferred} (hd : fan.deferred.get? index = some d)
    {role : SpeechRole} (hget : fan.results.get? index = some (r, role)) : d.workItemId = workItemId r.turnId := by
  obtain ⟨r', hr', ⟨role', hrole⟩ | hspeaking⟩ := (hb.fan turnId fan hfan).awaited index d hd
  · rw [hget] at hrole
    cases hrole
    exact hr'.symm
  · rw [hcurrent] at hspeaking
    cases hspeaking

/-- **One round of the loop keeps the books.** -/
theorem Booked.commitItem (hb : Booked h) {turnId : String} {fan : FanOut} (hfan : h.fanOuts.get? turnId = some fan)
    (hcurrent : fan.current = none) {index : ℕ} {role : SpeechRole} (hget : fan.results.get? index = some (r, role))
    (hepoch : r.originEpoch.isSome = true) (stamp : String) (fault : Option Fault) (now : ℚ) :
    Keeps h (h.commitItem cfg turnId fan index r role stamp fault now) := by
  obtain ⟨hapart, hmute, hsuppressed, hcommitted⟩ := hb.toTidy.commitAndSpeak r fan.origin role true stamp fault
  rw [CommitHost.commitItem]
  dsimp only
  generalize h.commitAndSpeak r fan.origin role true stamp fault = attempted at *
  obtain ⟨h₁, attempt, out⟩ := attempted
  dsimp only at hapart hmute hsuppressed hcommitted ⊢
  have hb₁ := hb.apart hapart
  have hfan₁ : h₁.fanOuts.get? turnId = some fan := hapart.fanOuts ▸ hfan
  have hfirst : Keeps h (h₁, out) := ⟨hb₁, hmute.honest, hapart.grows.widen⟩
  have hlog : attempt ≠ .raised → attempt ≠ .suppressed → r.resultId ∈ h₁.log := by
    intro hraised hsup
    by_cases hmem : workItemId r.turnId ∈ h.cancelledIds
    · have hout := (hsuppressed hmem).2
      cases hout
      exact absurd rfl hsup
    · exact (hcommitted hmem).2 hepoch hraised
  have hconcluded : ∀ attempt, (attempt ≠ .raised → attempt ≠ .suppressed → r.resultId ∈ h₁.log) →
      Keeps h₁ (h₁.concludeItem cfg turnId { fan with results := fan.results.pop index, looping := true } index r
        attempt now) := by
    intro attempt hlog
    refine hb₁.concludeItem { fan with results := fan.results.pop index, looping := true }
      (hb₁.fan turnId fan hfan₁).held (fun i d hd hi => hb₁.popItem hfan₁ hcurrent hd hi)
      (hb₁.dated_pop hfan₁ index) attempt
      (fun d reason hd hstatus => ?_) now
    obtain ⟨hraised, hsup⟩ := itemStatus_ready hstatus (hb₁.item_eq hfan₁ hcurrent hd hget)
    exact hlog hraised hsup
  cases attempt with
  | speaking =>
    have hk := hb₁.fan turnId fan hfan₁
    refine ⟨(hb₁.rewrite_fan turnId { fan with
        results := fan.results.pop index, looping := true, current := some (index, r) }
      ⟨fun i r' hr' => ?_, hk.held, fun i d hd => ?_, hb₁.dated_pop hfan₁ index⟩).booked, hmute.honest,
      hapart.grows.widen.trans (hapart.grows.tidy.grows_of_eq rfl rfl rfl)⟩
    · cases hr'
      exact hlog nofun nofun
    · by_cases hi : i = index
      · subst hi
        exact ⟨r, (hb₁.item_eq hfan₁ hcurrent hd hget).symm, Or.inr rfl⟩
      · obtain ⟨r', hr', hrole⟩ := hb₁.popItem hfan₁ hcurrent hd hi
        exact ⟨r', hr', Or.inl hrole⟩
  | raised => exact hfirst.trans (hconcluded .raised hlog)
  | suppressed => exact hfirst.trans (hconcluded .suppressed hlog)
  | returned => exact hfirst.trans (hconcluded .returned hlog)

theorem Booked.finishItem (hb : Booked h) {turnId : String} {fan : FanOut} (hfan : h.fanOuts.get? turnId = some fan)
    {index : ℕ} (hcurrent : fan.current = some (index, r)) (finish : Finish) (now : ℚ) :
    Keeps h (h.finishItem cfg turnId fan index r finish now) := by
  have hk := hb.fan turnId fan hfan
  have hconcluded : ∀ attempt, Keeps h (h.concludeItem cfg turnId fan index r attempt now) := by
    intro attempt
    refine hb.concludeItem fan hk.held (fun i d hd hi => ?_) hk.dated attempt (fun _ _ _ _ => hk.spoken index r hcurrent) now
    obtain ⟨r', hr', hrole | hspeaking⟩ := hk.awaited i d hd
    · exact ⟨r', hr', hrole⟩
    · rw [hcurrent] at hspeaking
      cases hspeaking
      exact absurd rfl hi
  cases finish with
  | returned => exact hconcluded .returned
  | raised => exact hconcluded .raised
  | cancelled =>
    rw [CommitHost.finishItem]
    have hg : Grows ∅ h { h with fanOuts := h.fanOuts.pop turnId } := hb.toTidy.grows_of_eq rfl rfl rfl
    refine ⟨hb.refan hg rfl fun t fan' hfan' => ?_, honest_nil, hg.widen⟩
    rw [Dict.get?_pop] at hfan'
    split_ifs at hfan'
    exact (hb.fan t fan' hfan').grows hg fun _ _ _ hc _ => hc

/-- **The sweep finds nothing**: a status is held back only for an item the loop comes to. -/
theorem Booked.sweepItem (hb : Booked h) {turnId : String} {fan : FanOut} (hfan : h.fanOuts.get? turnId = some fan)
    (hcurrent : fan.current = none) (hnext : fan.next = none) (index : ℕ) (now : ℚ) :
    h.sweepItem cfg turnId fan index now = (h, []) := by
  rw [CommitHost.sweepItem]
  rcases hd : fan.deferred.get? index with _ | d
  · rfl
  · obtain ⟨r, -, ⟨role, hrole⟩ | hspeaking⟩ := (hb.fan turnId fan hfan).awaited index d hd
    · exact absurd hnext (FanOut.next_ne_none hrole)
    · rw [hcurrent] at hspeaking
      cases hspeaking

/-! ## A late result -/

theorem Tidy.idleWorker (ht : Tidy h) (r : GroundedResult) (originEpoch : ℕ) : Apart h (h.idleWorker r originEpoch) := by
  have hsame : Apart h h := ht.apart_of_eq rfl rfl rfl rfl rfl
  rw [CommitHost.idleWorker]
  rcases h.state.workers.get? r.workerId with _ | worker
  · exact hsame
  · dsimp only
    split_ifs
    · have hworker := results_setWorker h.state { worker with status := "idle", latestResultId := some r.resultId }
      exact ht.apart_of_eq rfl hworker.1 hworker.2 rfl rfl
    · exact hsame

/-- What the branches of `commit_late_result_once` have in common: nothing is spoken, no status is among
their effects, and what is `committed` is in the log. -/
structure Verdict.Sound (h : CommitHost) (v : Verdict) : Prop where
  apart : Apart h v.host
  effects : ∀ e ∈ v.effects, ∃ w, e = .discardQueuedNotice w
  committed : v.commitOutcome = .committed → ∃ id, v.resultId = some id ∧ id ∈ v.host.log

/-- **Every branch of a late commit is sound.** -/
theorem Tidy.lateVerdict (ht : Tidy h) (w : String) (originEpoch : ℕ) {late : LateResult}
    (hepoch : ∀ r, late.result = some r → r.originEpoch.isSome = true) (wasCancelled : Bool) (stamp : String)
    (fault : Option Fault) : (h.lateVerdict w originEpoch late wasCancelled stamp fault).Sound h := by
  have hretire : ∀ {h₁ : CommitHost}, Tidy h₁ → Apart h₁ (h₁.retire w) := fun ht₁ => ht₁.apart_of_eq rfl rfl rfl rfl rfl
  rw [CommitHost.lateVerdict]
  by_cases herror : late.error.isSome = true
  · rw [if_pos herror]
    refine ⟨hretire ht, fun _ he => absurd he List.not_mem_nil, fun hcommitted => ?_⟩
    dsimp only at hcommitted
    split_ifs at hcommitted
  rw [if_neg herror]
  rcases hresult : late.result with _ | r
  · refine ⟨hretire ht, fun _ he => absurd he List.not_mem_nil, fun hcommitted => ?_⟩
    dsimp only at hcommitted
    split_ifs at hcommitted
  dsimp only
  by_cases hstale : r.originEpoch ≠ some originEpoch
  · rw [if_pos hstale]
    exact ⟨hretire ht, fun _ he => absurd he List.not_mem_nil, by rintro ⟨⟩⟩
  rw [if_neg hstale]
  by_cases hdup : (h.state.results.any fun item => item.resultId = r.resultId) = true
  · rw [if_pos hdup]
    exact ⟨hretire ht, fun _ he => absurd he List.not_mem_nil, by rintro ⟨⟩⟩
  rw [if_neg hdup]
  rcases wasCancelled with _ | _
  swap
  · rw [if_pos rfl]
    obtain ⟨hapart, hlog⟩ := (hretire ht).grows.tidy.commitResultState r stamp fault
    generalize (h.retire w).commitResultState r stamp fault = committed at *
    obtain ⟨h₁, raised⟩ := committed
    dsimp only at hapart hlog
    have happart := (hretire ht).trans hapart
    rcases raised with _ | _
    · have hidle := hapart.grows.tidy.idleWorker r originEpoch
      exact ⟨happart.trans hidle, fun _ he => absurd he List.not_mem_nil, fun _ => ⟨r.resultId, rfl, hidle.grows.log _ (hlog (hepoch r hresult) rfl)⟩⟩
    · exact ⟨happart, fun _ he => absurd he List.not_mem_nil, by rintro ⟨⟩⟩
  · rw [if_neg Bool.false_ne_true]
    obtain ⟨hapart, hlog⟩ := ht.commitResultState r stamp fault
    generalize h.commitResultState r stamp fault = committed at *
    obtain ⟨h₁, raised⟩ := committed
    dsimp only at hapart hlog
    have hretired := hretire hapart.grows.tidy
    rcases raised with _ | _
    · have hidle := hretired.grows.tidy.idleWorker r originEpoch
      refine ⟨(hapart.trans hretired).trans hidle, fun e he => ?_, fun _ => ⟨r.resultId, rfl, ?_⟩⟩
      · dsimp only at he
        split_ifs at he
        · exact ⟨w, List.mem_singleton.mp he⟩
        · cases he
      · exact hidle.grows.log _ (hretired.grows.log _ (hlog (hepoch r hresult) rfl))
    · exact ⟨hapart.trans hretired, fun _ he => absurd he List.not_mem_nil, by rintro ⟨⟩⟩

theorem lateCommitWorkStatus_ready {workOutcome : WorkOutcome} {commitOutcome : CommitOutcome}
    {terminalKind : Option WorkOutcome} {reason : Option TerminalReason}
    (hready : lateCommitWorkStatus (some workOutcome) (some commitOutcome) terminalKind = some (.resultReady, reason)) :
    commitOutcome = .committed := by
  rw [lateCommitWorkStatus, workStatusForOutcome] at hready
  split_ifs at hready with hdup hcancelled
  · cases hready
  · rename_i hcommitted
    simpa using hcommitted.2
  · cases hready
  · cases hready

/-- Taking a marker off. -/
theorem Tidy.apart_unmark (ht : Tidy h) (marked : Bool) (w : String) :
    Apart h (if marked = true then { h with cancelledIds := h.cancelledIds.erase w } else h) := by
  split_ifs
  · exact ht.apart_of_eq rfl rfl rfl rfl rfl
  · exact ht.apart_of_eq rfl rfl rfl rfl rfl

/-- A late commit speaks nothing. -/
theorem Tidy.commitLateResultOnce_speechless (ht : Tidy h) (w : String) (c : Child) {late : LateResult}
    (hepoch : ∀ r, late.result = some r → r.originEpoch.isSome = true) (stamp : String) (fault : Option Fault) (now : ℚ)
    (item : Enqueue) : Effect.speech item ∉ (h.commitLateResultOnce cfg w c late stamp fault now).2 := by
  rw [CommitHost.commitLateResultOnce]
  dsimp only
  have hapart₁ := ht.apart_unmark (late.error.isNone && decide (w ∈ h.cancelledIds)) w
  generalize (if (late.error.isNone && decide (w ∈ h.cancelledIds)) = true then
    { h with cancelledIds := h.cancelledIds.erase w } else h) = h₁ at hapart₁ ⊢
  have hsound := hapart₁.grows.tidy.lateVerdict w c.originEpoch hepoch (late.error.isNone && decide (w ∈ h.cancelledIds)) stamp fault
  generalize h₁.lateVerdict w c.originEpoch late (late.error.isNone && decide (w ∈ h.cancelledIds)) stamp fault = v at hsound
  have hquiet : Effect.speech item ∉ v.effects := by
    intro hmem
    obtain ⟨w', hw'⟩ := hsound.effects _ hmem
    cases hw'
  rcases lateCommitWorkStatus (some v.workOutcome) (some v.commitOutcome) late.terminalKind with _ | derived
  · exact hquiet
  · intro hmem
    rcases List.mem_append.mp hmem with hmem | hmem
    · exact hquiet hmem
    · rw [emitWorkStatus] at hmem
      split_ifs at hmem
      · cases List.mem_singleton.mp hmem
      · cases hmem

/-- **A late commit keeps the books.** -/
theorem Booked.commitLateResultOnce (hb : Booked h) {w : String} {c c₁ : Child} (hc : h.children.get? w = some c₁)
    (hsettled : c₁.settled = true) {late : LateResult}
    (hepoch : ∀ r, late.result = some r → r.originEpoch.isSome = true) (stamp : String) (fault : Option Fault) (now : ℚ) :
    Keeps h (h.commitLateResultOnce cfg w c late stamp fault now) := by
  rw [CommitHost.commitLateResultOnce]
  dsimp only
  have hapart₁ := hb.toTidy.apart_unmark (late.error.isNone && decide (w ∈ h.cancelledIds)) w
  generalize (if (late.error.isNone && decide (w ∈ h.cancelledIds)) = true then
    { h with cancelledIds := h.cancelledIds.erase w } else h) = h₁ at hapart₁ ⊢
  have hsound := hapart₁.grows.tidy.lateVerdict w c.originEpoch hepoch
    (late.error.isNone && decide (w ∈ h.cancelledIds)) stamp fault
  generalize h₁.lateVerdict w c.originEpoch late (late.error.isNone && decide (w ∈ h.cancelledIds)) stamp fault = v at hsound
  have hapart := hapart₁.trans hsound.apart
  have hbv := hb.apart hapart
  have hmute : Mute v.effects := by
    intro e hmem
    obtain ⟨w', hw'⟩ := hsound.effects _ hmem
    cases hw'
  have hfirst : Keeps h (v.host, v.effects) := ⟨hbv, hmute.honest, hapart.grows.widen⟩
  rcases hderived : lateCommitWorkStatus (some v.workOutcome) (some v.commitOutcome) late.terminalKind with
    _ | ⟨state, reason⟩
  · exact hfirst
  · have hg : Grows {w} v.host (v.host.emitWorkStatus cfg (c.report w none (state, reason)) v.resultId now).1 :=
      hbv.toTidy.grows_emit _ _ now fun _ => Set.mem_singleton w
    refine hfirst.trans ⟨hbv.frame hg (children_emitWorkStatus _ _ _) (fanOuts_emitWorkStatus _ _ _) ?_,
      honest_emit fun hstate => ?_, hg.mono (Set.subset_univ _)⟩
    · intro w' hw'
      rw [Set.mem_singleton_iff.mp hw']
      exact ⟨c₁, hapart.children ▸ hc, hsettled⟩
    · have hstate' : state = .resultReady := hstate
      exact hsound.committed (lateCommitWorkStatus_ready (hstate' ▸ hderived))

end CommitHost

end Session

end SubagentsLab

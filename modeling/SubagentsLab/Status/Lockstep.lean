import SubagentsLab.Status.Children

/-!
# Status/Lockstep — six containers, one set of keys

The containers of the ledger are keyed in lockstep: a key has a children map exactly when it has a parent
record, every record has a counter, a clock belongs to a restored record, and no key with a record is
tombstoned.  Every report and every prune keeps it, but for one exit: a report whose fields do not validate
raises after the children map of its key was created (`lockstep_report_iff`).
-/

namespace SubagentsLab

open Machinery

namespace WorkStatusLedger

variable {cfg : RetentionConfig} {l l' : WorkStatusLedger} {k : WorkStatusKey} {r : ChildReport} {now : ℚ}

/-! ## What a report does, exactly -/

/-- The clocks after a record is written: a restored key keeps the one it has, or starts one. -/
def stamped (l : WorkStatusLedger) (key : WorkStatusKey) (now : ℚ) : WorkStatusKey → Option ℚ :=
  if key ∈ l.nonauthoritativeKeys then
    Function.update l.nonauthoritativeAt key (some ((l.nonauthoritativeAt key).getD now))
  else l.nonauthoritativeAt

/-- The move a report asks of its child is in the table. -/
def ChildReport.Legal (l : WorkStatusLedger) (r : ChildReport) : Prop :=
  legalWorkStatusTransition (l.childState r.key r.workItemId) r.state = true

instance (l : WorkStatusLedger) (r : ChildReport) : Decidable (r.Legal l) := inferInstanceAs (Decidable (_ = true))

instance (r : ChildReport) : Decidable r.Valid := inferInstanceAs (Decidable (_ ∧ _ ∧ (_ → _)))

/-- The children of the report's key, with its child among them. -/
def ChildReport.Filed (l : WorkStatusLedger) (r : ChildReport) (children : Dict String WorkStatus) : Prop :=
  ∃ child, WorkStatus.validate r.turnId (some r.workItemId) r.workerId r.state 0 r.terminalReason r.originEpoch = .ok child ∧
    children = ((l.children r.key).getD ∅).set r.workItemId child

/-- **The ways a report can end**, with everything it leaves behind. -/
inductive ReportStep (cfg : RetentionConfig) (l : WorkStatusLedger) (r : ChildReport) (now : ℚ) :
    WorkStatusLedger → Except WorkStatusError (Option WorkStatus) → Prop
  | refused (hillegal : ¬r.Legal l) : ReportStep cfg l r now l (.ok none)
  | invalid (e : WorkStatusError) (hlegal : r.Legal l) (hinvalid : ¬r.Valid) :
      ReportStep cfg l r now (l.withChildren r.key (some ((l.children r.key).getD ∅))) (.error e)
  | shut (children : Dict String WorkStatus) (hlegal : r.Legal l) (hvalid : r.Valid) (hfiled : r.Filed l children)
      (hrecord : l.parents.get? r.key = none)
      (hwhy : r.key ∈ l.terminalKeys ∨
        r.key ∈ l.nonauthoritativeKeys ∧ (aggregate children.values).1.terminal = true) :
      ReportStep cfg l r now (l.withChildren r.key none) (.ok none)
  | kept (children : Dict String WorkStatus) (record : WorkStatusRecord) (hlegal : r.Legal l) (hvalid : r.Valid)
      (hfiled : r.Filed l children) (hrecord : l.parents.get? r.key = some record)
      (hkept : record.status.state = (aggregate children.values).1 ∨ record.status.state.terminal = true ∨
        r.key ∈ l.nonauthoritativeKeys ∧ (aggregate children.values).1.terminal = true) :
      ReportStep cfg l r now (l.withChildren r.key (some children)) (.ok none)
  | written (children : Dict String WorkStatus) (status : WorkStatus) (hlegal : r.Legal l) (hvalid : r.Valid)
      (hfiled : r.Filed l children)
      (hlive : ∀ old, l.parents.get? r.key = some old →
        old.status.state ≠ status.state ∧ old.status.state.terminal = false)
      (hfresh : l.parents.get? r.key = none → r.key ∉ l.terminalKeys)
      (hauth : r.key ∈ l.nonauthoritativeKeys → status.state.terminal = false)
      (hkey : restoredKey status = r.key) (hstate : status.state = (aggregate children.values).1)
      (hseq : status.eventSequence = (l.sequence r.key).getD 0 + 1) :
      ReportStep cfg l r now
        (evictWorkStatusOverflow cfg r.key (l.parents.set r.key ⟨status, if status.state.terminal then some now else none⟩).entries.length
          (l.withRecord r.key children ⟨status, if status.state.terminal then some now else none⟩ (l.stamped r.key now)))
        (.ok (some status))

/-- A report that validates has a child to file. -/
theorem ChildReport.valid_of_validate {child : WorkStatus}
    (h : WorkStatus.validate r.turnId (some r.workItemId) r.workerId r.state 0 r.terminalReason r.originEpoch = .ok child) :
    r.Valid := by
  rw [WorkStatus.validate] at h
  split_ifs at h with hturn hepoch hreason
  exact ⟨hturn, hepoch, hreason⟩

/-- The write of a parent record, where nothing stands against it. -/
theorem reportStep_written {child : WorkStatus} {children : Dict String WorkStatus} (hlegal : r.Legal l)
    (hvalidate : WorkStatus.validate r.turnId (some r.workItemId) r.workerId r.state 0 r.terminalReason r.originEpoch
      = .ok child)
    (hchildren : ((l.children r.key).getD ∅).set r.workItemId child = children)
    (hlive : ∀ old, l.parents.get? r.key = some old →
      old.status.state ≠ (aggregate children.values).1 ∧ old.status.state.terminal = false)
    (hfresh : l.parents.get? r.key = none → r.key ∉ l.terminalKeys)
    (hauth : r.key ∈ l.nonauthoritativeKeys → (aggregate children.values).1.terminal = false)
    {out : WorkStatusLedger × Except WorkStatusError (Option WorkStatus)}
    (hout : writeParent cfg (l.withChildren r.key (some children)) r.key now (aggregate children.values) = out) :
    ReportStep cfg l r now out.1 out.2 := by
  obtain ⟨status, hstatus⟩ := validate_parent hvalidate ((l.sequence r.key).getD 0 + 1) children.values
  obtain ⟨hturn, hitem, hstate, hseq, -, hepoch⟩ := WorkStatus.eq_of_validate hstatus
  have hkey : restoredKey status = r.key := by
    ext1
    · exact hepoch
    · exact hturn
    · simp [restoredKey, hitem]
  have hfiled : r.Filed l children := ⟨child, hvalidate, hchildren.symm⟩
  rw [← hseq] at hstatus
  rw [writeParent] at hout
  dsimp only at hout
  rw [← hseq, hstatus] at hout
  subst hout
  rw [← hstate] at hlive hauth ⊢
  exact .written children status hlegal (ChildReport.valid_of_validate hvalidate) hfiled hlive hfresh hauth hkey hstate hseq

/-- **Every report ends in one of the five ways.** -/
theorem setChildWorkStatus_step (cfg : RetentionConfig) (l : WorkStatusLedger) (r : ChildReport) (now : ℚ) :
    ReportStep cfg l r now (setChildWorkStatus cfg l r now).1 (setChildWorkStatus cfg l r now).2 := by
  rw [setChildWorkStatus]
  dsimp only
  rw [← childState_eq]
  by_cases hillegal : legalWorkStatusTransition (l.childState r.key r.workItemId) r.state = false
  · rw [if_pos hillegal]
    exact .refused (by rw [ChildReport.Legal, hillegal]; exact Bool.false_ne_true)
  rw [if_neg hillegal]
  have hlegal : r.Legal l := by simpa [ChildReport.Legal] using hillegal
  rcases hvalidate : WorkStatus.validate r.turnId (some r.workItemId) r.workerId r.state 0 r.terminalReason
    r.originEpoch with e | child
  · exact .invalid e hlegal (ChildReport.not_valid_of_error hvalidate)
  have hvalid := ChildReport.valid_of_validate hvalidate
  dsimp only
  generalize hchildren : ((l.children r.key).getD ∅).set r.workItemId child = children
  have hne : children.values ≠ [] := hchildren ▸ values_set_ne_nil _ _ _
  have hfiled : r.Filed l children := ⟨child, hvalidate, hchildren.symm⟩
  rw [reaggregateParent]
  simp only [Function.update_self, Option.getD_some, List.isEmpty_iff, hne, if_false]
  rcases hrecord : l.parents.get? r.key with _ | record
  · dsimp only
    split_ifs with hterminal hrestored
    · rw [Function.update_idem]
      exact .shut children hlegal hvalid hfiled hrecord (Or.inl hterminal)
    · rw [Function.update_idem]
      exact .shut children hlegal hvalid hfiled hrecord (Or.inr hrestored)
    · refine reportStep_written hlegal hvalidate hchildren ?_ (fun _ => hterminal) ?_ rfl
      · rw [hrecord]
        rintro _ ⟨⟩
      · simpa using hrestored
  · dsimp only
    split_ifs with hsame hterminal hrestored
    · exact .kept children record hlegal hvalid hfiled hrecord (Or.inl hsame)
    · exact .kept children record hlegal hvalid hfiled hrecord (Or.inr (Or.inl hterminal))
    · exact .kept children record hlegal hvalid hfiled hrecord (Or.inr (Or.inr hrestored))
    · refine reportStep_written hlegal hvalidate hchildren (fun old hold => ?_) ?_ ?_ rfl
      · rw [hrecord] at hold
        cases hold
        exact ⟨hsame, by simpa using hterminal⟩
      · rw [hrecord]
        rintro ⟨⟩
      · simpa using hrestored

/-! ## Lockstep -/

/-- **The containers agree on their keys.** -/
structure Lockstep (l : WorkStatusLedger) : Prop where
  keyed : ∀ k, (l.children k).isSome = (l.parents.get? k).isSome
  counted : ∀ k, (l.parents.get? k).isSome = true → (l.sequence k).isSome = true
  clocked : ∀ k, (l.nonauthoritativeAt k).isSome = true →
    (l.parents.get? k).isSome = true ∧ k ∈ l.nonauthoritativeKeys
  untombed : ∀ k, (l.parents.get? k).isSome = true → k ∉ l.terminalKeys

theorem lockstep_empty : Lockstep empty where
  keyed k := rfl
  counted k hk := by cases hk
  clocked k hk := by cases hk
  untombed k hk := by cases hk

theorem Lockstep.forgetWorkStatus (h : Lockstep l) (key : WorkStatusKey) : Lockstep (l.forgetWorkStatus key) := by
  have hkept : ∀ k, ((l.forgetWorkStatus key).parents.get? k).isSome = true → k ≠ key ∧ (l.parents.get? k).isSome = true := by
    intro k hk
    rw [get?_forgetWorkStatus] at hk
    by_cases hself : k = key
    · rw [if_pos hself] at hk
      cases hk
    · rw [if_neg hself] at hk
      exact ⟨hself, hk⟩
  refine ⟨fun k => ?_, fun k hk => h.counted k (hkept k hk).2, fun k hk => ?_, fun k hk hmem => ?_⟩
  · rw [children_forgetWorkStatus, get?_forgetWorkStatus]
    split_ifs
    · rfl
    · exact h.keyed k
  · have hat : (l.forgetWorkStatus key).nonauthoritativeAt k = if k = key then none else l.nonauthoritativeAt k :=
      Function.update_apply _ _ _ _
    rw [hat] at hk
    rw [get?_forgetWorkStatus]
    by_cases hself : k = key
    · rw [if_pos hself] at hk
      cases hk
    · rw [if_neg hself] at hk ⊢
      exact h.clocked k hk
  · rcases mem_terminalKeys_forgetWorkStatus.mp hmem with hold | ⟨rfl, -⟩
    · exact h.untombed k (hkept k hk).2 hold
    · exact (hkept k hk).1 rfl

theorem Lockstep.forgetAll (h : Lockstep l) (vs : List WorkStatusKey) : Lockstep (l.forgetAll vs) := by
  induction vs generalizing l with
  | nil => exact h
  | cons v vs ih => exact ih (h.forgetWorkStatus v)

/-- Rewriting the children of a key that has them, or of one that has no record. -/
theorem Lockstep.withChildren (h : Lockstep l) {key : WorkStatusKey} {children : Option (Dict String WorkStatus)}
    (hchildren : children.isSome = (l.parents.get? key).isSome) : Lockstep (l.withChildren key children) := by
  refine ⟨fun k => ?_, h.counted, h.clocked, h.untombed⟩
  dsimp only
  rw [Function.update_apply]
  split_ifs with hk
  · rw [hk]
    exact hchildren
  · exact h.keyed k

theorem isSome_stamped (l : WorkStatusLedger) (key k : WorkStatusKey) (now : ℚ) (hk : (l.stamped key now k).isSome = true) :
    (l.nonauthoritativeAt k).isSome = true ∨ k = key ∧ key ∈ l.nonauthoritativeKeys := by
  rw [stamped] at hk
  split_ifs at hk with hauth
  · rw [Function.update_apply] at hk
    split_ifs at hk with hself
    · exact Or.inr ⟨hself, hauth⟩
    · exact Or.inl hk
  · exact Or.inl hk

/-- **Writing a record keeps lockstep**, unless its key is tombstoned. -/
theorem Lockstep.withRecord (h : Lockstep l) {key : WorkStatusKey} (children : Dict String WorkStatus)
    (record : WorkStatusRecord) (now : ℚ) (hfresh : l.parents.get? key = none → key ∉ l.terminalKeys) :
    Lockstep (l.withRecord key children record (l.stamped key now)) := by
  have hparents : ∀ k, ((l.parents.set key record).get? k).isSome = true ↔ k = key ∨ (l.parents.get? k).isSome = true := by
    intro k
    rw [Dict.get?_set]
    split_ifs with hk
    · exact ⟨fun _ => Or.inl hk, fun _ => rfl⟩
    · exact ⟨Or.inr, fun hor => hor.resolve_left hk⟩
  refine ⟨fun k => ?_, fun k hk => ?_, fun k hk => ?_, fun k hk => ?_⟩
  · dsimp only
    rw [Function.update_apply, Dict.get?_set]
    split_ifs
    · rfl
    · exact h.keyed k
  · dsimp only at hk ⊢
    rw [Function.update_apply]
    split_ifs with hself
    · rfl
    · exact h.counted k (((hparents k).mp hk).resolve_left hself)
  · rcases isSome_stamped l key k now hk with hold | ⟨rfl, hauth⟩
    · exact ⟨(hparents k).mpr (Or.inr (h.clocked k hold).1), (h.clocked k hold).2⟩
    · exact ⟨(hparents k).mpr (Or.inl rfl), hauth⟩
  · rcases (hparents k).mp hk with rfl | hold
    · rcases hrecord : l.parents.get? k with _ | old
      · exact hfresh hrecord
      · exact h.untombed k (by rw [hrecord]; rfl)
    · exact h.untombed k hold

/-- **Restoring a record keeps lockstep.** -/
theorem Lockstep.restoreOne (h : Lockstep l) (hnone : l.terminalKeys = ∅) (restoredAt : ℚ) (status : WorkStatus) :
    Lockstep (restoreOne restoredAt l status) ∧ (restoreOne restoredAt l status).terminalKeys = ∅ := by
  have hchildren : (WorkStatusLedger.restoreOne restoredAt l status).children
      = Function.update l.children (restoredKey status) (some ((l.children (restoredKey status)).getD ∅)) := rfl
  have hparents : ∀ k, ((WorkStatusLedger.restoreOne restoredAt l status).parents.get? k).isSome = true ↔
      k = restoredKey status ∨ (l.parents.get? k).isSome = true := by
    intro k
    rw [WorkStatusLedger.restoreOne]
    dsimp only
    rw [Dict.get?_set]
    by_cases hself : k = restoredKey status
    · rw [if_pos hself]
      exact ⟨fun _ => Or.inl hself, fun _ => rfl⟩
    · rw [if_neg hself]
      exact ⟨Or.inr, fun hor => hor.resolve_left hself⟩
  refine ⟨⟨fun k => ?_, fun k hk => ?_, fun k hk => ?_, fun k _ => ?_⟩, hnone⟩
  · rw [Bool.eq_iff_iff, hparents, hchildren, Function.update_apply, ← h.keyed k]
    by_cases hself : k = restoredKey status
    · rw [if_pos hself]
      exact ⟨fun _ => Or.inl hself, fun _ => rfl⟩
    · rw [if_neg hself]
      exact ⟨Or.inr, fun hor => hor.resolve_left hself⟩
  · have hsequence : (WorkStatusLedger.restoreOne restoredAt l status).sequence
        = Function.update l.sequence (restoredKey status) (some status.eventSequence) := rfl
    rw [hsequence, Function.update_apply]
    by_cases hself : k = restoredKey status
    · rw [if_pos hself]
      rfl
    · rw [if_neg hself]
      exact h.counted k (((hparents k).mp hk).resolve_left hself)
  · have hat : (WorkStatusLedger.restoreOne restoredAt l status).nonauthoritativeAt
        = Function.update l.nonauthoritativeAt (restoredKey status) (some restoredAt) := rfl
    have hkeys : (WorkStatusLedger.restoreOne restoredAt l status).nonauthoritativeKeys
        = insert (restoredKey status) l.nonauthoritativeKeys := rfl
    rw [hat, Function.update_apply] at hk
    rw [hparents, hkeys, Finset.mem_insert]
    by_cases hself : k = restoredKey status
    · exact ⟨Or.inl hself, Or.inl hself⟩
    · rw [if_neg hself] at hk
      exact ⟨Or.inr (h.clocked k hk).1, Or.inr (h.clocked k hk).2⟩
  · have hkeys : (WorkStatusLedger.restoreOne restoredAt l status).terminalKeys = l.terminalKeys := rfl
    rw [hkeys, hnone]
    exact Finset.notMem_empty k

theorem lockstep_fromSnapshot (statuses : List WorkStatus) (restoredAt : ℚ) : Lockstep (fromSnapshot statuses restoredAt) := by
  have hboth : ∀ (l : WorkStatusLedger), Lockstep l → l.terminalKeys = ∅ →
      Lockstep (statuses.foldl (WorkStatusLedger.restoreOne restoredAt) l) := by
    induction statuses with
    | nil => exact fun l h _ => h
    | cons status statuses ih =>
      intro l h hnone
      obtain ⟨hnext, hnone'⟩ := h.restoreOne hnone restoredAt status
      exact ih _ hnext hnone'
  exact hboth empty lockstep_empty rfl

/-! ## One call -/

/-- **The report is proper**: it validates, or its move is illegal, or its key has a children map already. -/
def ChildReport.Proper (l : WorkStatusLedger) (r : ChildReport) : Prop :=
  r.Legal l → ¬r.Valid → (l.children r.key).isSome = true

instance (l : WorkStatusLedger) (r : ChildReport) : Decidable (r.Proper l) := inferInstanceAs (Decidable (_ → _ → _))

/-- A report that raises, or is refused. -/
def ChildReport.Fails (cfg : RetentionConfig) (l : WorkStatusLedger) (r : ChildReport) (now : ℚ) : Prop :=
  (∃ e, (setChildWorkStatus cfg l r now).2 = .error e) ∨ ¬r.Legal l

/-- What a report that raises leaves behind. -/
theorem withChildren_of_isSome {key : WorkStatusKey} (hsome : (l.children key).isSome = true) :
    l.withChildren key (some ((l.children key).getD ∅)) = l := by
  obtain ⟨children, hchildren⟩ := Option.isSome_iff_exists.mp hsome
  rw [hchildren, Option.getD_some, ← hchildren, WorkStatusLedger.withChildren, Function.update_eq_self]

/-- **A report keeps lockstep, and a failed one leaves no trace, exactly when it is proper.** -/
theorem lockstep_report_iff (h : Lockstep l) (cfg : RetentionConfig) (r : ChildReport) (now : ℚ) :
    (Lockstep (setChildWorkStatus cfg l r now).1 ∧ (r.Fails cfg l now → (setChildWorkStatus cfg l r now).1 = l)) ↔
      r.Proper l := by
  have hstep := setChildWorkStatus_step cfg l r now
  rw [ChildReport.Fails]
  generalize setChildWorkStatus cfg l r now = out at hstep
  obtain ⟨l', res⟩ := out
  dsimp only at hstep ⊢
  cases hstep with
  | refused hillegal => exact ⟨fun _ hlegal => absurd hlegal hillegal, fun _ => ⟨h, fun _ => rfl⟩⟩
  | invalid e hlegal hinvalid =>
    constructor
    · rintro ⟨hlock, -⟩ - -
      have hkeyed := hlock.keyed r.key
      dsimp only at hkeyed
      rw [Function.update_self] at hkeyed
      rw [h.keyed r.key]
      exact hkeyed.symm
    · intro hproper
      rw [withChildren_of_isSome (hproper hlegal hinvalid)]
      exact ⟨h, fun _ => rfl⟩
  | shut children hlegal hvalid hfiled hrecord hwhy =>
    refine ⟨fun _ _ hinvalid => absurd hvalid hinvalid, fun _ => ⟨h.withChildren (by rw [hrecord]; rfl), ?_⟩⟩
    rintro (⟨e, he⟩ | hillegal)
    · cases he
    · exact absurd hlegal hillegal
  | kept children record hlegal hvalid hfiled hrecord hkept =>
    refine ⟨fun _ _ hinvalid => absurd hvalid hinvalid, fun _ => ⟨h.withChildren (by rw [hrecord]; rfl), ?_⟩⟩
    rintro (⟨e, he⟩ | hillegal)
    · cases he
    · exact absurd hlegal hillegal
  | written children status hlegal hvalid hfiled hlive hfresh hauth hkey hstate hseq =>
    refine ⟨fun _ _ hinvalid => absurd hvalid hinvalid, fun _ => ⟨?_, ?_⟩⟩
    · obtain ⟨vs, hvs, -⟩ := exists_evicted cfg r.key
        (l.parents.set r.key ⟨status, if status.state.terminal then some now else none⟩).entries.length
        (l.withRecord r.key children ⟨status, if status.state.terminal then some now else none⟩ (l.stamped r.key now))
      rw [hvs]
      exact (h.withRecord children _ now hfresh).forgetAll vs
    · rintro (⟨e, he⟩ | hillegal)
      · cases he
      · exact absurd hlegal hillegal

end WorkStatusLedger

end SubagentsLab

import SubagentsLab.Status.Eviction
import SubagentsLab.Status.Join

/-!
# Status/Restored — the record of a key that came off the wire

A restored key stays non-authoritative for good, while its record comes and goes.  `Tenure` watches one key
along a run: the children reported since its record was made, and the instant the record's clock started.  The
ledger's own children and clock are those of the tenure at every moment, whatever is pruned, evicted and
cold-started around it (`tenured_run`).
-/

namespace SubagentsLab

open Machinery

namespace WorkStatusLedger

variable {cfg : RetentionConfig} {l l' : WorkStatusLedger} {k : WorkStatusKey} {r : ChildReport} {now : ℚ}

/-! ## The tenure of a record -/

/-- The reading of the clock a call makes. -/
def Event.clock : Event → ℚ
  | .report _ now => now
  | .prune now => now

/-- The children, with the child of a report among them if the report validates and its move is legal. -/
def ChildReport.fileUnder (r : ChildReport) (children : Dict String WorkStatus) : Dict String WorkStatus :=
  match WorkStatus.validate r.turnId (some r.workItemId) r.workerId r.state 0 r.terminalReason r.originEpoch with
  | .ok child =>
    if legalWorkStatusTransition ((children.get? r.workItemId).map (·.state)) r.state then
      children.set r.workItemId child
    else children
  | .error _ => children

/-- The children of a key after a call: those before, and the one it reports. -/
def Event.heardUnder (k : WorkStatusKey) (children : Dict String WorkStatus) : Event → Dict String WorkStatus
  | .report r _ => if r.key = k then r.fileUnder children else children
  | .prune _ => children

/-- One key, watched: the children reported since its record was made, and when the clock of that record
started.  Without a record there is neither. -/
structure Tenure where
  ledger : WorkStatusLedger
  children : Dict String WorkStatus
  since : Option ℚ

/-- What a call makes of the tenure: a record that is gone takes everything with it, and one that is new starts
its clock now. -/
def Tenure.step (cfg : RetentionConfig) (k : WorkStatusKey) (t : Tenure) (e : Event) : Tenure :=
  let ledger := (WorkStatusLedger.step cfg t.ledger e).1
  if (ledger.parents.get? k).isSome then
    { ledger
      children := e.heardUnder k t.children
      since := if (t.ledger.parents.get? k).isSome then t.since else some e.clock }
  else { ledger, children := ∅, since := none }

/-- The tenure after a run. -/
def Tenure.after (cfg : RetentionConfig) (k : WorkStatusKey) (t : Tenure) (es : List Event) : Tenure :=
  run (Tenure.step cfg k) t es

/-- **The ledger holds the tenure of a restored key.** -/
structure Tenured (k : WorkStatusKey) (l : WorkStatusLedger) (children : Dict String WorkStatus) (since : Option ℚ) :
    Prop where
  clocked : Clocked l
  restored : k ∈ l.nonauthoritativeKeys
  children_eq : (l.children k).getD ∅ = children
  unheard : l.parents.get? k = none → children = ∅
  since_eq : l.workStatusExpiryStamp k = since
  joined : ∀ record, l.parents.get? k = some record → record.status.state.terminal = false →
    (∃ c ∈ children.values, c.state.terminal = false) → record.status.state = (aggregate children.values).1

variable {children : Dict String WorkStatus} {since : Option ℚ}

/-- A key without a record has no clock. -/
theorem stamp_of_no_record (h : l.parents.get? k = none) : l.workStatusExpiryStamp k = none := by
  rw [workStatusExpiryStamp, h]

/-- Filing children elsewhere does not touch the tenure. -/
theorem Tenured.withChildren_ne (h : Tenured k l children since) {key : WorkStatusKey} (hk : k ≠ key)
    (cs : Option (Dict String WorkStatus)) : Tenured k (l.withChildren key cs) children since := by
  refine ⟨⟨h.clocked.terminal, h.clocked.restored⟩, h.restored, ?_, h.unheard, h.since_eq, h.joined⟩
  dsimp only
  rw [Function.update_apply, if_neg hk]
  exact h.children_eq

/-- **Dropping records ends the tenures of their keys, and no other.** -/
theorem Tenured.forgetAll (h : Tenured k l children since) (vs : List WorkStatusKey) :
    Tenured k (l.forgetAll vs) (if k ∈ vs then ∅ else children) (if k ∈ vs then none else since) := by
  have hrestored : k ∈ (l.forgetAll vs).nonauthoritativeKeys := by
    rw [nonauthoritativeKeys_forgetAll]
    exact h.restored
  by_cases hmem : k ∈ vs
  · have hgone : (l.forgetAll vs).parents.get? k = none := by rw [get?_forgetAll, if_pos hmem]
    rw [if_pos hmem, if_pos hmem]
    refine ⟨h.clocked.forgetAll vs, hrestored, ?_, fun _ => rfl, stamp_of_no_record hgone, fun record hrecord => ?_⟩
    · rw [children_forgetAll, if_pos hmem, Option.getD_none]
    · rw [hgone] at hrecord
      cases hrecord
  · rw [if_neg hmem, if_neg hmem]
    refine ⟨h.clocked.forgetAll vs, hrestored, ?_, fun hgone => ?_, ?_, fun record hrecord => ?_⟩
    · rw [children_forgetAll, if_neg hmem]
      exact h.children_eq
    · rw [get?_forgetAll, if_neg hmem] at hgone
      exact h.unheard hgone
    · rw [stamp_forgetAll, if_neg hmem]
      exact h.since_eq
    · rw [get?_forgetAll, if_neg hmem] at hrecord
      exact h.joined record hrecord

/-! ## One call -/

/-- What a legal report that validates files. -/
theorem ChildReport.Filed.fileUnder_eq {children' : Dict String WorkStatus} (hfiled : r.Filed l children') (hlegal : r.Legal l) :
    r.fileUnder ((l.children r.key).getD ∅) = children' := by
  obtain ⟨child, hvalidate, rfl⟩ := hfiled
  rw [ChildReport.Legal, childState_eq] at hlegal
  rw [ChildReport.fileUnder, hvalidate]
  exact if_pos hlegal

theorem ChildReport.fileUnder_of_illegal (h : ¬r.Legal l) :
    r.fileUnder ((l.children r.key).getD ∅) = (l.children r.key).getD ∅ := by
  rw [ChildReport.Legal, childState_eq] at h
  rw [ChildReport.fileUnder]
  split
  · exact if_neg h
  · rfl

theorem ChildReport.fileUnder_of_invalid (h : ¬r.Valid) (children : Dict String WorkStatus) :
    r.fileUnder children = children := by
  rw [ChildReport.fileUnder]
  split
  · rename_i child hvalidate
    exact absurd (ChildReport.valid_of_validate hvalidate) h
  · rfl

/-- **Writing the record of the key**: a live one keeps its clock, a new one starts it now. -/
theorem Tenured.withRecord (h : Tenured k l children since) (now : ℚ) {children' : Dict String WorkStatus} {status : WorkStatus}
    (hlive : ∀ old, l.parents.get? k = some old → old.status.state.terminal = false)
    (hterminal : status.state.terminal = false) (hstate : status.state = (aggregate children'.values).1) :
    Tenured k (l.withRecord k children' ⟨status, if status.state.terminal then some now else none⟩ (l.stamped k now))
      children' (if (l.parents.get? k).isSome then since else some now) := by
  have hself : (l.parents.set k ⟨status, if status.state.terminal then some now else none⟩).get? k
      = some ⟨status, none⟩ := by
    rw [Dict.get?_set, if_pos rfl, hterminal]
    rfl
  refine ⟨h.clocked.withRecord k children' status now, h.restored, ?_, fun hgone => ?_, ?_, fun record hrecord _ _ => ?_⟩
  · dsimp only
    rw [Function.update_self, Option.getD_some]
  · rw [hself] at hgone
    cases hgone
  · rw [workStatusExpiryStamp]
    dsimp only
    rw [hself]
    dsimp only
    rw [stamped_apply, if_pos ⟨rfl, h.restored⟩]
    -- A live restored record is on the clock of its key, and a key without a record has none.
    rcases hold : l.parents.get? k with _ | old
    · have hnone : l.nonauthoritativeAt k = none := by
        rw [← Option.not_isSome_iff_eq_none, h.clocked.restored k, hold]
        exact fun hc => by cases hc.2
      rw [hnone]
      rfl
    · have hsome : (l.nonauthoritativeAt k).isSome = true := (h.clocked.restored k).mpr ⟨h.restored, by rw [hold]; rfl⟩
      obtain ⟨c, hc⟩ := Option.isSome_iff_exists.mp hsome
      have hnot : old.terminalAt = none := by
        rw [← Option.not_isSome_iff_eq_none, h.clocked.terminal k old hold, hlive old hold]
        exact Bool.false_ne_true
      have hsince := h.since_eq
      rw [workStatusExpiryStamp, hold] at hsince
      dsimp only at hsince
      rw [hnot, hc] at hsince
      rw [hc, Option.getD_some, Option.isSome_some, if_pos rfl]
      exact hsince
  · rw [hself] at hrecord
    cases hrecord
    exact hstate

/-- A tenure the ledger holds is the one the watch comes to. -/
theorem Tenured.watched {t : Tenure} {e : Event} {children' : Dict String WorkStatus} {since' : Option ℚ}
    (h : Tenured k (WorkStatusLedger.step cfg t.ledger e).1 children' since')
    (hsome : ((WorkStatusLedger.step cfg t.ledger e).1.parents.get? k).isSome = true →
      children' = e.heardUnder k t.children ∧ since' = if (t.ledger.parents.get? k).isSome then t.since else some e.clock) :
    Tenured k (t.step cfg k e).ledger (t.step cfg k e).children (t.step cfg k e).since := by
  rw [Tenure.step]
  by_cases hrecord : ((WorkStatusLedger.step cfg t.ledger e).1.parents.get? k).isSome = true
  · obtain ⟨hchildren, hsince⟩ := hsome hrecord
    rw [if_pos hrecord, ← hchildren, ← hsince]
    exact h
  · have hnone := Option.not_isSome_iff_eq_none.mp hrecord
    rw [if_neg hrecord]
    dsimp only
    have hchildren := h.unheard hnone
    have hsince := h.since_eq
    rw [stamp_of_no_record hnone] at hsince
    rw [hchildren, ← hsince] at h
    exact h

/-- **One call keeps the tenure.** -/
theorem Tenured.step {t : Tenure} (h : Tenured k t.ledger t.children t.since) (cfg : RetentionConfig) (e : Event) :
    Tenured k (t.step cfg k e).ledger (t.step cfg k e).children (t.step cfg k e).since := by
  obtain ⟨l, children, since⟩ := t
  dsimp only at h
  cases e with
  | prune now =>
    refine Tenured.watched (h.forgetAll (l.parents.keys.filter (expired cfg l now))) fun hsome => ?_
    have hprune : (WorkStatusLedger.step cfg l (.prune now)).1 = l.forgetAll (l.parents.keys.filter (expired cfg l now)) := rfl
    rw [hprune, get?_forgetAll] at hsome
    by_cases hmem : k ∈ l.parents.keys.filter (expired cfg l now)
    · rw [if_pos hmem] at hsome
      cases hsome
    · rw [if_neg hmem] at hsome
      rw [if_neg hmem, if_neg hmem, if_pos hsome]
      exact ⟨rfl, rfl⟩
  | report r now =>
    have hstep := setChildWorkStatus_step cfg l r now
    rw [← step_report_ledger] at hstep
    have hsame : (l.parents.get? k).isSome = true →
        since = if (l.parents.get? k).isSome then since else some now := fun hsome => (if_pos hsome).symm
    generalize hl' : (WorkStatusLedger.step cfg l (.report r now)).1 = l' at hstep
    have hwatched : ∀ children' since', Tenured k l' children' since' → ((l'.parents.get? k).isSome = true →
        children' = (if r.key = k then r.fileUnder children else children) ∧
          since' = if (l.parents.get? k).isSome then since else some now) →
        Tenured k (Tenure.step cfg k ⟨l, children, since⟩ (.report r now)).ledger
          (Tenure.step cfg k ⟨l, children, since⟩ (.report r now)).children
          (Tenure.step cfg k ⟨l, children, since⟩ (.report r now)).since := by
      intro children' since' htenured hcases
      rw [← hl'] at htenured hcases
      exact htenured.watched hcases
    generalize (setChildWorkStatus cfg l r now).2 = res at hstep
    cases hstep with
    | refused hillegal =>
      refine hwatched children since h fun hsome => ⟨?_, hsame hsome⟩
      split_ifs with hkey
      · subst hkey
        rw [← h.children_eq, ChildReport.fileUnder_of_illegal hillegal]
      · rfl
    | invalid e hlegal hinvalid =>
      refine hwatched children since ?_ fun hsome => ⟨?_, hsame hsome⟩
      · refine ⟨⟨h.clocked.terminal, h.clocked.restored⟩, h.restored, ?_, h.unheard, h.since_eq, h.joined⟩
        dsimp only
        rw [Function.update_apply]
        split_ifs with hkey
        · rw [Option.getD_some, ← hkey]
          exact h.children_eq
        · exact h.children_eq
      · rw [ChildReport.fileUnder_of_invalid hinvalid, ite_self]
    | shut children' hlegal hvalid hfiled hrecord hwhy =>
      by_cases hkey : k = r.key
      · subst hkey
        refine hwatched ∅ none ?_ fun hsome => ?_
        · refine ⟨⟨h.clocked.terminal, h.clocked.restored⟩, h.restored, ?_, fun _ => rfl, stamp_of_no_record hrecord, ?_⟩
          · dsimp only
            rw [Function.update_self, Option.getD_none]
          · intro record hc
            rw [hrecord] at hc
            cases hc
        · rw [hrecord] at hsome
          cases hsome
      · refine hwatched children since (h.withChildren_ne hkey none) fun hsome => ⟨?_, hsame hsome⟩
        rw [if_neg (Ne.symm hkey)]
    | kept children' record hlegal hvalid hfiled hrecord hkept =>
      by_cases hkey : k = r.key
      · subst hkey
        refine hwatched children' since ?_ fun hsome => ⟨?_, hsame hsome⟩
        · refine ⟨⟨h.clocked.terminal, h.clocked.restored⟩, h.restored, ?_, ?_, h.since_eq, ?_⟩
          · dsimp only
            rw [Function.update_self, Option.getD_some]
          · intro hc
            rw [hrecord] at hc
            cases hc
          · intro record' hrecord' hlive hheard
            rw [hrecord] at hrecord'
            cases hrecord'
            rcases hkept with hsame | hterminal | ⟨-, hterminal⟩
            · exact hsame
            · rw [hlive] at hterminal
              cases hterminal
            · obtain ⟨c, hc, hnot⟩ := hheard
              rw [terminal_of_aggregate hterminal c hc] at hnot
              cases hnot
        · rw [if_pos rfl, ← h.children_eq, hfiled.fileUnder_eq hlegal]
      · refine hwatched children since (h.withChildren_ne hkey _) fun hsome => ⟨?_, hsame hsome⟩
        rw [if_neg (Ne.symm hkey)]
    | written children' status hlegal hvalid hfiled hlive hfresh hauth hkey hstate hseq =>
      obtain ⟨vs, hvs, hprotect⟩ := exists_evicted cfg r.key
        (l.parents.set r.key ⟨status, if status.state.terminal then some now else none⟩).entries.length
        (l.withRecord r.key children' ⟨status, if status.state.terminal then some now else none⟩ (l.stamped r.key now))
      rw [hvs] at hwatched
      by_cases hself : k = r.key
      · subst hself
        have hwritten := h.withRecord now (fun old hold => (hlive old hold).2) (hauth h.restored) hstate
        have hkept := hwritten.forgetAll vs
        rw [if_neg hprotect, if_neg hprotect] at hkept
        refine hwatched _ _ hkept fun _ => ⟨?_, rfl⟩
        rw [if_pos rfl, ← h.children_eq, hfiled.fileUnder_eq hlegal]
      · have hother : Tenured k (l.withRecord r.key children' ⟨status, if status.state.terminal then some now else none⟩
            (l.stamped r.key now)) children since := by
          refine ⟨h.clocked.withRecord r.key children' status now, h.restored, ?_, ?_, ?_, ?_⟩
          · dsimp only
            rw [Function.update_apply, if_neg hself]
            exact h.children_eq
          · dsimp only
            rw [Dict.get?_set, if_neg hself]
            exact h.unheard
          · rw [stamp_withRecord children' _ now hself]
            exact h.since_eq
          · dsimp only
            rw [Dict.get?_set, if_neg hself]
            exact h.joined
        refine hwatched _ _ (hother.forgetAll vs) fun hsome => ?_
        rw [get?_forgetAll] at hsome
        by_cases hmem : k ∈ vs
        · rw [if_pos hmem] at hsome
          cases hsome
        · rw [if_neg hmem] at hsome
          dsimp only at hsome
          rw [Dict.get?_set, if_neg hself] at hsome
          rw [if_neg hmem, if_neg hmem, if_neg (Ne.symm hself)]
          exact ⟨rfl, hsame hsome⟩

/-! ## From a snapshot -/

theorem children_fromSnapshot (statuses : List WorkStatus) (restoredAt : ℚ) (k : WorkStatusKey) :
    ((fromSnapshot statuses restoredAt).children k).getD ∅ = ∅ := by
  induction statuses using List.reverseRecOn with
  | nil => rfl
  | append_singleton statuses status ih =>
    rw [fromSnapshot_concat, restoreOne]
    dsimp only
    rw [Function.update_apply]
    split_ifs with hself
    · rw [Option.getD_some, ← hself]
      exact ih
    · exact ih

/-- **A restored key is on the clock of the restore.** -/
theorem restored_fromSnapshot {statuses : List WorkStatus} {status : WorkStatus} (restoredAt : ℚ)
    (h : carried statuses k = some status) :
    k ∈ (fromSnapshot statuses restoredAt).nonauthoritativeKeys ∧
      (fromSnapshot statuses restoredAt).workStatusExpiryStamp k = some restoredAt := by
  induction statuses using List.reverseRecOn with
  | nil => cases h
  | append_singleton statuses status' ih =>
    rw [carried_concat] at h
    rw [fromSnapshot_concat, restoreOne, workStatusExpiryStamp]
    dsimp only
    rw [Finset.mem_insert, Dict.get?_set, Function.update_apply]
    by_cases hself : k = restoredKey status'
    · rw [if_pos hself, if_pos hself]
      refine ⟨Or.inl hself, ?_⟩
      cases status'.state.terminal <;> rfl
    · rw [if_neg fun hc => hself hc.symm] at h
      rw [if_neg hself, if_neg hself]
      exact ⟨Or.inr (ih h).1, (ih h).2⟩

theorem tenured_fromSnapshot {statuses : List WorkStatus} {status : WorkStatus} (restoredAt : ℚ)
    (h : carried statuses k = some status) : Tenured k (fromSnapshot statuses restoredAt) ∅ (some restoredAt) := by
  obtain ⟨hrestored, hstamp⟩ := restored_fromSnapshot restoredAt h
  refine ⟨clocked_fromSnapshot statuses restoredAt, hrestored, children_fromSnapshot statuses restoredAt k, fun _ => rfl,
    hstamp, fun record _ _ hheard => ?_⟩
  obtain ⟨c, hc, -⟩ := hheard
  cases hc

/-- The tenure of a key a snapshot carries, as the restore starts it. -/
def restoredTenure (statuses : List WorkStatus) (restoredAt : ℚ) : Tenure :=
  ⟨fromSnapshot statuses restoredAt, ∅, some restoredAt⟩

theorem Tenure.ledger_after (cfg : RetentionConfig) (k : WorkStatusKey) (t : Tenure) (es : List Event) :
    (t.after cfg k es).ledger = WorkStatusLedger.after cfg t.ledger es := by
  induction es generalizing t with
  | nil => rfl
  | cons e es ih =>
    have hstep : (t.step cfg k e).ledger = (WorkStatusLedger.step cfg t.ledger e).1 := by
      rw [Tenure.step]
      split_ifs <;> rfl
    rw [Tenure.after, run_cons, ← Tenure.after, ih, hstep]
    rfl

/-- **The ledger holds the tenure of every carried key, at every moment of every run.** -/
theorem tenured_run (cfg : RetentionConfig) {statuses : List WorkStatus} {status : WorkStatus} (restoredAt : ℚ)
    (h : carried statuses k = some status) (es : List Event) :
    Tenured k ((restoredTenure statuses restoredAt).after cfg k es).ledger
      ((restoredTenure statuses restoredAt).after cfg k es).children
      ((restoredTenure statuses restoredAt).after cfg k es).since :=
  run_invariant_of_step (I := fun t : Tenure => Tenured k t.ledger t.children t.since)
    (fun _ e ht => ht.step cfg e) (tenured_fromSnapshot restoredAt h) es

/-! ## No completion is invented -/

/-- **A restored key emits no terminal event.** -/
theorem step_not_terminal (cfg : RetentionConfig) (hrestored : k ∈ l.nonauthoritativeKeys) (e : Event)
    (status : WorkStatus) (hmem : status ∈ (step cfg l e).2) (hkey : restoredKey status = k) :
    status.state.terminal = false := by
  cases e with
  | prune now => cases hmem
  | report r now =>
    have hstep := setChildWorkStatus_step cfg l r now
    rw [step] at hmem
    generalize setChildWorkStatus cfg l r now = out at hstep hmem
    obtain ⟨l', res⟩ := out
    dsimp only at hstep
    cases hstep with
    | refused | invalid | shut | kept => cases hmem
    | written children' status' hlegal hvalid hfiled hlive hfresh hauth hkey' hstate hseq =>
      rw [List.mem_singleton.mp hmem] at hkey ⊢
      exact hauth (by rwa [← hkey', hkey])

theorem outputs_not_terminal (cfg : RetentionConfig) (hrestored : k ∈ l.nonauthoritativeKeys) (es : List Event)
    (status : WorkStatus) (hmem : status ∈ outputs (step cfg) l es) (hkey : restoredKey status = k) :
    status.state.terminal = false := by
  induction es generalizing l with
  | nil => cases hmem
  | cons e es ih =>
    rw [outputs, List.mem_append] at hmem
    rcases hmem with hnow | hlater
    · exact step_not_terminal cfg hrestored e status hnow hkey
    · refine ih ?_ hlater
      rw [nonauthoritativeKeys_step]
      exact hrestored

/-- A restored key that is still open: its record, if any, is not terminal, and it is not tombstoned. -/
structure Unfinished (k : WorkStatusKey) (l : WorkStatusLedger) : Prop where
  restored : k ∈ l.nonauthoritativeKeys
  untombed : k ∉ l.terminalKeys
  live : ∀ record, l.parents.get? k = some record → record.status.state.terminal = false

theorem Unfinished.forgetAll (h : Unfinished k l) (vs : List WorkStatusKey) : Unfinished k (l.forgetAll vs) := by
  refine ⟨?_, fun hmem => ?_, fun record hrecord => ?_⟩
  · rw [nonauthoritativeKeys_forgetAll]
    exact h.restored
  · rcases (mem_terminalKeys_forgetAll l vs k).mp hmem with hold | ⟨-, record, hrecord, hterminal⟩
    · exact h.untombed hold
    · rw [h.live record hrecord] at hterminal
      cases hterminal
  · rw [get?_forgetAll] at hrecord
    split_ifs at hrecord
    exact h.live record hrecord

/-- **A report leaves a restored key open**, and one that is legal, validates and is not terminal leaves it with a
record. -/
theorem Unfinished.report (h : Unfinished k l) (cfg : RetentionConfig) (r : ChildReport) (now : ℚ) :
    Unfinished k (setChildWorkStatus cfg l r now).1 ∧
      (r.key = k → r.Legal l → r.Valid → r.state.terminal = false →
        ((setChildWorkStatus cfg l r now).1.parents.get? k).isSome = true) := by
  have hstep := setChildWorkStatus_step cfg l r now
  generalize setChildWorkStatus cfg l r now = out at hstep
  obtain ⟨l', res⟩ := out
  dsimp only at hstep ⊢
  cases hstep with
  | refused hillegal => exact ⟨h, fun _ hlegal => absurd hlegal hillegal⟩
  | invalid e hlegal hinvalid => exact ⟨⟨h.restored, h.untombed, h.live⟩, fun _ _ hvalid => absurd hvalid hinvalid⟩
  | shut children hlegal hvalid hfiled hrecord hwhy =>
    refine ⟨⟨h.restored, h.untombed, h.live⟩, fun hkey _ _ hstate => ?_⟩
    rcases hwhy with htomb | ⟨-, hterminal⟩
    · rw [hkey] at htomb
      exact absurd htomb h.untombed
    · obtain ⟨child, hvalidate, rfl⟩ := hfiled
      have hmem : child ∈ (((l.children r.key).getD ∅).set r.workItemId child).values :=
        Dict.mem_values.mpr ⟨r.workItemId, by rw [Dict.get?_set, if_pos rfl]⟩
      have hchild := terminal_of_aggregate hterminal child hmem
      rw [(WorkStatus.eq_of_validate hvalidate).2.2.1, hstate] at hchild
      cases hchild
  | kept children record hlegal hvalid hfiled hrecord hkept =>
    refine ⟨⟨h.restored, h.untombed, h.live⟩, fun hkey _ _ _ => ?_⟩
    rw [← hkey, hrecord]
    rfl
  | written children status hlegal hvalid hfiled hlive hfresh hauth hkey hstate hseq =>
    obtain ⟨vs, hvs, hprotect⟩ := exists_evicted cfg r.key
      (l.parents.set r.key ⟨status, if status.state.terminal then some now else none⟩).entries.length
      (l.withRecord r.key children ⟨status, if status.state.terminal then some now else none⟩ (l.stamped r.key now))
    rw [hvs]
    constructor
    · apply Unfinished.forgetAll
      refine ⟨h.restored, h.untombed, fun record hrecord => ?_⟩
      dsimp only at hrecord
      rw [Dict.get?_set] at hrecord
      by_cases hself : k = r.key
      · rw [if_pos hself] at hrecord
        cases hrecord
        exact hauth (hself ▸ h.restored)
      · rw [if_neg hself] at hrecord
        exact h.live record hrecord
    · intro hself _ _ _
      rw [← hself, get?_forgetAll, if_neg hprotect]
      dsimp only
      rw [Dict.get?_set, if_pos rfl]
      rfl

theorem Unfinished.step (h : Unfinished k l) (cfg : RetentionConfig) (e : Event) : Unfinished k (step cfg l e).1 := by
  cases e with
  | prune now => exact h.forgetAll _
  | report r now =>
    rw [step_report_ledger]
    exact (h.report cfg r now).1

theorem unfinished_after (cfg : RetentionConfig) {statuses : List WorkStatus} {status : WorkStatus} (restoredAt : ℚ)
    (h : carried statuses k = some status) (hlive : status.state.terminal = false) (es : List Event) :
    Unfinished k (after cfg (fromSnapshot statuses restoredAt) es) := by
  refine run_invariant_of_step (I := Unfinished k) (fun _ e hl => hl.step cfg e) ?_ es
  refine ⟨(restored_fromSnapshot restoredAt h).1, ?_, fun record hrecord => ?_⟩
  · have hnone : ∀ statuses : List WorkStatus, (fromSnapshot statuses restoredAt).terminalKeys = ∅ := by
      intro statuses
      induction statuses using List.reverseRecOn with
      | nil => rfl
      | append_singleton statuses status ih =>
        rw [fromSnapshot_concat]
        exact ih
    rw [hnone]
    exact Finset.notMem_empty k
  · have hget := (fromSnapshot_get statuses restoredAt k).1
    rw [hrecord, h, Option.map_some, Option.some_inj] at hget
    rw [hget]
    exact hlive

/-! ## Refinement -/

/-- **A report that is not terminal refines a restored key**: its record becomes the join of the children reported
since the record was made. -/
theorem Tenured.refined {t : Tenure} (h : Tenured k t.ledger t.children t.since) (hopen : Unfinished k t.ledger)
    (cfg : RetentionConfig) (hkey : r.key = k) (hvalid : r.Valid)
    (hlegal : legalWorkStatusTransition ((t.children.get? r.workItemId).map (·.state)) r.state = true)
    (hstate : r.state.terminal = false) (now : ℚ) :
    ∃ record, (t.step cfg k (.report r now)).ledger.parents.get? k = some record ∧
      ((t.step cfg k (.report r now)).children.get? r.workItemId).map (·.state) = some r.state ∧
      record.status.state = (aggregate (t.step cfg k (.report r now)).children.values).1 := by
  have hafter := h.step cfg (.report r now)
  have hlegal' : r.Legal t.ledger := by
    rw [ChildReport.Legal, childState_eq, hkey, h.children_eq]
    exact hlegal
  obtain ⟨hopen', hsome⟩ := hopen.report cfg r now
  have hrecord := hsome hkey hlegal' hvalid hstate
  rw [← step_report_ledger] at hopen' hrecord
  have hstep : t.step cfg k (.report r now)
      = ⟨(WorkStatusLedger.step cfg t.ledger (.report r now)).1, Event.heardUnder k t.children (.report r now),
          if (t.ledger.parents.get? k).isSome then t.since else some now⟩ := by
    rw [Tenure.step, if_pos hrecord]
    rfl
  rw [hstep] at hafter ⊢
  dsimp only at hafter ⊢
  obtain ⟨record, hget⟩ := Option.isSome_iff_exists.mp hrecord
  have hfile : ∃ child : WorkStatus, child.state = r.state ∧ r.fileUnder t.children = t.children.set r.workItemId child := by
    rw [ChildReport.fileUnder]
    split
    · rename_i child hvalidate
      exact ⟨child, (WorkStatus.eq_of_validate hvalidate).2.2.1, if_pos hlegal⟩
    · rename_i e hvalidate
      exact absurd hvalid (ChildReport.not_valid_of_error hvalidate)
  obtain ⟨child, hchild, hfiled⟩ := hfile
  have hheard : Event.heardUnder k t.children (.report r now) = t.children.set r.workItemId child := by
    rw [Event.heardUnder, if_pos hkey, hfiled]
  have hmine : (t.children.set r.workItemId child).get? r.workItemId = some child := by rw [Dict.get?_set, if_pos rfl]
  rw [hheard] at hafter ⊢
  refine ⟨record, hget, by rw [hmine, Option.map_some, hchild], ?_⟩
  refine hafter.joined record hget (hopen'.live record hget) ⟨child, Dict.mem_values.mpr ⟨_, hmine⟩, ?_⟩
  rw [hchild, hstate]

/-! ## Records know their key -/

/-- Every record is filed under the key its status names. -/
def Named (l : WorkStatusLedger) : Prop := ∀ k record, l.parents.get? k = some record → restoredKey record.status = k

theorem Named.forgetAll (h : Named l) (vs : List WorkStatusKey) : Named (l.forgetAll vs) := by
  intro k record hrecord
  rw [get?_forgetAll] at hrecord
  split_ifs at hrecord
  exact h k record hrecord

theorem Named.step (h : Named l) (cfg : RetentionConfig) (e : Event) : Named (step cfg l e).1 := by
  cases e with
  | prune now => exact h.forgetAll _
  | report r now =>
    rw [step_report_ledger]
    have hstep := setChildWorkStatus_step cfg l r now
    generalize setChildWorkStatus cfg l r now = out at hstep
    obtain ⟨l', res⟩ := out
    dsimp only at hstep ⊢
    cases hstep with
    | refused | invalid | shut | kept => exact h
    | written children status hlegal hvalid hfiled hlive hfresh hauth hkey hstate hseq =>
      obtain ⟨vs, hvs, -⟩ := exists_evicted cfg r.key
        (l.parents.set r.key ⟨status, if status.state.terminal then some now else none⟩).entries.length
        (l.withRecord r.key children ⟨status, if status.state.terminal then some now else none⟩ (l.stamped r.key now))
      rw [hvs]
      refine Named.forgetAll (fun k record hrecord => ?_) vs
      dsimp only at hrecord
      rw [Dict.get?_set] at hrecord
      by_cases hself : k = r.key
      · rw [if_pos hself] at hrecord
        cases hrecord
        exact hkey.trans hself.symm
      · rw [if_neg hself] at hrecord
        exact h k record hrecord

theorem named_fromSnapshot (statuses : List WorkStatus) (restoredAt : ℚ) : Named (fromSnapshot statuses restoredAt) := by
  intro k record hrecord
  have hget := (fromSnapshot_get statuses restoredAt k).1
  rw [hrecord, Option.map_some, carried] at hget
  simpa using List.find?_some hget.symm

theorem named_after (cfg : RetentionConfig) (statuses : List WorkStatus) (restoredAt : ℚ) (es : List Event) :
    Named (after cfg (fromSnapshot statuses restoredAt) es) :=
  run_invariant_of_step (I := Named) (fun _ e hl => hl.step cfg e) (named_fromSnapshot statuses restoredAt) es

/-- **A key is in a snapshot exactly when it has a record whose time is not up.** -/
theorem Named.mem_workStatusSnapshot (h : Named l) (cfg : RetentionConfig) (now : ℚ) (k : WorkStatusKey) :
    (∃ status ∈ (l.workStatusSnapshot cfg now).2, restoredKey status = k) ↔
      (l.parents.get? k).isSome = true ∧ expired cfg l now k = false := by
  rw [workStatusSnapshot_eq]
  constructor
  · rintro ⟨status, hstatus, hkey⟩
    obtain ⟨⟨k', record⟩, hentry, rfl⟩ := List.mem_map.mp hstatus
    obtain ⟨hmem, hfresh⟩ := List.mem_filter.mp hentry
    have hget := Dict.get?_eq_some_iff.mpr hmem
    have hsame : k' = k := (h k' record hget).symm.trans hkey
    subst hsame
    exact ⟨by rw [hget]; rfl, by simpa using hfresh⟩
  · rintro ⟨hsome, hfresh⟩
    obtain ⟨record, hget⟩ := Option.isSome_iff_exists.mp hsome
    refine ⟨record.status, List.mem_map.mpr ⟨(k, record), ?_, rfl⟩, h k record hget⟩
    exact List.mem_filter.mpr ⟨Dict.get?_eq_some_iff.mp hget, by simpa using hfresh⟩

/-- **A restored key is in a snapshot exactly until the time of its record is up.** -/
theorem Tenured.mem_workStatusSnapshot (h : Tenured k l children since) (hnamed : Named l) (cfg : RetentionConfig)
    (now : ℚ) :
    (∃ status ∈ (l.workStatusSnapshot cfg now).2, restoredKey status = k) ↔
      ∃ start, since = some start ∧ now - start < cfg.ttlSeconds := by
  rw [hnamed.mem_workStatusSnapshot, ← h.since_eq]
  rcases hrecord : l.parents.get? k with _ | record
  · rw [stamp_of_no_record hrecord]
    simp
  · rcases hstamp : l.workStatusExpiryStamp k with _ | start
    · exact absurd h.restored ((h.clocked.stamp_eq_none_iff hrecord).mp hstamp).2.2
    · rw [expired, hstamp]
      simp

end WorkStatusLedger

end SubagentsLab

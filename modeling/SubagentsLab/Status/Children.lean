import SubagentsLab.Status.Moves

/-!
# Status/Children — the record of one delegated child

A child's own state moves along the transition table, and disappears only with its parent record.  In a
ledger that was not restored from a snapshot a parent record is dropped only when it is terminal, and
then leaves a tombstone: the key is **tombed**, and no child is ever recorded under it again.  So a child
that failed or was cancelled stays that way until it is forgotten for good, whatever is reported, pruned
or evicted around it (`Shut`).
-/

namespace SubagentsLab

open Machinery

namespace WorkStatusLedger

variable {cfg : RetentionConfig} {l l' : WorkStatusLedger} {k : WorkStatusKey} {w : String} {r : ChildReport} {now : ℚ}

/-- The state a child is recorded at. -/
def childState (l : WorkStatusLedger) (k : WorkStatusKey) (w : String) : Option WorkStatusState :=
  ((l.children k).bind (·.get? w)).map (·.state)

/-- The key's record was dropped while terminal. -/
def Tombed (l : WorkStatusLedger) (k : WorkStatusKey) : Prop := l.parents.get? k = none ∧ k ∈ l.terminalKeys

instance (l : WorkStatusLedger) (k : WorkStatusKey) : Decidable (Tombed l k) := inferInstanceAs (Decidable (_ ∧ _))

/-- A ledger that was filled by reports only: nothing was restored, only terminal records are on the
clock, and a recorded child has a parent record. -/
structure Authored (l : WorkStatusLedger) : Prop where
  authoritative : ∀ k, k ∉ l.nonauthoritativeKeys
  unstamped : ∀ k, l.nonauthoritativeAt k = none
  stamped : ∀ k record, l.parents.get? k = some record → record.terminalAt.isSome = true →
    record.status.state.terminal = true
  parented : ∀ k w, (l.childState k w).isSome = true → (l.parents.get? k).isSome = true

theorem authored_empty : Authored empty where
  authoritative k hk := by simp [empty] at hk
  unstamped k := rfl
  stamped k record hrecord := by
    have hnone : (empty.parents.get? k) = none := Dict.get?_empty k
    rw [hnone] at hrecord
    cases hrecord
  parented k w h := by simp [childState, empty] at h

/-- No child is recorded under a tombed key. -/
theorem Authored.childState_of_tombed (ha : Authored l) (ht : Tombed l k) (w : String) : l.childState k w = none := by
  rw [← Option.not_isSome_iff_eq_none]
  intro hsome
  have hparent := ha.parented k w hsome
  rw [ht.1] at hparent
  cases hparent

/-! ## Dropping records -/

/-- **What is on the clock is terminal.** -/
theorem Authored.terminal_of_stamp (ha : Authored l) (h : (l.workStatusExpiryStamp k).isSome = true) :
    ∃ record, l.parents.get? k = some record ∧ record.status.state.terminal = true := by
  rw [workStatusExpiryStamp] at h
  rcases hrecord : l.parents.get? k with _ | record
  · rw [hrecord] at h
    cases h
  · refine ⟨record, rfl, ha.stamped k record hrecord ?_⟩
    rw [hrecord] at h
    rcases hat : record.terminalAt with _ | at_
    · simp [hat, ha.unstamped k] at h
    · rfl

theorem childState_forgetWorkStatus (l : WorkStatusLedger) (key k : WorkStatusKey) (w : String) :
    (l.forgetWorkStatus key).childState k w = if k = key then none else l.childState k w := by
  rw [childState, children_forgetWorkStatus]
  split_ifs <;> rfl

theorem Authored.forgetWorkStatus (ha : Authored l) (key : WorkStatusKey) : Authored (l.forgetWorkStatus key) where
  authoritative := ha.authoritative
  unstamped k := by
    change Function.update l.nonauthoritativeAt key none k = none
    rw [Function.update_apply, ha.unstamped k, ite_self]
  stamped k record hrecord hat := by
    rw [get?_forgetWorkStatus] at hrecord
    split_ifs at hrecord
    exact ha.stamped k record hrecord hat
  parented k w h := by
    rw [childState_forgetWorkStatus] at h
    rw [get?_forgetWorkStatus]
    split_ifs at h with hk
    · cases h
    · rw [if_neg hk]
      exact ha.parented k w h

/-- What dropping records does to one child: nothing, or its key is tombed. -/
structure Sheds (l l' : WorkStatusLedger) : Prop where
  authored : Authored l'
  keeps : ∀ k w, Tombed l' k ∨ l'.childState k w = l.childState k w ∧ l'.parents.get? k = l.parents.get? k
  tombed : ∀ k, Tombed l k → Tombed l' k

theorem Authored.sheds_refl (ha : Authored l) : Sheds l l := ⟨ha, fun _ _ => Or.inr ⟨rfl, rfl⟩, fun _ h => h⟩

theorem Sheds.trans {l₂ : WorkStatusLedger} (h : Sheds l l') (h' : Sheds l' l₂) : Sheds l l₂ where
  authored := h'.authored
  keeps k w := by
    rcases h'.keeps k w with htomb | ⟨hchild, hparent⟩
    · exact Or.inl htomb
    · rcases h.keeps k w with htomb | ⟨hchild', hparent'⟩
      · exact Or.inl (h'.tombed k htomb)
      · exact Or.inr ⟨hchild.trans hchild', hparent.trans hparent'⟩
  tombed k ht := h'.tombed k (h.tombed k ht)

/-- **Forgetting a terminal record leaves a tomb**, and touches no other key. -/
theorem Authored.sheds_forget (ha : Authored l) {key : WorkStatusKey} {record : WorkStatusRecord}
    (hrecord : l.parents.get? key = some record) (hterminal : record.status.state.terminal = true) :
    Sheds l (l.forgetWorkStatus key) where
  authored := ha.forgetWorkStatus key
  keeps k w := by
    by_cases hk : k = key
    · subst hk
      refine Or.inl ⟨by rw [get?_forgetWorkStatus, if_pos rfl], ?_⟩
      exact mem_terminalKeys_forgetWorkStatus.mpr (Or.inr ⟨rfl, record, hrecord, hterminal⟩)
    · exact Or.inr ⟨by rw [childState_forgetWorkStatus, if_neg hk], by rw [get?_forgetWorkStatus, if_neg hk]⟩
  tombed k ht := by
    refine ⟨?_, mem_terminalKeys_forgetWorkStatus.mpr (Or.inl ht.2)⟩
    rw [get?_forgetWorkStatus, ht.1, ite_self]

/-- **Eviction drops terminal records only.** -/
theorem Authored.sheds_evict (cfg : RetentionConfig) (protect : WorkStatusKey) (fuel : ℕ) (ha : Authored l) :
    Sheds l (evictWorkStatusOverflow cfg protect fuel l) := by
  induction fuel generalizing l with
  | zero => exact ha.sheds_refl
  | succ fuel ih =>
    rw [evictWorkStatusOverflow]
    split_ifs
    · rcases hvictim : l.evictionVictim protect with _ | oldest
      · exact ha.sheds_refl
      · have hmem := List.mem_filter.mp (List.argmin_mem hvictim)
        obtain ⟨record, hrecord, hterminal⟩ := ha.terminal_of_stamp (of_decide_eq_true hmem.2).2
        exact (ha.sheds_forget hrecord hterminal).trans (ih (ha.forgetWorkStatus oldest))
    · exact ha.sheds_refl

/-- Forgetting a list of keys whose records are terminal, each at most once. -/
theorem Authored.sheds_forgetAll (vs : List WorkStatusKey) (hnodup : vs.Nodup) (ha : Authored l)
    (hvs : ∀ v ∈ vs, ∃ record, l.parents.get? v = some record ∧ record.status.state.terminal = true) :
    Sheds l (l.forgetAll vs) := by
  induction vs generalizing l with
  | nil => exact ha.sheds_refl
  | cons v vs ih =>
    obtain ⟨record, hrecord, hterminal⟩ := hvs v List.mem_cons_self
    rw [List.nodup_cons] at hnodup
    refine (ha.sheds_forget hrecord hterminal).trans (ih hnodup.2 (ha.forgetWorkStatus v) fun v' hv' => ?_)
    have hne : v' ≠ v := fun h => hnodup.1 (h ▸ hv')
    rw [get?_forgetWorkStatus, if_neg hne]
    exact hvs v' (List.mem_cons_of_mem v hv')

/-- **Pruning drops terminal records only.** -/
theorem Authored.sheds_prune (cfg : RetentionConfig) (ha : Authored l) (now : ℚ) :
    Sheds l (l.pruneExpiredWorkStatus cfg now) := by
  refine ha.sheds_forgetAll _ (l.parents.nodup_keys.filter _) fun v hv => ha.terminal_of_stamp ?_
  have hexpired := (List.mem_filter.mp hv).2
  rcases hstamp : l.workStatusExpiryStamp v with _ | stamp
  · simp [hstamp] at hexpired
  · rfl

/-! ## Reports -/

/-- Filing children under a key leaves every other key as it is. -/
theorem childState_withChildren (l : WorkStatusLedger) (key k : WorkStatusKey)
    (children : Option (Dict String WorkStatus)) (w : String) :
    (l.withChildren key children).childState k w
      = if k = key then (children.bind (·.get? w)).map (·.state) else l.childState k w := by
  rw [childState]
  dsimp only [withChildren]
  rw [Function.update_apply]
  split_ifs <;> rfl

/-- Whether a report's arguments validate. -/
def ChildReport.Valid (r : ChildReport) : Prop :=
  r.turnId ≠ "" ∧ (∀ e ∈ r.originEpoch, 0 ≤ e) ∧ (r.terminalReason.isSome → r.state = .failed)

/-- What a report does to the ledger: it is dropped, since the child's move is illegal, its arguments do not
validate or its key is tombed; or it is filed, and terminal records of other keys may be evicted for it. -/
inductive Filing (l : WorkStatusLedger) (r : ChildReport) (l' : WorkStatusLedger) : Prop
  | dropped (hsheds : Sheds l l')
      (hwhy : legalWorkStatusTransition (l.childState r.key r.workItemId) r.state = false ∨ ¬r.Valid ∨ Tombed l r.key)
  | filed (l₁ : WorkStatusLedger)
      (hlegal : legalWorkStatusTransition (l.childState r.key r.workItemId) r.state = true)
      (hchild : l'.childState r.key r.workItemId = some r.state)
      (hother : ∀ k w, ¬(k = r.key ∧ w = r.workItemId) → l₁.childState k w = l.childState k w)
      (htomb : ∀ k, Tombed l k → Tombed l₁ k) (hsheds : Sheds l₁ l')

/-- A ledger that agrees with an authored one everywhere but in what it files under one key, and holds a
record there. -/
theorem Authored.of_filed (ha : Authored l) (key : WorkStatusKey) (hauth : l'.nonauthoritativeKeys = l.nonauthoritativeKeys)
    (hat : l'.nonauthoritativeAt = l.nonauthoritativeAt)
    (hrecord : ∃ record, l'.parents.get? key = some record ∧
      (record.terminalAt.isSome = true → record.status.state.terminal = true))
    (hparents : ∀ k, k ≠ key → l'.parents.get? k = l.parents.get? k)
    (hchildren : ∀ k w, k ≠ key → l'.childState k w = l.childState k w) : Authored l' where
  authoritative k := by
    rw [hauth]
    exact ha.authoritative k
  unstamped k := by
    rw [hat]
    exact ha.unstamped k
  stamped k record hget hstamp := by
    obtain ⟨record', hrecord', hterminal⟩ := hrecord
    by_cases hk : k = key
    · subst hk
      rw [hrecord'] at hget
      cases hget
      exact hterminal hstamp
    · rw [hparents k hk] at hget
      exact ha.stamped k record hget hstamp
  parented k w hsome := by
    by_cases hk : k = key
    · subst hk
      obtain ⟨record', hrecord', -⟩ := hrecord
      rw [hrecord']
      rfl
    · rw [hparents k hk]
      rw [hchildren k w hk] at hsome
      exact ha.parented k w hsome

theorem childState_eq (l : WorkStatusLedger) (k : WorkStatusKey) (w : String) :
    l.childState k w = (((l.children k).getD ∅).get? w).map (·.state) := by
  rw [childState]
  rcases l.children k with _ | children
  · rfl
  · rfl

/-- **Filing a child records it**, and no other. -/
theorem childState_of_filed {key : WorkStatusKey} {id : String} {child : WorkStatus}
    (hchildren : l'.children = Function.update l.children key (some (((l.children key).getD ∅).set id child)))
    (k : WorkStatusKey) (w : String) :
    l'.childState k w = if k = key ∧ w = id then some child.state else l.childState k w := by
  rw [childState_eq, hchildren, Function.update_apply]
  by_cases hk : k = key
  · subst hk
    rw [if_pos rfl, Option.getD_some, Dict.get?_set, childState_eq]
    by_cases hw : w = id
    · rw [if_pos hw, if_pos ⟨rfl, hw⟩]
      rfl
    · rw [if_neg hw, if_neg fun h => hw h.2]
  · rw [if_neg hk, if_neg fun h => hk h.1, childState_eq]

/-- A report whose child is filed next to a parent record. -/
theorem Authored.filing_filed (ha : Authored l) (l₁ : WorkStatusLedger) {child : WorkStatus}
    (hlegal : legalWorkStatusTransition (l.childState r.key r.workItemId) r.state = true)
    (hchild : child.state = r.state) (hfresh : ¬Tombed l r.key)
    (hchildren : l₁.children
      = Function.update l.children r.key (some (((l.children r.key).getD ∅).set r.workItemId child)))
    (hauth : l₁.nonauthoritativeKeys = l.nonauthoritativeKeys) (hat : l₁.nonauthoritativeAt = l.nonauthoritativeAt)
    (hterminalKeys : l₁.terminalKeys = l.terminalKeys)
    (hrecord : ∃ record, l₁.parents.get? r.key = some record ∧
      (record.terminalAt.isSome = true → record.status.state.terminal = true))
    (hparents : ∀ k, k ≠ r.key → l₁.parents.get? k = l.parents.get? k)
    (hsheds : Authored l₁ → Sheds l₁ l' ∧ (l'.parents.get? r.key).isSome = true) : Filing l r l' := by
  have hfiled := childState_of_filed hchildren
  have hother : ∀ k w, k ≠ r.key → l₁.childState k w = l.childState k w := by
    intro k w hk
    rw [hfiled k w, if_neg fun h => hk h.1]
  obtain ⟨hshed, hsome⟩ := hsheds (ha.of_filed r.key hauth hat hrecord hparents hother)
  refine .filed l₁ hlegal ?_ (fun k w hne => by rw [hfiled k w, if_neg hne]) ?_ hshed
  · rcases hshed.keeps r.key r.workItemId with htomb | ⟨hkept, -⟩
    · rw [htomb.1] at hsome
      cases hsome
    · rw [hkept, hfiled, if_pos ⟨rfl, rfl⟩, hchild]
  · intro k ht
    have hk : k ≠ r.key := fun hk => hfresh (hk ▸ ht)
    exact ⟨(hparents k hk).trans ht.1, hterminalKeys ▸ ht.2⟩

/-- Eviction spares the key it is told to. -/
theorem get?_evict_protect (cfg : RetentionConfig) (protect : WorkStatusKey) (fuel : ℕ) (l : WorkStatusLedger) :
    (evictWorkStatusOverflow cfg protect fuel l).parents.get? protect = l.parents.get? protect := by
  obtain ⟨vs, hvs, hnot⟩ := exists_evicted cfg protect fuel l
  rw [hvs, get?_forgetAll, if_neg hnot]

/-- The write of a parent record, where the key is not tombed. -/
theorem Authored.filing_written (ha : Authored l) {child : WorkStatus}
    (hvalid : WorkStatus.validate r.turnId (some r.workItemId) r.workerId r.state 0 r.terminalReason r.originEpoch
      = .ok child)
    (hlegal : legalWorkStatusTransition (l.childState r.key r.workItemId) r.state = true)
    (hfresh : ¬Tombed l r.key) {children : Dict String WorkStatus}
    (hchildren : ((l.children r.key).getD ∅).set r.workItemId child = children) :
    Filing l r (writeParent cfg (l.withChildren r.key (some children)) r.key now (aggregate children.values)).1 := by
  obtain ⟨status, hstatus⟩ := validate_parent hvalid ((l.sequence r.key).getD 0 + 1) children.values
  have hstate : status.state = (aggregate children.values).1 := (WorkStatus.eq_of_validate hstatus).2.2.1
  have hchild : child.state = r.state := (WorkStatus.eq_of_validate hvalid).2.2.1
  rw [writeParent]
  dsimp only
  rw [hstatus]
  dsimp only
  rw [if_neg (ha.authoritative r.key)]
  refine ha.filing_filed
    { l with
      children := Function.update l.children r.key (some children)
      sequence := Function.update l.sequence r.key (some ((l.sequence r.key).getD 0 + 1))
      parents := l.parents.set r.key
        ⟨status, if (aggregate children.values).1.terminal then some now else none⟩ }
    hlegal hchild hfresh (by rw [hchildren]) rfl rfl rfl ?_ ?_ fun hauthored => ⟨hauthored.sheds_evict cfg r.key _, ?_⟩
  · refine ⟨_, (Dict.get?_set _ _ _ _).trans (if_pos rfl), fun hstamp => ?_⟩
    dsimp only at hstamp ⊢
    rw [hstate]
    split_ifs at hstamp with hterminal
    · exact hterminal
    · cases hstamp
  · exact fun k hk => (Dict.get?_set _ _ _ _).trans (if_neg hk)
  · rw [get?_evict_protect, Dict.get?_set, if_pos rfl]
    rfl

/-- Rewriting the children of a key without recording any. -/
theorem Authored.sheds_of_children (ha : Authored l) {key : WorkStatusKey} {children : Option (Dict String WorkStatus)}
    (hchild : ∀ k w, (l.withChildren key children).childState k w = l.childState k w) :
    Sheds l (l.withChildren key children) where
  authored := ⟨ha.authoritative, ha.unstamped, ha.stamped, fun k w hsome => ha.parented k w (hchild k w ▸ hsome)⟩
  keeps k w := Or.inr ⟨hchild k w, rfl⟩
  tombed _ ht := ht

/-- The children of a tombed key are dropped again. -/
theorem Authored.sheds_clear (ha : Authored l) {key : WorkStatusKey} (ht : Tombed l key) :
    Sheds l (l.withChildren key none) := by
  refine ha.sheds_of_children fun k w => ?_
  rw [childState_withChildren]
  split_ifs with hk
  · subst hk
    exact (ha.childState_of_tombed ht w).symm
  · rfl

/-- A status that does not validate was not worth reporting. -/
theorem ChildReport.not_valid_of_error {e : WorkStatusError}
    (h : WorkStatus.validate r.turnId (some r.workItemId) r.workerId r.state 0 r.terminalReason r.originEpoch
      = .error e) : ¬r.Valid := by
  rintro ⟨hturn, hepoch, hreason⟩
  rw [WorkStatus.validate, dif_neg hturn, dif_pos hepoch, dif_pos hreason] at h
  cases h

/-- **Every report is refused, invalid, too late, or filed.** -/
theorem Authored.filing (ha : Authored l) (cfg : RetentionConfig) (r : ChildReport) (now : ℚ) :
    Filing l r (setChildWorkStatus cfg l r now).1 := by
  rw [setChildWorkStatus]
  dsimp only
  rw [← childState_eq]
  by_cases hillegal : legalWorkStatusTransition (l.childState r.key r.workItemId) r.state = false
  · rw [if_pos hillegal]
    exact .dropped ha.sheds_refl (Or.inl hillegal)
  rw [if_neg hillegal]
  have hlegal : legalWorkStatusTransition (l.childState r.key r.workItemId) r.state = true := by simpa using hillegal
  rcases hvalid : WorkStatus.validate r.turnId (some r.workItemId) r.workerId r.state 0 r.terminalReason
    r.originEpoch with e | child
  · have hchild : ∀ k w, (l.withChildren r.key (some ((l.children r.key).getD ∅))).childState k w = l.childState k w := by
      intro k w
      rw [childState_withChildren]
      split_ifs with hk
      · rw [hk, childState_eq]
        rfl
      · rfl
    exact .dropped (ha.sheds_of_children hchild) (Or.inr (Or.inl (ChildReport.not_valid_of_error hvalid)))
  · have hstate : child.state = r.state := (WorkStatus.eq_of_validate hvalid).2.2.1
    dsimp only
    generalize hchildren : ((l.children r.key).getD ∅).set r.workItemId child = children
    have hne : children.values ≠ [] := hchildren ▸ values_set_ne_nil _ _ _
    rw [reaggregateParent]
    simp only [Function.update_self, Option.getD_some, List.isEmpty_iff, hne, if_false]
    rcases hrecord : l.parents.get? r.key with _ | record
    · dsimp only
      split_ifs with hterminal hrestored
      · refine .dropped ?_ (Or.inr (Or.inr ⟨hrecord, hterminal⟩))
        rw [Function.update_idem]
        exact ha.sheds_clear ⟨hrecord, hterminal⟩
      · exact absurd hrestored.1 (ha.authoritative r.key)
      · exact ha.filing_written hvalid hlegal (fun ht => hterminal ht.2) hchildren
    · have hfresh : ¬Tombed l r.key := by
        rintro ⟨hnone, -⟩
        rw [hrecord] at hnone
        cases hnone
      have hkept : Filing l r (l.withChildren r.key (some children)) := by
        refine ha.filing_filed (l.withChildren r.key (some children)) hlegal hstate hfresh (by rw [hchildren]) rfl rfl rfl
          ⟨record, hrecord, ha.stamped r.key record hrecord⟩ (fun _ _ => rfl) fun hauthored => ⟨hauthored.sheds_refl, ?_⟩
        rw [hrecord]
        rfl
      dsimp only
      split_ifs
      · exact hkept
      · exact hkept
      · exact hkept
      · exact ha.filing_written hvalid hlegal hfresh hchildren

/-! ## What survives -/

/-- The child was recorded, and its record is there unless its key is tombed. -/
def Known (l : WorkStatusLedger) (k : WorkStatusKey) (w : String) : Prop :=
  Tombed l k ∨ (l.childState k w).isSome = true

/-- **The child is past being ready**: it failed or was cancelled, or its key is tombed. -/
def Shut (l : WorkStatusLedger) (k : WorkStatusKey) (w : String) : Prop :=
  Tombed l k ∨ l.childState k w = some .failed ∨ l.childState k w = some .cancelled

instance (l : WorkStatusLedger) (k : WorkStatusKey) (w : String) : Decidable (Shut l k w) :=
  inferInstanceAs (Decidable (_ ∨ _ ∨ _))

theorem Shut.not_ready (h : Shut l k w) (ha : Authored l) : l.childState k w ≠ some .resultReady := by
  rcases h with ht | hfailed | hcancelled
  · rw [ha.childState_of_tombed ht w]
    exact nofun
  · rw [hfailed]
    decide
  · rw [hcancelled]
    decide

theorem Sheds.known (hs : Sheds l l') (h : Known l k w) : Known l' k w := by
  rcases hs.keeps k w with ht | ⟨hkept, -⟩
  · exact Or.inl ht
  · rcases h with ht | hsome
    · exact Or.inl (hs.tombed k ht)
    · exact Or.inr (hkept ▸ hsome)

theorem Sheds.shut (hs : Sheds l l') (h : Shut l k w) : Shut l' k w := by
  rcases hs.keeps k w with ht | ⟨hkept, -⟩
  · exact Or.inl ht
  · rcases h with ht | hstate
    · exact Or.inl (hs.tombed k ht)
    · exact Or.inr (hkept ▸ hstate)

theorem Sheds.ready (hs : Sheds l l') (h : l'.childState k w = some .resultReady) :
    l.childState k w = some .resultReady := by
  rcases hs.keeps k w with ht | ⟨hkept, -⟩
  · rw [hs.authored.childState_of_tombed ht w] at h
    cases h
  · exact hkept ▸ h

theorem Filing.authored (hf : Filing l r l') : Authored l' := by
  cases hf with
  | dropped hsheds _ => exact hsheds.authored
  | filed _ _ _ _ _ hsheds => exact hsheds.authored

/-- A child once recorded stays known. -/
theorem Filing.known (hf : Filing l r l') (h : Known l k w) : Known l' k w := by
  cases hf with
  | dropped hsheds _ => exact hsheds.known h
  | filed l₁ hlegal hchild hother htomb hsheds =>
    by_cases hself : k = r.key ∧ w = r.workItemId
    · obtain ⟨rfl, rfl⟩ := hself
      refine Or.inr ?_
      rw [hchild]
      rfl
    · refine hsheds.known ?_
      rcases h with ht | hsome
      · exact Or.inl (htomb k ht)
      · exact Or.inr (hother k w hself ▸ hsome)

/-- **A child that failed or was cancelled stays so.** -/
theorem Filing.shut (hf : Filing l r l') (h : Shut l k w) : Shut l' k w := by
  cases hf with
  | dropped hsheds _ => exact hsheds.shut h
  | filed l₁ hlegal hchild hother htomb hsheds =>
    by_cases hself : k = r.key ∧ w = r.workItemId
    · obtain ⟨rfl, rfl⟩ := hself
      rcases h with ht | hfailed | hcancelled
      · exact hsheds.shut (Or.inl (htomb _ ht))
      · rw [hfailed] at hlegal
        cases legalWorkStatusTransition_terminal hlegal
      · rw [hcancelled] at hlegal
        cases legalWorkStatusTransition_terminal hlegal
    · refine hsheds.shut ?_
      rcases h with ht | hstate
      · exact Or.inl (htomb k ht)
      · exact Or.inr (hother k w hself ▸ hstate)

/-- **Only its own report makes a child ready.** -/
theorem Filing.ready (hf : Filing l r l') (h : l'.childState k w = some .resultReady) :
    l.childState k w = some .resultReady ∨ r.key = k ∧ r.workItemId = w ∧ r.state = .resultReady := by
  cases hf with
  | dropped hsheds _ => exact Or.inl (hsheds.ready h)
  | filed l₁ hlegal hchild hother htomb hsheds =>
    by_cases hself : k = r.key ∧ w = r.workItemId
    · obtain ⟨rfl, rfl⟩ := hself
      rw [hchild] at h
      exact Or.inr ⟨rfl, rfl, Option.some.inj h⟩
    · exact Or.inl (hother k w hself ▸ hsheds.ready h)

/-- A state a work item may start in is recorded, or there is one already. -/
theorem Filing.known_of_coldStart (hf : Filing l r l') (hvalid : r.Valid) (hcold : r.state ∈ WorkStatusState.coldStart) :
    Known l' r.key r.workItemId := by
  cases hf with
  | dropped hsheds hwhy =>
    refine hsheds.known ?_
    rcases hwhy with hillegal | hinvalid | ht
    · rcases hprevious : l.childState r.key r.workItemId with _ | previous
      · rw [hprevious, legalWorkStatusTransition, decide_eq_false_iff_not] at hillegal
        exact absurd hcold hillegal
      · exact Or.inr (by rw [hprevious]; rfl)
    · exact absurd hvalid hinvalid
    · exact Or.inl ht
  | filed l₁ hlegal hchild hother htomb hsheds => exact Or.inr (by rw [hchild]; rfl)

/-- **Cancelling a known child that is not ready shuts it.** -/
theorem Filing.shut_of_cancelled (hf : Filing l r l') (hvalid : r.Valid) (hstate : r.state = .cancelled)
    (hknown : Known l r.key r.workItemId) (hready : l.childState r.key r.workItemId ≠ some .resultReady) :
    Shut l' r.key r.workItemId := by
  cases hf with
  | dropped hsheds hwhy =>
    refine hsheds.shut ?_
    rcases hwhy with hillegal | hinvalid | ht
    · rcases hknown with ht | hsome
      · exact Or.inl ht
      · obtain ⟨previous, hprevious⟩ := Option.isSome_iff_exists.mp hsome
        rw [hprevious] at hready
        rw [hprevious, hstate] at hillegal
        refine Or.inr ?_
        rw [hprevious]
        cases previous with
        | failed => exact Or.inl rfl
        | cancelled => exact Or.inr rfl
        | resultReady => exact absurd rfl hready
        | routing => cases hillegal
        | searching => cases hillegal
        | background => cases hillegal
    · exact absurd hvalid hinvalid
    · exact Or.inl ht
  | filed l₁ hlegal hchild hother htomb hsheds => exact Or.inr (Or.inr (hchild.trans (congrArg some hstate)))

end WorkStatusLedger

end SubagentsLab

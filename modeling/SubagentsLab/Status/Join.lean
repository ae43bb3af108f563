import SubagentsLab.Status.Stream

/-!
# Status/Join — the parent record is the join of its children, until it freezes

A parent record is recomputed from its children on every report, so on a key that was never restored
it *is* their `aggregate` — up to the no-regression guard, which freezes the first terminal value
(`parent_eq_aggregate_or_frozen`).  The guard bites when a sibling is first reported after every
child known so far has settled: `late_sibling_not_joined` is the shortest such run, a child whose
worker is missing followed by a sibling that starts routing.
-/

namespace SubagentsLab

open Machinery

namespace WorkStatusLedger

variable {cfg : RetentionConfig} {l : WorkStatusLedger} {k : WorkStatusKey}

/-- The children recorded for a key, in the order they were first reported. -/
def childrenOf (l : WorkStatusLedger) (k : WorkStatusKey) : List WorkStatus :=
  ((l.children k).getD ∅).values

/-- `record` froze at the end of `es₀`: it was the join of the children recorded by then, all of
them terminal. -/
def FrozenAt (cfg : RetentionConfig) (l : WorkStatusLedger) (k : WorkStatusKey)
    (record : WorkStatusRecord) (es₀ : List Event) : Prop :=
  (after cfg l es₀).parents.get? k = some record ∧
    record.status.state = (aggregate (childrenOf (after cfg l es₀) k)).1 ∧
    record.status.state.terminal = true ∧
    ∀ c ∈ childrenOf (after cfg l es₀) k, c.state.terminal = true

/-! ## One call, at an authoritative key -/

/-- What one call does to the record and the children of a key that was never restored: a surviving
record keeps its children, or has just been joined with them, or is terminal and stays. -/
theorem step_join {e : Event} {record : WorkStatusRecord} (hauth : k ∉ l.nonauthoritativeKeys)
    (h : (step cfg l e).1.parents.get? k = some record) :
    (l.parents.get? k = some record ∧ childrenOf (step cfg l e).1 k = childrenOf l k) ∨
      record.status.state = (aggregate (childrenOf (step cfg l e).1 k)).1 ∨
      (l.parents.get? k = some record ∧ record.status.state.terminal = true) := by
  have hbatch : ∀ (l₁ : WorkStatusLedger) vs, (l₁.forgetAll vs).parents.get? k = some record →
      l₁.parents.get? k = some record ∧ (l₁.forgetAll vs).children k = l₁.children k := by
    intro l₁ vs hvs
    by_cases hk : k ∈ vs
    · simp [hk] at hvs
    · rw [get?_forgetAll, if_neg hk] at hvs
      exact ⟨hvs, by rw [children_forgetAll, if_neg hk]⟩
  cases e with
  | prune now =>
    obtain ⟨hrec, hch⟩ := hbatch l _ h
    exact Or.inl ⟨hrec, congrArg (fun c => (Option.getD c ∅).values) hch⟩
  | report r now =>
    have houtcome := setChildWorkStatus_outcome cfg l r now
    simp only [step] at h ⊢
    generalize setChildWorkStatus cfg l r now = res at houtcome h
    obtain ⟨l', res⟩ := res
    cases houtcome with
    | refused => exact Or.inl ⟨h, rfl⟩
    | invalid e =>
      refine Or.inl ⟨h, ?_⟩
      by_cases hk : k = r.key
      · subst hk; simp [childrenOf]
      · simp [childrenOf, hk]
    | shut hrecord =>
      have hk : k ≠ r.key := by
        rintro rfl
        exact absurd (hrecord.symm.trans h) (by simp)
      exact Or.inl ⟨h, by simp [childrenOf, hk]⟩
    | kept children child old hchild hchildren hrecord hkept =>
      by_cases hk : k = r.key
      · subst hk
        obtain rfl : old = record := Option.some.inj (hrecord.symm.trans h)
        rcases hkept with heq | hterm | hna
        · exact Or.inr (Or.inl (by simpa [childrenOf] using heq))
        · exact Or.inr (Or.inr ⟨h, hterm⟩)
        · exact absurd hna hauth
      · exact Or.inl ⟨h, by simp [childrenOf, hk]⟩
    | written children child new stamps vs hchild hchildren hlive hfresh hna hkey hstate hseq hvs =>
      obtain ⟨hrec, hch⟩ := hbatch _ vs h
      by_cases hk : k = r.key
      · subst hk
        obtain rfl : new = record := by simpa using hrec
        refine Or.inr (Or.inl ?_)
        rw [hstate]
        simp [childrenOf, hch]
      · refine Or.inl ⟨by simpa [hk] using hrec, ?_⟩
        simp [childrenOf, hch, hk]

/-- Nothing but a restore makes a key non-authoritative. -/
theorem nonauthoritativeKeys_step (l : WorkStatusLedger) (e : Event) :
    (step cfg l e).1.nonauthoritativeKeys = l.nonauthoritativeKeys := by
  cases e with
  | prune now => exact nonauthoritativeKeys_forgetAll l _
  | report r now =>
    have houtcome := setChildWorkStatus_outcome cfg l r now
    simp only [step]
    generalize setChildWorkStatus cfg l r now = res at houtcome
    obtain ⟨l', res⟩ := res
    cases houtcome with
    | refused | invalid | shut | kept => rfl
    | written => exact nonauthoritativeKeys_forgetAll _ _

theorem nonauthoritativeKeys_after (l : WorkStatusLedger) (es : List Event) :
    (after cfg l es).nonauthoritativeKeys = l.nonauthoritativeKeys :=
  run_invariant_of_step (I := fun l' => l'.nonauthoritativeKeys = l.nonauthoritativeKeys)
    (fun s e h => (nonauthoritativeKeys_step s e).trans h) rfl es

/-- A key the snapshot does not carry starts authoritative, with no record. -/
theorem fromSnapshot_of_not_carried {statuses : List WorkStatus} (restoredAt : ℚ)
    (h : carried statuses k = none) :
    k ∉ (fromSnapshot statuses restoredAt).nonauthoritativeKeys ∧
      (fromSnapshot statuses restoredAt).parents.get? k = none := by
  refine ⟨?_, by simpa [h] using (fromSnapshot_get statuses restoredAt k).1⟩
  induction statuses using List.reverseRecOn with
  | nil => exact Finset.notMem_empty k
  | append_singleton statuses status ih =>
    rw [carried_concat] at h
    split at h
    · cases h
    · rename_i hne
      rw [fromSnapshot_concat, restoreOne, Finset.mem_insert, not_or]
      exact ⟨fun hk => hne hk.symm, ih h⟩

/-! ## Whole runs -/

/-- **The parent is the join of its children, or frozen at their first terminal join.**  On a key the
snapshot does not carry (every key, when the ledger starts fresh), after any run: a parent record
equals `aggregate` over the current states of the children recorded for the key, unless it is
terminal — then it equals `aggregate` over the children recorded when it became terminal, every one
of which was terminal at that moment. -/
theorem parent_eq_aggregate_or_frozen (cfg : RetentionConfig) (statuses : List WorkStatus)
    (restoredAt : ℚ) (es : List Event) (k : WorkStatusKey) (hk : carried statuses k = none)
    (record : WorkStatusRecord)
    (h : (after cfg (fromSnapshot statuses restoredAt) es).parents.get? k = some record) :
    record.status.state
        = (aggregate (childrenOf (after cfg (fromSnapshot statuses restoredAt) es) k)).1 ∨
      ∃ es₀, es₀ <+: es ∧ FrozenAt cfg (fromSnapshot statuses restoredAt) k record es₀ := by
  obtain ⟨hauth, hnone⟩ := fromSnapshot_of_not_carried restoredAt hk
  induction es using List.reverseRecOn generalizing record with
  | nil =>
    rw [after, run_nil, hnone] at h
    cases h
  | append_singleton es e ih =>
    have hna : k ∉ (after cfg (fromSnapshot statuses restoredAt) es).nonauthoritativeKeys := by
      rwa [nonauthoritativeKeys_after]
    have hlast : after cfg (fromSnapshot statuses restoredAt) (es ++ [e])
        = (step cfg (after cfg (fromSnapshot statuses restoredAt) es) e).1 := by
      rw [after, run_append, run_cons, run_nil, ← after]
    rw [hlast] at h ⊢
    rcases step_join hna h with ⟨hold, hch⟩ | hjoin | ⟨hold, hterm⟩
    · rcases ih record hold with heq | ⟨es₀, hpre, hfrozen⟩
      · exact Or.inl (hch ▸ heq)
      · exact Or.inr ⟨es₀, hpre.trans (List.prefix_append es [e]), hfrozen⟩
    · exact Or.inl hjoin
    · rcases ih record hold with heq | ⟨es₀, hpre, hfrozen⟩
      · exact Or.inr ⟨es, List.prefix_append es [e], hold, heq, hterm,
          terminal_of_aggregate (heq ▸ hterm)⟩
      · exact Or.inr ⟨es₀, hpre.trans (List.prefix_append es [e]), hfrozen⟩

/-! ## A late sibling -/

/-- A turn with two delegated children: the first has no worker and fails, then the second is
delegated and starts routing. -/
def lateSibling : List Event :=
  [.report ⟨"turn-1", "work-turn-1-0", some "work-turn-1", none, .failed, some 1,
      some .missingWorker⟩ 0,
    .report ⟨"turn-1", "work-turn-1-1", some "work-turn-1", some "worker-1", .routing, some 1, none⟩
      1]

/-- The parent of `lateSibling`. -/
def lateSiblingKey : WorkStatusKey := ⟨some 1, "turn-1", "work-turn-1"⟩

/-- **A sibling reported after the first terminal join is not joined**: the client keeps seeing
`failed` while a delegated child of the same parent is routing, although the key was never restored
and its record never dropped. -/
theorem late_sibling_not_joined :
    ((after retentionConfig empty lateSibling).parents.get? lateSiblingKey).map (·.status.state)
        = some .failed ∧
      (aggregate (childrenOf (after retentionConfig empty lateSibling) lateSiblingKey)).1 = .routing ∧
      carried [] lateSiblingKey = none ∧
      ∀ n ≤ lateSibling.length, 0 < n →
        ((after retentionConfig empty (lateSibling.take n)).parents.get? lateSiblingKey).isSome := by
  decide

/-- The run of `lateSibling` is one the theorem speaks about. -/
theorem parent_frozen_lateSibling :
    carried [] lateSiblingKey = none ∧
      ∃ record, (after retentionConfig (fromSnapshot [] 0) lateSibling).parents.get? lateSiblingKey
          = some record ∧
        (record.status.state = (aggregate (childrenOf
            (after retentionConfig (fromSnapshot [] 0) lateSibling) lateSiblingKey)).1 ∨
          ∃ es₀, es₀ <+: lateSibling ∧
            FrozenAt retentionConfig (fromSnapshot [] 0) lateSiblingKey record es₀) := by
  have hsome : ((after retentionConfig (fromSnapshot [] 0) lateSibling).parents.get?
      lateSiblingKey).isSome := by decide
  obtain ⟨record, hrecord⟩ := Option.isSome_iff_exists.mp hsome
  exact ⟨rfl, record, hrecord,
    parent_eq_aggregate_or_frozen retentionConfig [] 0 lateSibling lateSiblingKey rfl record hrecord⟩

end WorkStatusLedger

end SubagentsLab

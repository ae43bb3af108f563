import SubagentsLab.Status.Moves

/-!
# Status/Stream — the work-status stream of one key

The events a client sees for one key are numbered without gaps, never repeat a state while the record
lives, and stop at the first terminal one.  Everything follows from `step_keyMove`: the counter of a
key moves exactly when the key is written, and a key that is **closed** — terminal on record, or
dropped while terminal — is never written again, whatever is pruned, evicted or reported later.
-/

namespace SubagentsLab

open Machinery

namespace WorkStatusLedger

variable {cfg : RetentionConfig} {l : WorkStatusLedger} {k : WorkStatusKey}

/-- The events a run emits for one key, oldest first. -/
def emitted (cfg : RetentionConfig) (l : WorkStatusLedger) (es : List Event) (k : WorkStatusKey) :
    List WorkStatus :=
  (outputs (step cfg) l es).filter (restoredKey · = k)

@[simp] theorem emitted_nil (l : WorkStatusLedger) (k : WorkStatusKey) : emitted cfg l [] k = [] :=
  rfl

theorem emitted_cons (l : WorkStatusLedger) (e : Event) (es : List Event) (k : WorkStatusKey) :
    emitted cfg l (e :: es) k
      = (step cfg l e).2.filter (restoredKey · = k) ++ emitted cfg (step cfg l e).1 es k := by
  rw [emitted, outputs, List.filter_append, emitted]

/-- A call that emits nothing for the key adds nothing to its stream. -/
theorem emitted_cons_of_silent {e : Event} {es : List Event}
    (h : ∀ s ∈ (step cfg l e).2, restoredKey s ≠ k) :
    emitted cfg l (e :: es) k = emitted cfg (step cfg l e).1 es k := by
  have hnil : (step cfg l e).2.filter (restoredKey · = k) = [] :=
    List.filter_eq_nil_iff.mpr fun s hs => by simpa using h s hs
  rw [emitted_cons, hnil, List.nil_append]

/-- …and a call that writes the key adds its status. -/
theorem emitted_cons_of_write {e : Event} {es : List Event} {status : WorkStatus}
    (h : (step cfg l e).2 = [status]) (hkey : restoredKey status = k) :
    emitted cfg l (e :: es) k = status :: emitted cfg (step cfg l e).1 es k := by
  rw [emitted_cons, h]
  simp [hkey]

/-! ## Numbering -/

/-- **The stream of a key is numbered without gaps**, from the counter the run starts with. -/
theorem eventSequence_emitted (l : WorkStatusLedger) (es : List Event) (k : WorkStatusKey) :
    (emitted cfg l es k).map (·.eventSequence)
      = List.range' ((l.sequence k).getD 0 + 1) (emitted cfg l es k).length := by
  induction es generalizing l with
  | nil => rfl
  | cons e es ih =>
    cases step_keyMove cfg l e k with
    | stays _ hseq _ hout => rw [emitted_cons_of_silent hout, ih, hseq]
    | drops _ _ _ hseq _ hout => rw [emitted_cons_of_silent hout, ih, hseq]
    | writes record hout hkey _ _ hseq _ hseq' =>
      rw [emitted_cons_of_write hout hkey, List.map_cons, ih, hseq', List.length_cons,
        List.range'_succ, Option.getD_some, hseq]

/-! ## Closed keys -/

/-- The key's record is terminal, or it was dropped while terminal. -/
def Closed (l : WorkStatusLedger) (k : WorkStatusKey) : Prop :=
  (∃ record, l.parents.get? k = some record ∧ record.status.state.terminal = true) ∨
    (l.parents.get? k = none ∧ k ∈ l.terminalKeys)

/-- **A closed key stays closed, and emits nothing.** -/
theorem Closed.step (cfg : RetentionConfig) (h : Closed l k) (e : Event) :
    Closed (step cfg l e).1 k ∧ ∀ s ∈ (WorkStatusLedger.step cfg l e).2, restoredKey s ≠ k := by
  cases step_keyMove cfg l e k with
  | stays hrecord _ htomb hout =>
    refine ⟨?_, hout⟩
    rwa [Closed, hrecord, htomb]
  | drops record hrecord hrecord' _ htomb hout =>
    refine ⟨Or.inr ⟨hrecord', htomb.mpr ?_⟩, hout⟩
    rcases h with ⟨record', h', ht⟩ | ⟨h', -⟩
    · rw [hrecord] at h'
      cases h'
      exact Or.inr ht
    · rw [hrecord] at h'
      cases h'
  | writes record hout hkey hlive hfresh _ _ _ =>
    rcases h with ⟨record', h', ht⟩ | ⟨h', ht⟩
    · rw [(hlive record' h').2] at ht
      cases ht
    · exact absurd ht (hfresh h')

theorem Closed.emitted_eq_nil (h : Closed l k) (es : List Event) : emitted cfg l es k = [] := by
  induction es generalizing l with
  | nil => rfl
  | cons e es ih =>
    obtain ⟨hclosed, hout⟩ := h.step cfg e
    rw [emitted_cons_of_silent hout, ih hclosed]

/-- **Nothing follows a terminal event.** -/
theorem emitted_terminal_last {es : List Event} {before later : List WorkStatus}
    {status : WorkStatus} (h : emitted cfg l es k = before ++ status :: later)
    (ht : status.state.terminal = true) : later = [] := by
  induction es generalizing l before with
  | nil => simp at h
  | cons e es ih =>
    cases step_keyMove cfg l e k with
    | stays _ _ _ hout => exact ih (emitted_cons_of_silent hout ▸ h)
    | drops _ _ _ _ _ hout => exact ih (emitted_cons_of_silent hout ▸ h)
    | writes record hout hkey _ _ _ hrecord' _ =>
      rw [emitted_cons_of_write hout hkey] at h
      cases before with
      | nil =>
        rw [List.nil_append, List.cons.injEq] at h
        have hclosed : Closed (step cfg l e).1 k := Or.inl ⟨record, hrecord', h.1 ▸ ht⟩
        rw [← h.2, hclosed.emitted_eq_nil]
      | cons first before =>
        rw [List.cons_append, List.cons.injEq] at h
        exact ih h.2

/-! ## A live record -/

/-- A record that is neither rewritten nor dropped along a run is the record at its end. -/
theorem get?_after_of_live {record : WorkStatusRecord} {es : List Event}
    (h : l.parents.get? k = some record)
    (hlive : ∀ mid, mid <+: es → ((after cfg l mid).parents.get? k).isSome)
    (hsilent : emitted cfg l es k = []) : (after cfg l es).parents.get? k = some record := by
  induction es generalizing l with
  | nil => exact h
  | cons e es ih =>
    have hnext : ((step cfg l e).1.parents.get? k).isSome := hlive [e] (by simp)
    refine ih ?_ (fun mid hmid => hlive (e :: mid) (List.cons_prefix_cons.mpr ⟨rfl, hmid⟩)) ?_
    · cases step_keyMove cfg l e k with
      | stays hrecord _ _ _ => exact hrecord.trans h
      | drops _ _ hrecord' _ _ _ =>
        rw [hrecord'] at hnext
        cases hnext
      | writes _ hout hkey _ _ _ _ _ =>
        rw [emitted_cons_of_write hout hkey] at hsilent
        cases hsilent
    · rw [emitted_cons, List.append_eq_nil_iff] at hsilent
      exact hsilent.2

/-- A call that emits for a key leaves that status on its record. -/
theorem get?_of_emits {e : Event} {status : WorkStatus} (h : (step cfg l e).2 = [status])
    (hkey : restoredKey status = k) :
    ∃ record, (step cfg l e).1.parents.get? k = some record ∧ record.status = status := by
  cases step_keyMove cfg l e k with
  | stays _ _ _ hout => exact absurd hkey (hout status (by simp [h]))
  | drops _ _ _ _ _ hout => exact absurd hkey (hout status (by simp [h]))
  | writes record hout _ _ _ _ hrecord' _ =>
    rw [h, List.cons.injEq] at hout
    exact ⟨record, hrecord', hout.1.symm⟩

/-- A call that emits for a key with a live record changes its state. -/
theorem state_ne_of_emits {e : Event} {status : WorkStatus} {record : WorkStatusRecord}
    (h : (step cfg l e).2 = [status]) (hkey : restoredKey status = k)
    (hrecord : l.parents.get? k = some record) : record.status.state ≠ status.state := by
  cases step_keyMove cfg l e k with
  | stays _ _ _ hout => exact absurd hkey (hout status (by simp [h]))
  | drops _ _ _ _ _ hout => exact absurd hkey (hout status (by simp [h]))
  | writes record' hout _ hlive _ _ _ _ =>
    rw [h, List.cons.injEq] at hout
    exact hout.1 ▸ (hlive record hrecord).1

/-! ## What a snapshot carries -/

/-- The status a snapshot carries for a key.  Two records that collapse onto one key overwrite each
other, so it is the last one filed under it. -/
def carried (statuses : List WorkStatus) (k : WorkStatusKey) : Option WorkStatus :=
  statuses.reverse.find? (restoredKey · = k)

/-- A ledger restored from an empty snapshot is the fresh ledger. -/
@[simp] theorem fromSnapshot_nil (restoredAt : ℚ) : fromSnapshot [] restoredAt = empty := rfl

theorem fromSnapshot_concat (statuses : List WorkStatus) (status : WorkStatus) (restoredAt : ℚ) :
    fromSnapshot (statuses ++ [status]) restoredAt
      = restoreOne restoredAt (fromSnapshot statuses restoredAt) status := by
  rw [fromSnapshot, List.foldl_append, List.foldl_cons, List.foldl_nil, ← fromSnapshot]

theorem carried_concat (statuses : List WorkStatus) (status : WorkStatus) (k : WorkStatusKey) :
    carried (statuses ++ [status]) k
      = if restoredKey status = k then some status else carried statuses k := by
  rw [carried, List.reverse_append, List.reverse_singleton, List.singleton_append, List.find?_cons]
  by_cases h : restoredKey status = k <;> simp [h, carried]

/-- **A restored ledger holds what the snapshot carries**: its record and its counter. -/
theorem fromSnapshot_get (statuses : List WorkStatus) (restoredAt : ℚ) (k : WorkStatusKey) :
    ((fromSnapshot statuses restoredAt).parents.get? k).map (·.status) = carried statuses k ∧
      (fromSnapshot statuses restoredAt).sequence k
        = (carried statuses k).map (·.eventSequence) := by
  induction statuses using List.reverseRecOn with
  | nil => exact ⟨rfl, rfl⟩
  | append_singleton statuses status ih =>
    rw [fromSnapshot_concat, carried_concat]
    by_cases h : restoredKey status = k
    · subst h
      simp [restoreOne]
    · have h' : k ≠ restoredKey status := fun hk => h hk.symm
      simp [restoreOne, h, h', ih]

/-- A key the snapshot carries as terminal starts closed. -/
theorem closed_fromSnapshot {statuses : List WorkStatus} {status : WorkStatus} (restoredAt : ℚ)
    (h : carried statuses k = some status) (ht : status.state.terminal = true) :
    Closed (fromSnapshot statuses restoredAt) k := by
  have hget := (fromSnapshot_get statuses restoredAt k).1
  rw [h, Option.map_eq_some_iff] at hget
  obtain ⟨record, hrecord, hstatus⟩ := hget
  exact Or.inl ⟨record, hrecord, hstatus ▸ ht⟩

/-- **The work-status stream of a key is monotone.**  Over every run from a fresh ledger or from a
snapshot, at any clock readings: its events are numbered consecutively after what the snapshot
carries, two consecutive ones carry different states while the record lives in between, and nothing
follows a terminal one — nor anything at all when the snapshot carries a terminal status. -/
theorem workStatus_stream_monotone (cfg : RetentionConfig) (statuses : List WorkStatus)
    (restoredAt : ℚ) (es : List Event) (k : WorkStatusKey) :
    ((emitted cfg (fromSnapshot statuses restoredAt) es k).map (·.eventSequence)
      = List.range' (((carried statuses k).map (·.eventSequence)).getD 0 + 1)
          (emitted cfg (fromSnapshot statuses restoredAt) es k).length) ∧
    (∀ es₁ e₁ es₂ e₂ es₃ status₁ status₂, es = es₁ ++ e₁ :: (es₂ ++ e₂ :: es₃) →
      (step cfg (after cfg (fromSnapshot statuses restoredAt) es₁) e₁).2 = [status₁] →
      (step cfg (after cfg (fromSnapshot statuses restoredAt) (es₁ ++ e₁ :: es₂)) e₂).2
        = [status₂] →
      restoredKey status₁ = k → restoredKey status₂ = k →
      emitted cfg (after cfg (fromSnapshot statuses restoredAt) (es₁ ++ [e₁])) es₂ k = [] →
      (∀ mid, mid <+: es₂ →
        ((after cfg (fromSnapshot statuses restoredAt) (es₁ ++ e₁ :: mid)).parents.get? k).isSome) →
      status₁.state ≠ status₂.state) ∧
    (∀ before status later,
      emitted cfg (fromSnapshot statuses restoredAt) es k = before ++ status :: later →
      status.state.terminal = true → later = []) ∧
    (∀ status, carried statuses k = some status → status.state.terminal = true →
      emitted cfg (fromSnapshot statuses restoredAt) es k = []) := by
  refine ⟨?_, ?_, ?_, ?_⟩
  · rw [eventSequence_emitted, (fromSnapshot_get statuses restoredAt k).2]
  · intro es₁ e₁ es₂ e₂ es₃ status₁ status₂ _ h₁ h₂ hk₁ hk₂ hsilent hlive
    have hsplit : ∀ mid, after cfg (fromSnapshot statuses restoredAt) (es₁ ++ e₁ :: mid)
        = after cfg (after cfg (fromSnapshot statuses restoredAt) (es₁ ++ [e₁])) mid := by
      intro mid
      rw [after, after, after, ← run_append, List.append_assoc, List.singleton_append]
    have hconcat : after cfg (fromSnapshot statuses restoredAt) (es₁ ++ [e₁])
        = (step cfg (after cfg (fromSnapshot statuses restoredAt) es₁) e₁).1 := by
      rw [after, run_append, run_cons, run_nil, ← after]
    obtain ⟨record, hrecord, hstatus⟩ := get?_of_emits h₁ hk₁
    rw [← hconcat] at hrecord
    have hend := get?_after_of_live hrecord (fun mid hmid => hsplit mid ▸ hlive mid hmid) hsilent
    rw [hsplit] at h₂
    exact hstatus ▸ state_ne_of_emits h₂ hk₂ hend
  · intro before status later h ht
    exact emitted_terminal_last h ht
  · intro status h ht
    exact (closed_fromSnapshot restoredAt h ht).emitted_eq_nil es

end WorkStatusLedger

end SubagentsLab

import SubagentsLab.Status.Ledger

/-!
# Status/Moves — what one call can do to one key

Every call of the ledger is a write to at most one key followed by a batch of `forgetWorkStatus`, so
it is enough to say once what such a batch does (`get?_forgetAll` and its companions) and which
branches a report can take (`ReportOutcome`).  `KeyMove` reads the result off at a single key: its
record stays, is dropped, or is written with the next sequence number.
-/

namespace SubagentsLab

open Machinery

namespace WorkStatusLedger

variable {cfg : RetentionConfig} {l : WorkStatusLedger} {key k : WorkStatusKey}

/-! ## A batch of drops -/

/-- Forget a list of keys, in order. -/
abbrev forgetAll (l : WorkStatusLedger) (vs : List WorkStatusKey) : WorkStatusLedger :=
  vs.foldl forgetWorkStatus l

@[simp] theorem get?_forgetWorkStatus (l : WorkStatusLedger) (key k : WorkStatusKey) :
    (l.forgetWorkStatus key).parents.get? k = if k = key then none else l.parents.get? k :=
  Dict.get?_pop l.parents key k

@[simp] theorem sequence_forgetWorkStatus (l : WorkStatusLedger) (key : WorkStatusKey) :
    (l.forgetWorkStatus key).sequence = l.sequence := rfl

@[simp] theorem children_forgetWorkStatus (l : WorkStatusLedger) (key k : WorkStatusKey) :
    (l.forgetWorkStatus key).children k = if k = key then none else l.children k :=
  Function.update_apply _ _ _ _

@[simp] theorem nonauthoritativeKeys_forgetWorkStatus (l : WorkStatusLedger) (key : WorkStatusKey) :
    (l.forgetWorkStatus key).nonauthoritativeKeys = l.nonauthoritativeKeys := rfl

theorem mem_terminalKeys_forgetWorkStatus :
    k ∈ (l.forgetWorkStatus key).terminalKeys ↔ k ∈ l.terminalKeys ∨
      (k = key ∧ ∃ r, l.parents.get? k = some r ∧ r.status.state.terminal = true) := by
  unfold forgetWorkStatus
  cases hr : l.parents.get? key with
  | none =>
    have : ¬ (k = key ∧ ∃ r, l.parents.get? k = some r ∧ r.status.state.terminal = true) := by
      rintro ⟨rfl, r, hr', -⟩
      rw [hr] at hr'
      cases hr'
    simp [this]
  | some r =>
    dsimp only
    split
    · rename_i ht
      rw [Finset.mem_insert]
      refine ⟨?_, ?_⟩
      · rintro (rfl | h)
        · exact Or.inr ⟨rfl, r, hr, ht⟩
        · exact Or.inl h
      · rintro (h | ⟨rfl, -⟩)
        · exact Or.inr h
        · exact Or.inl rfl
    · rename_i ht
      refine ⟨Or.inl, ?_⟩
      rintro (h | ⟨rfl, r', hr', ht'⟩)
      · exact h
      · rw [hr] at hr'
        cases hr'
        exact absurd ht' ht

@[simp] theorem sequence_forgetAll (l : WorkStatusLedger) (vs : List WorkStatusKey) :
    (l.forgetAll vs).sequence = l.sequence := by
  induction vs generalizing l with
  | nil => rfl
  | cons v vs ih => exact ih (l.forgetWorkStatus v)

@[simp] theorem nonauthoritativeKeys_forgetAll (l : WorkStatusLedger) (vs : List WorkStatusKey) :
    (l.forgetAll vs).nonauthoritativeKeys = l.nonauthoritativeKeys := by
  induction vs generalizing l with
  | nil => rfl
  | cons v vs ih => exact ih (l.forgetWorkStatus v)

@[simp] theorem get?_forgetAll (l : WorkStatusLedger) (vs : List WorkStatusKey)
    (k : WorkStatusKey) :
    (l.forgetAll vs).parents.get? k = if k ∈ vs then none else l.parents.get? k := by
  induction vs generalizing l with
  | nil => simp
  | cons v vs ih =>
    rw [forgetAll, List.foldl_cons, ← forgetAll, ih, get?_forgetWorkStatus]
    by_cases hv : k = v <;> simp [hv]

@[simp] theorem children_forgetAll (l : WorkStatusLedger) (vs : List WorkStatusKey)
    (k : WorkStatusKey) :
    (l.forgetAll vs).children k = if k ∈ vs then none else l.children k := by
  induction vs generalizing l with
  | nil => simp
  | cons v vs ih =>
    rw [forgetAll, List.foldl_cons, ← forgetAll, ih, children_forgetWorkStatus]
    by_cases hv : k = v <;> simp [hv]

/-- **A batch tombstones exactly the terminal records it drops.** -/
theorem mem_terminalKeys_forgetAll (l : WorkStatusLedger) (vs : List WorkStatusKey)
    (k : WorkStatusKey) :
    k ∈ (l.forgetAll vs).terminalKeys ↔ k ∈ l.terminalKeys ∨
      (k ∈ vs ∧ ∃ r, l.parents.get? k = some r ∧ r.status.state.terminal = true) := by
  induction vs generalizing l with
  | nil => simp
  | cons v vs ih =>
    rw [forgetAll, List.foldl_cons, ← forgetAll, ih, mem_terminalKeys_forgetWorkStatus,
      get?_forgetWorkStatus]
    by_cases hv : k = v
    · simp [hv]
    · simp [hv]

/-! ## Eviction and pruning are batches -/

/-- The victim is a record of the ledger other than the one just written. -/
theorem evictionVictim_mem {protect oldest : WorkStatusKey}
    (h : l.evictionVictim protect = some oldest) :
    oldest ≠ protect ∧ (l.parents.get? oldest).isSome := by
  have hmem := List.argmin_mem h
  rw [List.mem_filter] at hmem
  exact ⟨(of_decide_eq_true hmem.2).1, Dict.mem_keys.mp hmem.1⟩

/-- **Eviction is a batch that spares the key just written.** -/
theorem exists_evicted (cfg : RetentionConfig) (protect : WorkStatusKey) (fuel : ℕ)
    (l : WorkStatusLedger) :
    ∃ vs, evictWorkStatusOverflow cfg protect fuel l = l.forgetAll vs ∧ protect ∉ vs := by
  induction fuel generalizing l with
  | zero => exact ⟨[], rfl, List.not_mem_nil⟩
  | succ fuel ih =>
    unfold evictWorkStatusOverflow
    split
    · split
      · exact ⟨[], rfl, List.not_mem_nil⟩
      · rename_i oldest hv
        obtain ⟨vs, hvs, hnot⟩ := ih (l.forgetWorkStatus oldest)
        refine ⟨oldest :: vs, hvs, ?_⟩
        rw [List.mem_cons, not_or]
        exact ⟨fun h => (evictionVictim_mem hv).1 h.symm, hnot⟩
    · exact ⟨[], rfl, List.not_mem_nil⟩

/-! ## The branches of a report -/

/-- The ledger with a child filed under its parent, before the parent is recomputed. -/
abbrev withChildren (l : WorkStatusLedger) (key : WorkStatusKey)
    (children : Option (Dict String WorkStatus)) : WorkStatusLedger :=
  { l with children := Function.update l.children key children }

/-- The ledger with a report filed and its parent record written, before the overflow is evicted. -/
abbrev withRecord (l : WorkStatusLedger) (key : WorkStatusKey) (children : Dict String WorkStatus)
    (record : WorkStatusRecord) (stamps : WorkStatusKey → Option ℚ) : WorkStatusLedger :=
  { l with
    children := Function.update l.children key (some children)
    sequence := Function.update l.sequence key (some record.status.eventSequence)
    nonauthoritativeAt := stamps
    parents := l.parents.set key record }

/-- The ways a report can end: an illegal transition, arguments that do not validate, a key that is
shut (its record was dropped while terminal, or it was restored and the join is terminal), a record
the join does not move, and a record written with the next sequence number. -/
inductive ReportOutcome (l : WorkStatusLedger) (r : ChildReport) :
    WorkStatusLedger → Except WorkStatusError (Option WorkStatus) → Prop
  | refused : ReportOutcome l r l (.ok none)
  | invalid (e : WorkStatusError) :
      ReportOutcome l r (l.withChildren r.key (some ((l.children r.key).getD ∅))) (.error e)
  | shut (hrecord : l.parents.get? r.key = none) :
      ReportOutcome l r (l.withChildren r.key none) (.ok none)
  | kept (children : Dict String WorkStatus) (child : WorkStatus) (record : WorkStatusRecord)
      (hchild : child.state = r.state)
      (hchildren : children = ((l.children r.key).getD ∅).set r.workItemId child)
      (hrecord : l.parents.get? r.key = some record)
      (hkept : record.status.state = (aggregate children.values).1 ∨
        record.status.state.terminal = true ∨ r.key ∈ l.nonauthoritativeKeys) :
      ReportOutcome l r (l.withChildren r.key (some children)) (.ok none)
  | written (children : Dict String WorkStatus) (child : WorkStatus) (record : WorkStatusRecord)
      (stamps : WorkStatusKey → Option ℚ) (vs : List WorkStatusKey)
      (hchild : child.state = r.state)
      (hchildren : children = ((l.children r.key).getD ∅).set r.workItemId child)
      (hlive : ∀ old, l.parents.get? r.key = some old →
        old.status.state ≠ record.status.state ∧ old.status.state.terminal = false)
      (hfresh : l.parents.get? r.key = none → r.key ∉ l.terminalKeys)
      (hauth : r.key ∈ l.nonauthoritativeKeys → record.status.state.terminal = false)
      (hkey : restoredKey record.status = r.key)
      (hstate : record.status.state = (aggregate children.values).1)
      (hseq : record.status.eventSequence = (l.sequence r.key).getD 0 + 1)
      (hvs : r.key ∉ vs) :
      ReportOutcome l r ((l.withRecord r.key children record stamps).forgetAll vs)
        (.ok (some record.status))

/-- A report's key passes the checks its child passed. -/
theorem validate_parent {r : ChildReport} {child : WorkStatus} {workerId : Option String}
    (h : WorkStatus.validate r.turnId (some r.workItemId) workerId r.state 0 r.terminalReason
      r.originEpoch = .ok child) (n : ℕ) (children : List WorkStatus) :
    ∃ status, WorkStatus.validate r.key.turnId (some r.key.parentKey) none (aggregate children).1 n
        (aggregate children).2 r.key.originEpoch = .ok status := by
  obtain ⟨hturn, -, -, -, -, hepoch⟩ := WorkStatus.eq_of_validate h
  have ht : ¬ r.key.turnId = "" := fun h0 => child.turnId_ne (hturn.trans h0)
  have he : ∀ e ∈ r.key.originEpoch, 0 ≤ e := by
    intro e hmem
    exact child.originEpoch_nonneg e (hepoch ▸ hmem)
  unfold WorkStatus.validate
  rw [dif_neg ht, dif_pos he, dif_pos (failed_of_aggregate_reason children)]
  exact ⟨_, rfl⟩

/-- Only `set_child_work_status` inserts a child, so a filed children map is never empty. -/
theorem values_set_ne_nil (children : Dict String WorkStatus) (id : String) (child : WorkStatus) :
    (children.set id child).values ≠ [] := by
  intro h
  have hmem : child ∈ (children.set id child).values := Dict.mem_values.mpr ⟨id, by simp⟩
  rw [h] at hmem
  cases hmem

/-- The parent write always validates, so it ends in `written`. -/
theorem writeParent_outcome {r : ChildReport} {now : ℚ} {child : WorkStatus}
    {children : Dict String WorkStatus}
    (hvalid : WorkStatus.validate r.turnId (some r.workItemId) r.workerId r.state 0 r.terminalReason
      r.originEpoch = .ok child)
    (hchildren : children = ((l.children r.key).getD ∅).set r.workItemId child)
    (hlive : ∀ old, l.parents.get? r.key = some old →
      old.status.state ≠ (aggregate children.values).1 ∧ old.status.state.terminal = false)
    (hfresh : l.parents.get? r.key = none → r.key ∉ l.terminalKeys)
    (hauth : r.key ∈ l.nonauthoritativeKeys → (aggregate children.values).1.terminal = false) :
    ∀ out, writeParent cfg (l.withChildren r.key (some children)) r.key now
      (aggregate children.values) = out → ReportOutcome l r out.1 out.2 := by
  rintro out rfl
  obtain ⟨status, hstatus⟩ := validate_parent hvalid ((l.sequence r.key).getD 0 + 1) children.values
  obtain ⟨hturn, hitem, hstate, hseq, -, hepoch⟩ := WorkStatus.eq_of_validate hstatus
  have hkey : restoredKey status = r.key := by
    ext1
    · exact hepoch
    · exact hturn
    · simp [restoredKey, hitem]
  have hchild := (WorkStatus.eq_of_validate hvalid).2.2.1
  have key : ∀ at_ stamps fuel, ReportOutcome l r
      (evictWorkStatusOverflow cfg r.key fuel (l.withRecord r.key children ⟨status, at_⟩ stamps))
      (.ok (some status)) := by
    intro at_ stamps fuel
    obtain ⟨vs, hvs, hnot⟩ := exists_evicted cfg r.key fuel
      (l.withRecord r.key children ⟨status, at_⟩ stamps)
    rw [hvs]
    exact .written children child ⟨status, at_⟩ stamps vs hchild hchildren
      (by simpa [hstate] using hlive) hfresh (by simpa [hstate] using hauth) hkey hstate hseq hnot
  rw [← hseq] at hstatus
  simp only [writeParent, ← hseq, hstatus]
  exact key _ _ _

/-- **Every report ends in one of the five ways.** -/
theorem setChildWorkStatus_outcome (cfg : RetentionConfig) (l : WorkStatusLedger) (r : ChildReport)
    (now : ℚ) :
    ReportOutcome l r (setChildWorkStatus cfg l r now).1 (setChildWorkStatus cfg l r now).2 := by
  unfold setChildWorkStatus
  dsimp only
  split
  · exact .refused
  split
  · rename_i e _
    exact .invalid e
  rename_i child hvalid
  have hchild := (WorkStatus.eq_of_validate hvalid).2.2.1
  generalize hc : ((l.children r.key).getD ∅).set r.workItemId child = children
  have hne : children.values ≠ [] := hc ▸ values_set_ne_nil _ _ _
  unfold reaggregateParent
  simp only [Function.update_self, Option.getD_some, List.isEmpty_iff, hne, if_false]
  cases hrecord : l.parents.get? r.key with
  | none =>
    dsimp only
    split
    · simpa [withChildren] using ReportOutcome.shut (r := r) hrecord
    rename_i hfresh
    split
    · simpa [withChildren] using ReportOutcome.shut (r := r) hrecord
    rename_i hauth
    refine writeParent_outcome hvalid hc.symm ?_ (fun _ => hfresh) ?_ _ rfl
    · simp [hrecord]
    · simpa using hauth
  | some record =>
    dsimp only
    split
    · rename_i heq
      exact .kept children child record hchild hc.symm hrecord (Or.inl heq)
    rename_i hneq
    split
    · rename_i hterm
      exact .kept children child record hchild hc.symm hrecord (Or.inr (Or.inl hterm))
    rename_i hterm
    split
    · rename_i hauth
      exact .kept children child record hchild hc.symm hrecord (Or.inr (Or.inr hauth.1))
    rename_i hauth
    refine writeParent_outcome hvalid hc.symm ?_ ?_ ?_ _ rfl
    · intro old hold
      rw [hrecord] at hold
      cases hold
      exact ⟨hneq, by simpa using hterm⟩
    · simp [hrecord]
    · simpa using hauth

/-! ## One key at a time -/

/-- What a call that turns `l` into `l'` and emits `out` does to the key `k`. -/
inductive KeyMove (l l' : WorkStatusLedger) (out : List WorkStatus) (k : WorkStatusKey) : Prop
  | stays (hrecord : l'.parents.get? k = l.parents.get? k) (hseq : l'.sequence k = l.sequence k)
      (htomb : k ∈ l'.terminalKeys ↔ k ∈ l.terminalKeys) (hout : ∀ s ∈ out, restoredKey s ≠ k)
  | drops (record : WorkStatusRecord) (hrecord : l.parents.get? k = some record)
      (hrecord' : l'.parents.get? k = none) (hseq : l'.sequence k = l.sequence k)
      (htomb : k ∈ l'.terminalKeys ↔ k ∈ l.terminalKeys ∨ record.status.state.terminal = true)
      (hout : ∀ s ∈ out, restoredKey s ≠ k)
  | writes (record : WorkStatusRecord) (hout : out = [record.status])
      (hkey : restoredKey record.status = k)
      (hlive : ∀ old, l.parents.get? k = some old →
        old.status.state ≠ record.status.state ∧ old.status.state.terminal = false)
      (hfresh : l.parents.get? k = none → k ∉ l.terminalKeys)
      (hseq : record.status.eventSequence = (l.sequence k).getD 0 + 1)
      (hrecord' : l'.parents.get? k = some record)
      (hseq' : l'.sequence k = some record.status.eventSequence)

/-- A batch of drops that emits nothing for `k` keeps or drops its record. -/
theorem keyMove_forgetAll {vs : List WorkStatusKey} {out : List WorkStatus}
    (hout : ∀ s ∈ out, restoredKey s ≠ k) : KeyMove l (l.forgetAll vs) out k := by
  by_cases hv : k ∈ vs
  · cases hr : l.parents.get? k with
    | none => exact .stays (by simp [hv, hr]) (by simp) (by simp [mem_terminalKeys_forgetAll, hr]) hout
    | some record =>
      exact .drops record hr (by simp [hv]) (by simp)
        (by simp [mem_terminalKeys_forgetAll, hv, hr]) hout
  · exact .stays (by simp [hv]) (by simp) (by simp [mem_terminalKeys_forgetAll, hv]) hout

/-- The children map of a key plays no part in its move. -/
theorem KeyMove.of_agree (l₁ : WorkStatusLedger) {l' : WorkStatusLedger} {out : List WorkStatus}
    (hp : l₁.parents.get? k = l.parents.get? k) (hs : l₁.sequence k = l.sequence k)
    (ht : l₁.terminalKeys = l.terminalKeys) (h : KeyMove l₁ l' out k) : KeyMove l l' out k := by
  cases h with
  | stays h1 h2 h3 h4 => exact .stays (h1.trans hp) (h2.trans hs) (ht ▸ h3) h4
  | drops record h1 h2 h3 h4 h5 =>
    exact .drops record (hp ▸ h1) h2 (h3.trans hs) (ht ▸ h4) h5
  | writes record h1 h2 h3 h4 h5 h6 h7 =>
    exact .writes record h1 h2 (hp ▸ h3) (by rw [← hp, ← ht]; exact h4) (hs ▸ h5) h6 h7

/-- **One call, at one key**: its record stays, is dropped, or is written. -/
theorem step_keyMove (cfg : RetentionConfig) (l : WorkStatusLedger) (e : Event) (k : WorkStatusKey) :
    KeyMove l (step cfg l e).1 (step cfg l e).2 k := by
  cases e with
  | prune now => exact keyMove_forgetAll (by simp [step])
  | report r now =>
    have houtcome := setChildWorkStatus_outcome cfg l r now
    simp only [step]
    generalize setChildWorkStatus cfg l r now = res at houtcome
    obtain ⟨l', res⟩ := res
    cases houtcome with
    | refused => exact .stays rfl rfl Iff.rfl (by simp)
    | invalid e => exact .stays rfl rfl Iff.rfl (by simp)
    | shut hrecord => exact .stays rfl rfl Iff.rfl (by simp)
    | kept children child record hchild hchildren hrecord hkept =>
      exact .stays rfl rfl Iff.rfl (by simp)
    | written children child record stamps vs hchild hchildren hlive hfresh hauth hkey hstate hseq
        hvs =>
      by_cases hk : k = r.key
      · subst hk
        exact .writes record rfl hkey hlive hfresh hseq (by simp [hvs]) (by simp)
      · refine KeyMove.of_agree (l.withRecord r.key children record stamps) ?_ ?_ rfl
          (keyMove_forgetAll ?_)
        · simp [hk]
        · simp [hk]
        · simp only [List.mem_singleton, forall_eq, hkey]
          exact fun h => hk h.symm

end WorkStatusLedger

end SubagentsLab

import SubagentsLab.Status.Lockstep

/-!
# Status/Eviction — what the ledger may drop

A record is on the clock when it is terminal or its key was restored (`Clocked`).  Those are the only records
that eviction and pruning ever take, so live work is never dropped.  Eviction takes the oldest first and stops
at the cap, or when nothing but live records is left; pruning takes exactly the records whose time is up.
-/

namespace SubagentsLab

open Machinery

namespace WorkStatusLedger

variable {cfg : RetentionConfig} {l l' : WorkStatusLedger} {k : WorkStatusKey} {r : ChildReport} {now : ℚ}

/-! ## Which records are on the clock -/

/-- **The clocks are where they belong**: a record has a terminal instant exactly when it is terminal, and a
restored key has a clock exactly while it has a record. -/
structure Clocked (l : WorkStatusLedger) : Prop where
  terminal : ∀ k record, l.parents.get? k = some record → record.terminalAt.isSome = record.status.state.terminal
  restored : ∀ k, (l.nonauthoritativeAt k).isSome = true ↔
    k ∈ l.nonauthoritativeKeys ∧ (l.parents.get? k).isSome = true

/-- A live record: not terminal, and never restored. -/
def Live (l : WorkStatusLedger) (k : WorkStatusKey) (record : WorkStatusRecord) : Prop :=
  l.parents.get? k = some record ∧ record.status.state.terminal = false ∧ k ∉ l.nonauthoritativeKeys

theorem clocked_empty : Clocked empty where
  terminal k record hrecord := by
    have hnone : empty.parents.get? k = none := Dict.get?_empty k
    rw [hnone] at hrecord
    cases hrecord
  restored k := by simp [empty]

/-- **A record is off the clock exactly when it is live.** -/
theorem Clocked.stamp_eq_none_iff (h : Clocked l) {record : WorkStatusRecord} (hrecord : l.parents.get? k = some record) :
    l.workStatusExpiryStamp k = none ↔ Live l k record := by
  have hterminal := h.terminal k record hrecord
  have hrestored := h.restored k
  rw [hrecord] at hrestored
  rw [workStatusExpiryStamp, hrecord, Live]
  dsimp only
  rcases hat : record.terminalAt with _ | at_
  · rw [hat] at hterminal
    dsimp only
    rw [← Option.not_isSome_iff_eq_none, hrestored]
    simp [hrecord, ← hterminal]
  · rw [hat] at hterminal
    simp [hrecord, ← hterminal]

theorem nonauthoritativeAt_forgetWorkStatus (l : WorkStatusLedger) (key k : WorkStatusKey) :
    (l.forgetWorkStatus key).nonauthoritativeAt k = if k = key then none else l.nonauthoritativeAt k :=
  Function.update_apply _ _ _ _

/-- Forgetting a key leaves the clocks of the others alone. -/
theorem stamp_forgetWorkStatus (l : WorkStatusLedger) (key k : WorkStatusKey) :
    (l.forgetWorkStatus key).workStatusExpiryStamp k = if k = key then none else l.workStatusExpiryStamp k := by
  rw [workStatusExpiryStamp, workStatusExpiryStamp, get?_forgetWorkStatus, nonauthoritativeAt_forgetWorkStatus]
  by_cases hself : k = key
  · rw [if_pos hself, if_pos hself, if_pos hself]
  · rw [if_neg hself, if_neg hself, if_neg hself]

/-- A key without a record has no clock. -/
theorem isSome_of_stamp {t : ℚ} (h : l.workStatusExpiryStamp k = some t) : (l.parents.get? k).isSome = true := by
  rw [workStatusExpiryStamp] at h
  rcases hrecord : l.parents.get? k with _ | record
  · rw [hrecord] at h
    cases h
  · rfl

theorem Clocked.forgetWorkStatus (h : Clocked l) (key : WorkStatusKey) : Clocked (l.forgetWorkStatus key) := by
  refine ⟨fun k record hrecord => ?_, fun k => ?_⟩
  · rw [get?_forgetWorkStatus] at hrecord
    by_cases hself : k = key
    · rw [if_pos hself] at hrecord
      cases hrecord
    · rw [if_neg hself] at hrecord
      exact h.terminal k record hrecord
  · rw [nonauthoritativeAt_forgetWorkStatus, get?_forgetWorkStatus, nonauthoritativeKeys_forgetWorkStatus]
    by_cases hself : k = key
    · rw [if_pos hself, if_pos hself]
      simp
    · rw [if_neg hself, if_neg hself]
      exact h.restored k

theorem Clocked.forgetAll (h : Clocked l) (vs : List WorkStatusKey) : Clocked (l.forgetAll vs) := by
  induction vs generalizing l with
  | nil => exact h
  | cons v vs ih => exact ih (h.forgetWorkStatus v)

/-- A written record of a restored key is on the clock, and no other clock moves. -/
theorem stamped_apply (l : WorkStatusLedger) (key k : WorkStatusKey) (now : ℚ) :
    l.stamped key now k
      = if k = key ∧ key ∈ l.nonauthoritativeKeys then some ((l.nonauthoritativeAt key).getD now)
        else l.nonauthoritativeAt k := by
  rw [stamped]
  by_cases hauth : key ∈ l.nonauthoritativeKeys
  · rw [if_pos hauth, Function.update_apply]
    simp [hauth]
  · rw [if_neg hauth]
    simp [hauth]

theorem Clocked.withRecord (h : Clocked l) (key : WorkStatusKey) (children : Dict String WorkStatus)
    (status : WorkStatus) (now : ℚ) :
    Clocked (l.withRecord key children ⟨status, if status.state.terminal then some now else none⟩
      (l.stamped key now)) := by
  refine ⟨fun k record hrecord => ?_, fun k => ?_⟩
  · dsimp only at hrecord
    rw [Dict.get?_set] at hrecord
    by_cases hself : k = key
    · rw [if_pos hself] at hrecord
      cases hrecord
      dsimp only
      cases status.state.terminal <;> rfl
    · rw [if_neg hself] at hrecord
      exact h.terminal k record hrecord
  · dsimp only
    rw [stamped_apply, Dict.get?_set]
    have hrestored := h.restored k
    by_cases hself : k = key
    · subst hself
      by_cases hauth : k ∈ l.nonauthoritativeKeys
      · simp [hauth]
      · simpa [hauth] using hrestored
    · simpa [hself] using hrestored

theorem Clocked.restoreOne (h : Clocked l) (restoredAt : ℚ) (status : WorkStatus) :
    Clocked (restoreOne restoredAt l status) := by
  rw [WorkStatusLedger.restoreOne]
  refine ⟨fun k record hrecord => ?_, fun k => ?_⟩
  · dsimp only at hrecord
    rw [Dict.get?_set] at hrecord
    by_cases hself : k = restoredKey status
    · rw [if_pos hself] at hrecord
      cases hrecord
      dsimp only
      cases status.state.terminal <;> rfl
    · rw [if_neg hself] at hrecord
      exact h.terminal k record hrecord
  · dsimp only
    rw [Function.update_apply, Dict.get?_set, Finset.mem_insert]
    by_cases hself : k = restoredKey status
    · simp [hself]
    · simpa [hself] using h.restored k

theorem clocked_fromSnapshot (statuses : List WorkStatus) (restoredAt : ℚ) : Clocked (fromSnapshot statuses restoredAt) := by
  induction statuses using List.reverseRecOn with
  | nil => exact clocked_empty
  | append_singleton statuses status ih =>
    rw [fromSnapshot, List.foldl_append, List.foldl_cons, List.foldl_nil, ← fromSnapshot]
    exact ih.restoreOne restoredAt status

/-! ## The eviction loop -/

/-- **What eviction leaves**: the victims were on the clock and not the key just written, no victim is younger
than a candidate that stays, and what stays fits the cap or is off the clock. -/
structure EvictedTo (cfg : RetentionConfig) (protect : WorkStatusKey) (l l' : WorkStatusLedger) : Prop where
  batch : ∃ vs, l' = l.forgetAll vs ∧ ∀ v ∈ vs, v ≠ protect ∧ (l.workStatusExpiryStamp v).isSome = true
  oldest : ∀ k k' t t', k' ≠ protect → l.workStatusExpiryStamp k = some t → l.workStatusExpiryStamp k' = some t' →
    l'.parents.get? k = none → (l'.parents.get? k').isSome = true → t ≤ t'
  bounded : l'.parents.entries.length ≤ cfg.maxKeys ∨
    ∀ k, k ≠ protect → l'.workStatusExpiryStamp k = none

theorem evictedTo_refl {protect : WorkStatusKey} (h : l.parents.entries.length ≤ cfg.maxKeys ∨
    ∀ k, k ≠ protect → l.workStatusExpiryStamp k = none) : EvictedTo cfg protect l l := by
  refine ⟨⟨[], rfl, nofun⟩, ?_, h⟩
  intro k k' t t' _ hstamp _ hgone _
  have hsome := isSome_of_stamp hstamp
  rw [hgone] at hsome
  cases hsome

/-- No candidate is older than the victim. -/
theorem stamp_evictionVictim {protect oldest : WorkStatusKey} (h : l.evictionVictim protect = some oldest) :
    oldest ≠ protect ∧ ∃ t, l.workStatusExpiryStamp oldest = some t ∧
      ∀ k' t', k' ≠ protect → l.workStatusExpiryStamp k' = some t' → t ≤ t' := by
  have hmem := List.argmin_mem h
  rw [List.mem_filter] at hmem
  obtain ⟨hne, hsome⟩ := of_decide_eq_true hmem.2
  obtain ⟨t, ht⟩ := Option.isSome_iff_exists.mp hsome
  refine ⟨hne, t, ht, fun k' t' hne' ht' => ?_⟩
  have hcandidate : k' ∈ l.parents.keys.filter fun key => key ≠ protect ∧ (l.workStatusExpiryStamp key).isSome := by
    rw [List.mem_filter]
    exact ⟨Dict.mem_keys.mpr (isSome_of_stamp ht'), decide_eq_true ⟨hne', by rw [ht']; rfl⟩⟩
  have hle := List.le_of_mem_argmin hcandidate h
  rw [ht, ht'] at hle
  exact hle

/-- Without a victim nothing but the key just written is on the clock. -/
theorem stamp_of_no_victim {protect : WorkStatusKey} (h : l.evictionVictim protect = none) (k : WorkStatusKey)
    (hk : k ≠ protect) : l.workStatusExpiryStamp k = none := by
  rw [evictionVictim, List.argmin_eq_none, List.filter_eq_nil_iff] at h
  rcases hstamp : l.workStatusExpiryStamp k with _ | t
  · rfl
  · refine absurd (decide_eq_true ?_) (h k (Dict.mem_keys.mpr (isSome_of_stamp hstamp)))
    exact ⟨hk, by rw [hstamp]; rfl⟩

/-- **The eviction loop, with a round for every record.** -/
theorem evictedTo_evict (cfg : RetentionConfig) (protect : WorkStatusKey) (fuel : ℕ) (l : WorkStatusLedger)
    (hfuel : l.parents.entries.length ≤ fuel) : EvictedTo cfg protect l (evictWorkStatusOverflow cfg protect fuel l) := by
  induction fuel generalizing l with
  | zero => exact evictedTo_refl (Or.inl (hfuel.trans (Nat.zero_le _)))
  | succ fuel ih =>
    rw [evictWorkStatusOverflow]
    by_cases hfull : cfg.maxKeys < l.parents.entries.length
    · rw [if_pos hfull]
      rcases hvictim : l.evictionVictim protect with _ | oldest
      · exact evictedTo_refl (Or.inr (stamp_of_no_victim hvictim))
      · obtain ⟨hne, t₀, ht₀, hmin⟩ := stamp_evictionVictim hvictim
        have hshorter : (l.forgetWorkStatus oldest).parents.entries.length ≤ fuel := by
          have hlen := Dict.length_keys_pop l.parents oldest
          obtain ⟨record, hrecord⟩ := Option.isSome_iff_exists.mp (isSome_of_stamp ht₀)
          rw [Dict.keys, Dict.keys, List.length_map, List.length_map, hrecord, Option.toList_some,
            List.length_singleton] at hlen
          have hpop : (l.forgetWorkStatus oldest).parents = l.parents.pop oldest := rfl
          rw [hpop]
          omega
        obtain ⟨⟨vs, hvs, hclock⟩, hordered, hbound⟩ := ih (l.forgetWorkStatus oldest) hshorter
        dsimp only
        refine ⟨⟨oldest :: vs, hvs, ?_⟩, ?_, hbound⟩
        · intro v hv
          rcases List.mem_cons.mp hv with rfl | hv
          · exact ⟨hne, by rw [ht₀]; rfl⟩
          · obtain ⟨hv₁, hv₂⟩ := hclock v hv
            rw [stamp_forgetWorkStatus] at hv₂
            by_cases hself : v = oldest
            · rw [if_pos hself] at hv₂
              cases hv₂
            · rw [if_neg hself] at hv₂
              exact ⟨hv₁, hv₂⟩
        · intro k k' t t' hk' ht ht' hgone hstays
          by_cases hself : k = oldest
          · rw [hself, ht₀] at ht
            cases ht
            exact hmin k' t' hk' ht'
          · have hother : k' ≠ oldest := by
              rintro rfl
              rw [hvs, get?_forgetAll, get?_forgetWorkStatus, if_pos rfl, ite_self] at hstays
              cases hstays
            refine hordered k k' t t' hk' ?_ ?_ hgone hstays
            · rw [stamp_forgetWorkStatus, if_neg hself, ht]
            · rw [stamp_forgetWorkStatus, if_neg hother, ht']
    · rw [if_neg hfull]
      exact evictedTo_refl (Or.inl (Nat.not_lt.mp hfull))

/-! ## Reports -/

/-- A written ledger has the clock of every other key as it was. -/
theorem stamp_withRecord {key : WorkStatusKey} (children : Dict String WorkStatus) (record : WorkStatusRecord) (now : ℚ)
    (hk : k ≠ key) :
    (l.withRecord key children record (l.stamped key now)).workStatusExpiryStamp k = l.workStatusExpiryStamp k := by
  rw [workStatusExpiryStamp, workStatusExpiryStamp]
  dsimp only
  rw [Dict.get?_set, if_neg hk, stamped_apply, if_neg fun hc => hk hc.1]

/-- **A write, and what it drops.** -/
structure Wrote (cfg : RetentionConfig) (l l' : WorkStatusLedger) (key : WorkStatusKey) (status : WorkStatus) : Prop where
  /-- The record just written is there. -/
  present : ∃ record, l'.parents.get? key = some record ∧ record.status = status
  /-- The others are as they were, or gone; only records on the clock go. -/
  others : ∀ k, k ≠ key → l'.parents.get? k = l.parents.get? k ∨
    l'.parents.get? k = none ∧ (l.workStatusExpiryStamp k).isSome = true
  clocks : ∀ k, k ≠ key → (l'.parents.get? k).isSome = true → l'.workStatusExpiryStamp k = l.workStatusExpiryStamp k
  oldest : ∀ k k' t t', k ≠ key → k' ≠ key → l.workStatusExpiryStamp k = some t → l'.parents.get? k = none →
    l'.workStatusExpiryStamp k' = some t' → t ≤ t'
  bounded : l'.parents.entries.length ≤ cfg.maxKeys ∨
    ∀ k record, k ≠ key → l'.parents.get? k = some record → Live l' k record

theorem stamp_forgetAll (l : WorkStatusLedger) (vs : List WorkStatusKey) (k : WorkStatusKey) :
    (l.forgetAll vs).workStatusExpiryStamp k = if k ∈ vs then none else l.workStatusExpiryStamp k := by
  induction vs generalizing l with
  | nil => simp
  | cons v vs ih =>
    rw [WorkStatusLedger.forgetAll, List.foldl_cons, ← WorkStatusLedger.forgetAll, ih, stamp_forgetWorkStatus]
    by_cases hv : k = v <;> simp [hv]

theorem Clocked.wrote (h : Clocked l) {key : WorkStatusKey} (children : Dict String WorkStatus) (status : WorkStatus)
    (now : ℚ) {record : WorkStatusRecord} (hrecord : record = ⟨status, if status.state.terminal then some now else none⟩)
    (hevicted : EvictedTo cfg key (l.withRecord key children record (l.stamped key now)) l') :
    Clocked l' ∧ Wrote cfg l l' key status := by
  obtain ⟨⟨vs, hvs, hclock⟩, hordered, hbound⟩ := hevicted
  have hself : key ∉ vs := fun hmem => (hclock key hmem).1 rfl
  have hclocked : Clocked l' := by
    rw [hvs, hrecord]
    exact (h.withRecord key children status now).forgetAll vs
  have hget : ∀ k, k ≠ key → l'.parents.get? k = if k ∈ vs then none else l.parents.get? k := by
    intro k hk
    rw [hvs, get?_forgetAll]
    dsimp only
    rw [Dict.get?_set, if_neg hk]
  have hstamp : ∀ k, k ≠ key → l'.workStatusExpiryStamp k = if k ∈ vs then none else l.workStatusExpiryStamp k := by
    intro k hk
    rw [hvs, stamp_forgetAll, stamp_withRecord children record now hk]
  refine ⟨hclocked, ⟨record, ?_, by rw [hrecord]⟩, fun k hk => ?_, fun k hk hsome => ?_, ?_, ?_⟩
  · rw [hvs, get?_forgetAll, if_neg hself]
    dsimp only
    rw [Dict.get?_set, if_pos rfl]
  · rw [hget k hk]
    by_cases hmem : k ∈ vs
    · have hon := (hclock k hmem).2
      rw [stamp_withRecord children record now hk] at hon
      exact Or.inr ⟨if_pos hmem, hon⟩
    · exact Or.inl (if_neg hmem)
  · rw [hstamp k hk]
    refine if_neg fun hmem => ?_
    rw [hget k hk, if_pos hmem] at hsome
    cases hsome
  · intro k k' t t' hk hk' ht hgone ht'
    refine hordered k k' t t' hk' ?_ ?_ hgone (isSome_of_stamp ht')
    · rw [stamp_withRecord children record now hk, ht]
    · rw [hstamp k' hk'] at ht'
      by_cases hmem : k' ∈ vs
      · rw [if_pos hmem] at ht'
        cases ht'
      · rw [stamp_withRecord children record now hk', ← ht', if_neg hmem]
  · refine hbound.imp_right fun hlive k old hk hold => ?_
    exact (hclocked.stamp_eq_none_iff hold).mp (hlive k hk)

/-- **What a report does to the records**: it writes its key, or touches none. -/
theorem Clocked.report (h : Clocked l) (cfg : RetentionConfig) (r : ChildReport) (now : ℚ) :
    Clocked (setChildWorkStatus cfg l r now).1 ∧
      ((∀ status, (setChildWorkStatus cfg l r now).2 ≠ .ok (some status)) ∧
          (setChildWorkStatus cfg l r now).1.parents = l.parents ∨
        ∃ status, (setChildWorkStatus cfg l r now).2 = .ok (some status) ∧ restoredKey status = r.key ∧
          Wrote cfg l (setChildWorkStatus cfg l r now).1 r.key status) := by
  have hstep := setChildWorkStatus_step cfg l r now
  generalize setChildWorkStatus cfg l r now = out at hstep
  obtain ⟨l', res⟩ := out
  dsimp only at hstep ⊢
  cases hstep with
  | refused hillegal => exact ⟨h, Or.inl ⟨fun _ => nofun, rfl⟩⟩
  | invalid e hlegal hinvalid => exact ⟨⟨h.terminal, h.restored⟩, Or.inl ⟨fun _ => nofun, rfl⟩⟩
  | shut children' hlegal hvalid hfiled hrecord hwhy => exact ⟨⟨h.terminal, h.restored⟩, Or.inl ⟨fun _ => nofun, rfl⟩⟩
  | kept children record hlegal hvalid hfiled hrecord hkept =>
    exact ⟨⟨h.terminal, h.restored⟩, Or.inl ⟨fun _ => nofun, rfl⟩⟩
  | written children status hlegal hvalid hfiled hlive hfresh hauth hkey hstate hseq =>
    obtain ⟨hclocked, hwrote⟩ := h.wrote children status now rfl (evictedTo_evict cfg r.key _ _ le_rfl)
    exact ⟨hclocked, Or.inr ⟨status, rfl, hkey, hwrote⟩⟩

/-! ## Pruning -/

/-- The record's time is up. -/
def expired (cfg : RetentionConfig) (l : WorkStatusLedger) (now : ℚ) (k : WorkStatusKey) : Bool :=
  match l.workStatusExpiryStamp k with
  | some stamp => cfg.ttlSeconds ≤ now - stamp
  | none => false

theorem expired_iff : expired cfg l now k = true ↔ ∃ stamp, l.workStatusExpiryStamp k = some stamp ∧ cfg.ttlSeconds ≤ now - stamp := by
  rw [expired]
  rcases l.workStatusExpiryStamp k with _ | stamp
  · simp
  · simp

theorem entries_forgetAll (l : WorkStatusLedger) (vs : List WorkStatusKey) :
    (l.forgetAll vs).parents.entries = l.parents.entries.filter fun e => e.1 ∉ vs := by
  induction vs generalizing l with
  | nil => simp
  | cons v vs ih =>
    rw [WorkStatusLedger.forgetAll, List.foldl_cons, ← WorkStatusLedger.forgetAll, ih]
    have hpop : (l.forgetWorkStatus v).parents.entries = l.parents.entries.filter fun e => e.1 ≠ v := rfl
    rw [hpop, List.filter_filter]
    refine List.filter_congr fun e _ => ?_
    simp [Bool.and_comm]

/-- **A prune drops the records whose time is up, and no other**, in order. -/
theorem entries_prune (cfg : RetentionConfig) (l : WorkStatusLedger) (now : ℚ) :
    (l.pruneExpiredWorkStatus cfg now).parents.entries = l.parents.entries.filter fun e => !expired cfg l now e.1 := by
  have hprune : l.pruneExpiredWorkStatus cfg now = l.forgetAll (l.parents.keys.filter (expired cfg l now)) := rfl
  rw [hprune, entries_forgetAll]
  refine List.filter_congr fun e he => ?_
  have hkey : e.1 ∈ l.parents.keys := List.mem_map_of_mem he
  simp [List.mem_filter, hkey]

/-- The records of a snapshot, in ledger order. -/
theorem workStatusSnapshot_eq (cfg : RetentionConfig) (l : WorkStatusLedger) (now : ℚ) :
    (l.workStatusSnapshot cfg now).2
      = (l.parents.entries.filter fun e => !expired cfg l now e.1).map fun e => e.2.status := by
  rw [workStatusSnapshot]
  dsimp only
  rw [Dict.values, entries_prune, List.map_map]
  rfl

theorem Clocked.prune (h : Clocked l) (cfg : RetentionConfig) (now : ℚ) : Clocked (l.pruneExpiredWorkStatus cfg now) :=
  h.forgetAll _

/-! ## Runs -/

theorem step_report_ledger (cfg : RetentionConfig) (l : WorkStatusLedger) (r : ChildReport) (now : ℚ) :
    (step cfg l (.report r now)).1 = (setChildWorkStatus cfg l r now).1 := by
  rw [step]
  split <;> rename_i heq <;> rw [heq]

theorem Clocked.step (h : Clocked l) (cfg : RetentionConfig) (e : Event) : Clocked (step cfg l e).1 := by
  cases e with
  | prune now => exact h.prune cfg now
  | report r now =>
    rw [step_report_ledger]
    exact (h.report cfg r now).1

theorem clocked_after (cfg : RetentionConfig) (statuses : List WorkStatus) (restoredAt : ℚ) (es : List Event) :
    Clocked (after cfg (fromSnapshot statuses restoredAt) es) :=
  run_invariant_of_step (fun _ e h => h.step cfg e) (clocked_fromSnapshot statuses restoredAt) es

/-- **Live work is never dropped**: whatever is reported or pruned, a live record stays, or is rewritten by a
report of its own key. -/
theorem live_step (h : Clocked l) {record : WorkStatusRecord} (hlive : Live l k record) (cfg : RetentionConfig)
    (e : Event) :
    ∃ record', (step cfg l e).1.parents.get? k = some record' ∧
      (record' = record ∨ ∃ r now, e = .report r now ∧ r.key = k ∧ (step cfg l e).2 = [record'.status]) := by
  have hstamp := (h.stamp_eq_none_iff hlive.1).mpr hlive
  cases e with
  | prune now =>
    refine ⟨record, ?_, Or.inl rfl⟩
    rw [Dict.get?_eq_some_iff, WorkStatusLedger.step, entries_prune, List.mem_filter]
    refine ⟨Dict.get?_eq_some_iff.mp hlive.1, ?_⟩
    simp [expired, hstamp]
  | report r now =>
    rw [WorkStatusLedger.step]
    rcases (h.report cfg r now).2 with ⟨hquiet, hparents⟩ | ⟨status, hout, -, hwrote⟩
    · refine ⟨record, ?_, Or.inl rfl⟩
      split <;> rename_i heq <;> rw [heq] at hparents hquiet <;> dsimp only at hparents ⊢ <;> rw [hparents, hlive.1]
    · generalize setChildWorkStatus cfg l r now = out at hout hwrote ⊢
      obtain ⟨l', res⟩ := out
      dsimp only at hout hwrote
      subst hout
      dsimp only
      by_cases hself : k = r.key
      · obtain ⟨record', hrecord', rfl⟩ := hwrote.present
        exact ⟨record', hself ▸ hrecord', Or.inr ⟨r, now, rfl, hself.symm, rfl⟩⟩
      · rcases hwrote.others k hself with hsame | ⟨-, hon⟩
        · exact ⟨record, hsame.trans hlive.1, Or.inl rfl⟩
        · rw [hstamp] at hon
          cases hon

end WorkStatusLedger

end SubagentsLab

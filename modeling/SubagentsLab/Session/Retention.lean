import Mathlib.Tactic.Linarith
import SubagentsLab.Session.View
import SubagentsLab.Status.Moves

/-!
# Session/Retention — inside the window nothing is dropped

While every reading of a clock falls into one window shorter than the TTL, and no more keys are in play
than the cap allows, neither side drops a work-status record: the ledger only writes, a snapshot carries
all of it, and the browser's board is a plain dictionary without tombstones.
-/

namespace SubagentsLab

open Machinery

/-! ## The ledger -/

namespace WorkStatusLedger

variable {cfg : RetentionConfig} {l : WorkStatusLedger}

theorem evictWorkStatusOverflow_of_le {protect : WorkStatusKey} (fuel : ℕ)
    (h : l.parents.keys.length ≤ cfg.maxKeys) : evictWorkStatusOverflow cfg protect fuel l = l := by
  have hle : l.parents.entries.length ≤ cfg.maxKeys := by
    rwa [Dict.keys, List.length_map] at h
  cases fuel with
  | zero => rfl
  | succ fuel => rw [evictWorkStatusOverflow, if_neg (Nat.not_lt.mpr hle)]

/-- What a report leaves of the parent records, when there is room for one more. -/
def ParentsMove (l l' : WorkStatusLedger) (key : WorkStatusKey) (now : ℚ) : Prop :=
  l'.nonauthoritativeAt = l.nonauthoritativeAt ∧
    (l'.parents = l.parents ∨
      ∃ status at_, l'.parents = l.parents.set key ⟨status, at_⟩ ∧ (at_ = none ∨ at_ = some now))

theorem parentsMove_writeParent (hauth : l.nonauthoritativeKeys = ∅) {key : WorkStatusKey}
    (hroom : ∀ record, (l.parents.set key record).keys.length ≤ cfg.maxKeys) (now : ℚ)
    (joined : WorkStatusState × Option TerminalReason) :
    ParentsMove l (l.writeParent cfg key now joined).1 key now := by
  rw [writeParent]
  dsimp only
  split
  · exact ⟨rfl, Or.inl rfl⟩
  · rename_i status _
    have hkey : key ∉ l.nonauthoritativeKeys := by
      rw [hauth]
      exact Finset.notMem_empty key
    rw [evictWorkStatusOverflow_of_le _ (hroom _)]
    refine ⟨if_neg hkey, Or.inr ⟨status, _, rfl, ?_⟩⟩
    split_ifs
    · exact Or.inr rfl
    · exact Or.inl rfl

theorem parentsMove_reaggregateParent (hauth : l.nonauthoritativeKeys = ∅) {key : WorkStatusKey}
    (hroom : ∀ record, (l.parents.set key record).keys.length ≤ cfg.maxKeys) (now : ℚ) :
    ParentsMove l (l.reaggregateParent cfg key now).1 key now := by
  rw [reaggregateParent]
  dsimp only
  repeat' split
  all_goals first
    | exact ⟨rfl, Or.inl rfl⟩
    | exact parentsMove_writeParent hauth hroom now _

/-- **With room for its key, a report drops nothing.** -/
theorem parentsMove_setChildWorkStatus (hauth : l.nonauthoritativeKeys = ∅) {r : ChildReport}
    (hroom : ∀ record, (l.parents.set r.key record).keys.length ≤ cfg.maxKeys) (now : ℚ) :
    ParentsMove l (l.setChildWorkStatus cfg r now).1 r.key now := by
  rw [setChildWorkStatus]
  dsimp only
  split
  · exact ⟨rfl, Or.inl rfl⟩
  · split
    · exact ⟨rfl, Or.inl rfl⟩
    · exact parentsMove_reaggregateParent (l := l.withChildren r.key _) hauth hroom now

/-- The ledger inside a window that starts at `T`, with keys from `K`. -/
structure Windowed (T : ℚ) (K : Finset WorkStatusKey) (l : WorkStatusLedger) : Prop where
  filed : ∀ k record, l.parents.get? k = some record →
    k ∈ K ∧ restoredKey record.status = k ∧ l.sequence k = some record.status.eventSequence ∧
      ∀ at_ ∈ record.terminalAt, T ≤ at_
  authoritative : l.nonauthoritativeKeys = ∅
  unclocked : ∀ k, l.nonauthoritativeAt k = none

variable {T : ℚ} {K : Finset WorkStatusKey}

theorem windowed_empty : Windowed T K empty :=
  ⟨fun _ _ h => (Option.some_ne_none _ h.symm).elim, rfl, fun _ => rfl⟩

theorem Windowed.room (h : Windowed T K l) (hcap : K.card ≤ cfg.maxKeys) {key : WorkStatusKey} (hkey : key ∈ K)
    (record : WorkStatusRecord) : (l.parents.set key record).keys.length ≤ cfg.maxKeys := by
  refine (Dict.length_keys_le fun k hk => ?_).trans hcap
  rw [Dict.get?_set] at hk
  split_ifs at hk with heq
  · exact heq ▸ hkey
  · obtain ⟨record', hget⟩ := Option.isSome_iff_exists.mp hk
    exact (h.filed k record' hget).1

/-- **A report in the window**: one key is written and emitted, or nothing happens to the records. -/
theorem Windowed.report (h : Windowed T K l) (hcap : K.card ≤ cfg.maxKeys) {r : ChildReport} (hkey : r.key ∈ K)
    {now : ℚ} (hnow : T ≤ now) :
    Windowed T K (l.setChildWorkStatus cfg r now).1 ∧
      ((∀ status, (l.setChildWorkStatus cfg r now).2 ≠ .ok (some status)) ∧
        (l.setChildWorkStatus cfg r now).1.parents = l.parents ∨
      ∃ record, (l.setChildWorkStatus cfg r now).2 = .ok (some record.status) ∧
        restoredKey record.status = r.key ∧
        (∀ old, l.parents.get? r.key = some old → old.status.eventSequence < record.status.eventSequence) ∧
        ∀ k, (l.setChildWorkStatus cfg r now).1.parents.get? k
          = if k = r.key then some record else l.parents.get? k) := by
  have hmove := parentsMove_setChildWorkStatus h.authoritative (h.room hcap hkey) now
  have hout := setChildWorkStatus_outcome cfg l r now
  revert hmove hout
  generalize (l.setChildWorkStatus cfg r now).1 = l'
  generalize (l.setChildWorkStatus cfg r now).2 = out
  intro hmove hout
  cases hout with
  | refused => exact ⟨h, Or.inl ⟨fun _ => nofun, rfl⟩⟩
  | invalid e => exact ⟨⟨h.filed, h.authoritative, h.unclocked⟩, Or.inl ⟨fun _ => nofun, rfl⟩⟩
  | shut => exact ⟨⟨h.filed, h.authoritative, h.unclocked⟩, Or.inl ⟨fun _ => nofun, rfl⟩⟩
  | kept => exact ⟨⟨h.filed, h.authoritative, h.unclocked⟩, Or.inl ⟨fun _ => nofun, rfl⟩⟩
  | written children child record stamps vs hchild hchildren hlive hfresh hauth hrestored hstate hseq hvs =>
    obtain ⟨hunclocked, hparents⟩ := hmove
    have hself : ((l.withRecord r.key children record stamps).forgetAll vs).parents.get? r.key = some record := by
      simp [hvs]
    obtain ⟨at_, hat, hget⟩ : ∃ at_, (at_ = none ∨ at_ = some now) ∧
        ((l.withRecord r.key children record stamps).forgetAll vs).parents
          = l.parents.set r.key ⟨record.status, at_⟩ ∧ record.terminalAt = at_ := by
      rcases hparents with hsame | ⟨status, at_, hset, hat⟩
      · rw [hsame] at hself
        exact absurd rfl (hlive record hself).1
      · rw [hset, Dict.get?_set, if_pos rfl] at hself
        cases hself
        exact ⟨at_, hat, hset, rfl⟩
    have hafter : ∀ k, ((l.withRecord r.key children record stamps).forgetAll vs).parents.get? k
        = if k = r.key then some record else l.parents.get? k := by
      intro k
      rw [hget.1, Dict.get?_set, ← hget.2]
    have hsequence : ∀ k, ((l.withRecord r.key children record stamps).forgetAll vs).sequence k
        = if k = r.key then some record.status.eventSequence else l.sequence k := by
      intro k
      rw [sequence_forgetAll]
      exact Function.update_apply _ _ _ _
    refine ⟨⟨fun k record' hk => ?_, ?_, ?_⟩, Or.inr ⟨record, rfl, hrestored, fun old hold => ?_, hafter⟩⟩
    · rw [hafter] at hk
      rw [hsequence]
      split_ifs at hk ⊢ with heq
      · cases hk
        refine ⟨heq ▸ hkey, heq ▸ hrestored, rfl, fun t ht => ?_⟩
        rw [hget.2] at ht
        rcases hat with rfl | rfl
        · cases ht
        · cases ht
          exact hnow
      · exact h.filed k record' hk
    · rw [nonauthoritativeKeys_forgetAll]
      exact h.authoritative
    · intro k
      rw [hunclocked]
      exact h.unclocked k
    · rw [hseq, (h.filed r.key old hold).2.2.1]
      exact Nat.lt_succ_self _

theorem Windowed.young (h : Windowed T K l) {now : ℚ} (hnow : now < T + cfg.ttlSeconds) {key : WorkStatusKey}
    {stamp : ℚ} (hstamp : l.workStatusExpiryStamp key = some stamp) : ¬cfg.ttlSeconds ≤ now - stamp := by
  rw [workStatusExpiryStamp] at hstamp
  split at hstamp
  · cases hstamp
  · rename_i record hget
    obtain ⟨-, -, -, hstamped⟩ := h.filed key record hget
    split at hstamp
    · rename_i hat
      cases hstamp
      have hle := hstamped stamp (by rw [hat]; rfl)
      linarith
    · rw [h.unclocked key] at hstamp
      cases hstamp

/-- **A snapshot in the window carries every record.** -/
theorem Windowed.workStatusSnapshot (h : Windowed T K l) {now : ℚ} (hnow : now < T + cfg.ttlSeconds) :
    l.workStatusSnapshot cfg now = (l, l.parents.values.map (·.status)) := by
  have hnone : l.pruneExpiredWorkStatus cfg now = l := by
    rw [pruneExpiredWorkStatus, List.filter_eq_nil_iff.mpr]
    · rfl
    · intro key _
      rcases hstamp : l.workStatusExpiryStamp key with _ | stamp
      · simp
      · simpa using h.young hnow hstamp
  rw [WorkStatusLedger.workStatusSnapshot, hnone]

end WorkStatusLedger

/-! ## The board -/

namespace Session.StatusBoard

variable {cfg : RetentionConfig} {b : StatusBoard}

/-- The board inside a window that starts at `B`, with keys from `K`. -/
structure Windowed (B : ℚ) (K : Finset String) (b : StatusBoard) : Prop where
  filed : ∀ key record, b.workStatus.get? key = some record →
    key ∈ K ∧ (∀ t ∈ record.terminalSince, B ≤ t) ∧ ∀ t ∈ record.restoredAt, B ≤ t
  tombstones : b.tombstones = ∅

variable {B : ℚ} {K : Finset String}

theorem windowed_empty : Windowed B K {} := ⟨fun _ _ h => (Option.some_ne_none _ h.symm).elim, rfl⟩

theorem stamp_status (status : WorkStatus) (now : ℚ) (previous : Option StampedStatus) (isRestore : Bool) :
    (stamp status now previous isRestore).status = status := by
  rw [stamp]
  split_ifs <;> rfl

/-- A record keeps the stamps of the one before, or is stamped now. -/
theorem stamp_stamped {previous : Option StampedStatus} (hprevious : ∀ record ∈ previous,
      (∀ t ∈ record.terminalSince, B ≤ t) ∧ ∀ t ∈ record.restoredAt, B ≤ t)
    {now : ℚ} (hnow : B ≤ now) (status : WorkStatus) (isRestore : Bool) :
    (∀ t ∈ (stamp status now previous isRestore).terminalSince, B ≤ t) ∧
      ∀ t ∈ (stamp status now previous isRestore).restoredAt, B ≤ t := by
  rcases previous with _ | record
  · rw [stamp]
    split_ifs <;> simp [hnow]
  · obtain ⟨hterminal, hrestored⟩ := hprevious record rfl
    have hgetD : ∀ o : Option ℚ, (∀ t ∈ o, B ≤ t) → B ≤ o.getD now := by
      intro o ho
      rcases o with _ | t
      · exact hnow
      · exact ho t rfl
    rw [stamp]
    split_ifs
    · simpa using hgetD record.terminalSince hterminal
    · simpa using hgetD record.restoredAt hrestored
    · simpa using hrestored

/-- **In the window an upsert only writes.** -/
theorem Windowed.upsert (h : Windowed B K b) (hcap : K.card ≤ cfg.maxKeys) {key : String} (hkey : key ∈ K)
    (status : WorkStatus) {now : ℚ} (hstart : B ≤ now) (hend : now < B + ttlMs cfg)
    {previous : Option StampedStatus} (hprevious : ∀ record ∈ previous,
      (∀ t ∈ record.terminalSince, B ≤ t) ∧ ∀ t ∈ record.restoredAt, B ≤ t) (isRestore : Bool) :
    b.upsert cfg key status now previous isRestore
        = { b with workStatus := b.workStatus.set key (stamp status now previous isRestore) } ∧
      Windowed B K { b with workStatus := b.workStatus.set key (stamp status now previous isRestore) } := by
  set written := b.workStatus.set key (stamp status now previous isRestore) with hwritten
  have hwindow : Windowed B K { b with workStatus := written } := by
    refine ⟨fun k record hget => ?_, h.tombstones⟩
    rw [hwritten, Dict.get?_set] at hget
    split_ifs at hget with heq
    · cases hget
      exact ⟨heq ▸ hkey, stamp_stamped hprevious hstart status isRestore⟩
    · exact h.filed k record hget
  refine ⟨?_, hwindow⟩
  have hexpired : expired cfg written now = [] := by
    rw [expired, List.filter_eq_nil_iff]
    intro k hk
    obtain ⟨record, hget⟩ := Option.isSome_iff_exists.mp (Dict.mem_keys.mp hk)
    obtain ⟨-, hterminal, hrestored⟩ := hwindow.filed k record hget
    rcases hstamp : record.expiryStamp with _ | t
    · simp [hget, hstamp]
    · have hle : B ≤ t := by
        rw [StampedStatus.expiryStamp] at hstamp
        rcases hsince : record.terminalSince with _ | since
        · rw [hsince, Option.none_or] at hstamp
          exact hrestored t hstamp
        · rw [hsince, Option.some_or] at hstamp
          exact hterminal t (hsince.trans hstamp)
      have hyoung : ¬ttlMs cfg ≤ now - t := by linarith
      simpa [hget, hstamp] using hyoung
  have hevicted : evicted cfg key written.keys.length written = [] := by
    have hle : written.keys.length ≤ cfg.maxKeys := by
      refine (Dict.length_keys_le fun k hk => ?_).trans hcap
      obtain ⟨record, hget⟩ := Option.isSome_iff_exists.mp hk
      exact (hwindow.filed k record hget).1
    rcases written.keys.length with _ | rounds
    · rfl
    · rw [evicted, if_neg (Nat.not_lt.mpr hle)]
  rw [StatusBoard.upsert, ← hwritten]
  simp only [hexpired, hevicted, List.foldl_nil, List.append_nil, List.filterMap_nil]
  rw [remember, if_pos rfl]

end Session.StatusBoard

end SubagentsLab

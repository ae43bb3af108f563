import SubagentsLab.Session.Browser
import SubagentsLab.Session.Retention

/-!
# Session/Board — what the browser's board keeps of what it is told

Every record reaches the board through an upsert, which also prunes and evicts.  What it drops leaves a tombstone
behind, and while no more keys are dropped than there is room for, no tombstone is lost (`Upserted`).  A snapshot
goes through the same door: a record of it keeps the stamp of the record it replaces, and when that has run out it
is pruned on arrival.
-/

namespace SubagentsLab

open Machinery

namespace Session

/-- The record's time is up. -/
def StampedStatus.isExpired (cfg : RetentionConfig) (now : ℚ) (r : StampedStatus) : Bool :=
  r.expiryStamp.any fun stamp => StatusBoard.ttlMs cfg ≤ now - stamp

/-- Where keys are distinct, a status is found by its key. -/
theorem find?_of_nodup {statuses : List WorkStatus} (hnodup : (statuses.map workStatusKey).Nodup) {status : WorkStatus}
    (hmem : status ∈ statuses) : statuses.find? (fun other => workStatusKey other = workStatusKey status) = some status := by
  induction statuses with
  | nil => cases hmem
  | cons head rest ih =>
    rw [List.map_cons, List.nodup_cons] at hnodup
    rw [List.find?_cons]
    rcases List.mem_cons.mp hmem with rfl | hrest
    · simp
    · have hne : workStatusKey head ≠ workStatusKey status := fun hc => hnodup.1 (hc ▸ List.mem_map_of_mem hrest)
      rw [decide_eq_false hne]
      exact ih hnodup.2 hrest

namespace StatusBoard

variable {cfg : RetentionConfig} {b : StatusBoard} {now : ℚ} {key : String} {D : Finset String}

/-! ## Tombstones -/

/-- No tombstone is lost, and none falls. -/
def Raised (t t' : Dict String ℕ) : Prop := ∀ k n, t.get? k = some n → ∃ m, t'.get? k = some m ∧ n ≤ m

theorem raised_refl (t : Dict String ℕ) : Raised t t := fun _ n h => ⟨n, h, le_rfl⟩

theorem Raised.trans {t t' t'' : Dict String ℕ} (h : Raised t t') (h' : Raised t' t'') : Raised t t'' := by
  intro k n hn
  obtain ⟨m, hm, hle⟩ := h k n hn
  obtain ⟨m', hm', hle'⟩ := h' k m hm
  exact ⟨m', hm', hle.trans hle'⟩

/-- The keys of the tombstones are from `D`. -/
def Within (D : Finset String) (t : Dict String ℕ) : Prop := ∀ k, (t.get? k).isSome = true → k ∈ D

/-- One tombstone is noted. -/
theorem raised_set (t : Dict String ℕ) (k : String) (n : ℕ) : Raised t (t.set k (max ((t.get? k).getD 0) n)) := by
  intro k' n' hn'
  rw [Dict.get?_set]
  by_cases hk : k' = k
  · rw [if_pos hk]
    refine ⟨_, rfl, ?_⟩
    rw [← hk, hn', Option.getD_some]
    exact le_max_left _ _
  · rw [if_neg hk]
    exact ⟨n', hn', le_rfl⟩

/-- **While there is room, dropping notes every key dropped and loses none.** -/
theorem remember_spec (hcap : D.card ≤ cfg.maxKeys) {t : Dict String ℕ} (ht : Within D t)
    {dropped : List (String × StampedStatus)} (hdropped : ∀ e ∈ dropped, e.1 ∈ D) :
    Within D (remember cfg t dropped) ∧ Raised t (remember cfg t dropped) ∧
      ∀ e ∈ dropped, ∃ m, (remember cfg t dropped).get? e.1 = some m ∧ e.2.status.eventSequence ≤ m := by
  have hnoted : ∀ (dropped : List (String × StampedStatus)) (t : Dict String ℕ), Within D t → (∀ e ∈ dropped, e.1 ∈ D) →
      let next := dropped.foldl (fun t entry =>
        t.set entry.1 (max ((t.get? entry.1).getD 0) entry.2.status.eventSequence)) t
      Within D next ∧ Raised t next ∧ ∀ e ∈ dropped, ∃ m, next.get? e.1 = some m ∧ e.2.status.eventSequence ≤ m := by
    intro dropped
    induction dropped with
    | nil => exact fun t ht _ => ⟨ht, raised_refl t, fun e he => absurd he List.not_mem_nil⟩
    | cons entry rest ih =>
      intro t ht hdropped
      have hraised := raised_set t entry.1 entry.2.status.eventSequence
      have hself : (t.set entry.1 (max ((t.get? entry.1).getD 0) entry.2.status.eventSequence)).get? entry.1
          = some (max ((t.get? entry.1).getD 0) entry.2.status.eventSequence) := by rw [Dict.get?_set, if_pos rfl]
      have hwithin : Within D (t.set entry.1 (max ((t.get? entry.1).getD 0) entry.2.status.eventSequence)) := by
        intro k hk
        rw [Dict.get?_set] at hk
        by_cases hself : k = entry.1
        · exact hself ▸ hdropped entry List.mem_cons_self
        · rw [if_neg hself] at hk
          exact ht k hk
      obtain ⟨hwithin', hraised', hnoted⟩ := ih _ hwithin fun e he => hdropped e (List.mem_cons_of_mem _ he)
      refine ⟨hwithin', hraised.trans hraised', fun e he => ?_⟩
      rcases List.mem_cons.mp he with rfl | he
      · obtain ⟨m, hm, hle⟩ := hraised' e.1 _ hself
        exact ⟨m, hm, (le_max_right _ _).trans hle⟩
      · exact hnoted e he
  obtain ⟨hwithin, hraised, hall⟩ := hnoted dropped t ht hdropped
  rw [remember]
  by_cases hnil : dropped = []
  · rw [if_pos hnil, hnil]
    exact ⟨ht, raised_refl t, fun e he => absurd he List.not_mem_nil⟩
  · rw [if_neg hnil]
    dsimp only at hwithin hraised hall ⊢
    have hroom := (Dict.length_keys_le hwithin).trans hcap
    rw [Nat.sub_eq_zero_of_le hroom, List.take_zero, List.foldl_nil]
    exact ⟨hwithin, hraised, hall⟩

/-! ## One upsert -/

theorem mem_expired {workStatus : Dict String StampedStatus} {k : String} :
    k ∈ expired cfg workStatus now ↔ ∃ r, workStatus.get? k = some r ∧ r.isExpired cfg now = true := by
  rw [expired, List.mem_filter, Dict.mem_keys]
  constructor
  · rintro ⟨hsome, hexpired⟩
    obtain ⟨r, hr⟩ := Option.isSome_iff_exists.mp hsome
    rw [hr] at hexpired
    exact ⟨r, hr, hexpired⟩
  · rintro ⟨r, hr, hexpired⟩
    rw [hr]
    exact ⟨rfl, hexpired⟩

/-- Eviction spares the key just written. -/
theorem mem_evicted {rounds : ℕ} {workStatus : Dict String StampedStatus} {k : String}
    (h : k ∈ evicted cfg key rounds workStatus) : k ≠ key ∧ (workStatus.get? k).isSome = true := by
  induction rounds generalizing workStatus with
  | zero => cases h
  | succ rounds ih =>
    rw [evicted] at h
    split_ifs at h with hfull
    · rcases holdest : oldest workStatus key with _ | victim
      · rw [holdest] at h
        cases h
      · rw [holdest] at h
        rcases List.mem_cons.mp h with rfl | hrest
        · have hmem := List.argmin_mem holdest
          rw [List.mem_filter] at hmem
          exact ⟨(of_decide_eq_true hmem.2).1, Dict.mem_keys.mp hmem.1⟩
        · obtain ⟨hne, hsome⟩ := ih hrest
          rw [Dict.get?_pop] at hsome
          by_cases hvictim : k = victim
          · rw [if_pos hvictim] at hsome
            cases hsome
          · rw [if_neg hvictim] at hsome
            exact ⟨hne, hsome⟩
    · cases h

/-- The records an upsert has in hand: those of the board, and the one it writes. -/
def written (b : StatusBoard) (key : String) (status : WorkStatus) (now : ℚ) (previous : Option StampedStatus)
    (isRestore : Bool) : Dict String StampedStatus :=
  b.workStatus.set key (stamp status now previous isRestore)

/-- The records that are left of them once the expired ones are pruned. -/
def pruned (cfg : RetentionConfig) (workStatus : Dict String StampedStatus) (now : ℚ) : Dict String StampedStatus :=
  (expired cfg workStatus now).foldl Dict.pop workStatus

/-- **What an upsert retains**: what it has in hand, less what is expired and what is evicted. -/
theorem get?_upsert (cfg : RetentionConfig) (b : StatusBoard) (key : String) (status : WorkStatus) (now : ℚ)
    (previous : Option StampedStatus) (isRestore : Bool) (k : String) :
    (b.upsert cfg key status now previous isRestore).workStatus.get? k
      = if k ∈ expired cfg (b.written key status now previous isRestore) now ∨
            k ∈ evicted cfg key (pruned cfg (b.written key status now previous isRestore) now).keys.length
              (pruned cfg (b.written key status now previous isRestore) now) then none
        else (b.written key status now previous isRestore).get? k := by
  set W := b.written key status now previous isRestore with hW
  have hworkStatus : (b.upsert cfg key status now previous isRestore).workStatus
      = (evicted cfg key (pruned cfg W now).keys.length (pruned cfg W now)).foldl Dict.pop (pruned cfg W now) := rfl
  have hpruned : (pruned cfg W now).get? k = if k ∈ expired cfg W now then none else W.get? k := Dict.get?_foldl_pop _ _ _
  rw [hworkStatus, Dict.get?_foldl_pop, hpruned]
  by_cases hx : k ∈ expired cfg W now <;>
    by_cases he : k ∈ evicted cfg key (pruned cfg W now).keys.length (pruned cfg W now) <;> simp [hx, he]

/-- The keys an upsert drops. -/
def upsertDrops (cfg : RetentionConfig) (b : StatusBoard) (key : String) (status : WorkStatus) (now : ℚ)
    (previous : Option StampedStatus) (isRestore : Bool) : List String :=
  (b.written key status now previous isRestore).keys.filter fun k =>
    ((b.upsert cfg key status now previous isRestore).workStatus.get? k).isNone

/-- **What an upsert leaves**: its own record unless that is expired, others as they were or dropped, nothing that
is expired, and a tombstone for everything dropped. -/
structure Upserted (cfg : RetentionConfig) (D : Finset String) (now : ℚ) (b : StatusBoard) (key : String)
    (record : StampedStatus) (b' : StatusBoard) : Prop where
  within : Within D b'.tombstones
  raised : Raised b.tombstones b'.tombstones
  self : b'.workStatus.get? key = if record.isExpired cfg now then none else some record
  other : ∀ k, k ≠ key → b'.workStatus.get? k = b.workStatus.get? k ∨ b'.workStatus.get? k = none
  young : ∀ k r, b'.workStatus.get? k = some r → r.isExpired cfg now = false
  noted : ∀ k r, (if k = key then some record else b.workStatus.get? k) = some r → b'.workStatus.get? k = none →
    ∃ m, b'.tombstones.get? k = some m ∧ r.status.eventSequence ≤ m

theorem upserted (hcap : D.card ≤ cfg.maxKeys) (hwithin : Within D b.tombstones) (status : WorkStatus)
    (previous : Option StampedStatus) (isRestore : Bool)
    (hdrops : ∀ k ∈ b.upsertDrops cfg key status now previous isRestore, k ∈ D) :
    Upserted cfg D now b key (stamp status now previous isRestore) (b.upsert cfg key status now previous isRestore) := by
  set W := b.written key status now previous isRestore with hW
  set X := expired cfg W now with hX
  set E := evicted cfg key (pruned cfg W now).keys.length (pruned cfg W now) with hE
  set b' := b.upsert cfg key status now previous isRestore with hb'
  have hget : ∀ k, b'.workStatus.get? k = if k ∈ X ∨ k ∈ E then none else W.get? k :=
    get?_upsert cfg b key status now previous isRestore
  have hWget : ∀ k, W.get? k = if k = key then some (stamp status now previous isRestore) else b.workStatus.get? k :=
    fun k => Dict.get?_set _ _ _ _
  have hprotect : key ∉ E := fun hmem => (mem_evicted hmem).1 rfl
  -- What is dropped is what was in hand and is not retained.
  have hlist : ∀ k r, W.get? k = some r → b'.workStatus.get? k = none →
      (k, r) ∈ (X ++ E).filterMap fun k => if k ≠ key ∨ (b'.workStatus.get? key).isNone then (W.get? k).map (k, ·) else none := by
    intro k r hk hgone
    rw [hget k] at hgone
    have hmem : k ∈ X ∨ k ∈ E := by
      by_contra hnot
      rw [if_neg hnot, hk] at hgone
      cases hgone
    rw [List.mem_filterMap]
    refine ⟨k, List.mem_append.mpr hmem, ?_⟩
    rw [if_pos, hk, Option.map_some]
    by_cases hself : k = key
    · refine Or.inr ?_
      rw [hget key, if_pos (hself ▸ hmem)]
      rfl
    · exact Or.inl hself
  have hdropped : ∀ e ∈ (X ++ E).filterMap (fun k => if k ≠ key ∨ (b'.workStatus.get? key).isNone then (W.get? k).map (k, ·) else none),
      e.1 ∈ D := by
    intro e he
    rw [List.mem_filterMap] at he
    obtain ⟨k, hk, hsome⟩ := he
    split_ifs at hsome
    obtain ⟨r, hr, rfl⟩ := Option.map_eq_some_iff.mp hsome
    refine hdrops k ?_
    rw [upsertDrops, List.mem_filter]
    refine ⟨Dict.mem_keys.mpr (by rw [← hW, hr]; rfl), ?_⟩
    rw [← hb', hget k, if_pos (List.mem_append.mp hk)]
    rfl
  obtain ⟨hwithin', hraised, hnoted⟩ := remember_spec hcap hwithin hdropped
  have htombs : b'.tombstones = remember cfg b.tombstones
      ((X ++ E).filterMap fun k => if k ≠ key ∨ (b'.workStatus.get? key).isNone then (W.get? k).map (k, ·) else none) := rfl
  rw [← htombs] at hwithin' hraised hnoted
  refine ⟨hwithin', hraised, ?_, fun k hk => ?_, fun k r hr => ?_, fun k r hr hgone => ?_⟩
  · rw [hget key, hWget key, if_pos rfl]
    have hiff : (key ∈ X ∨ key ∈ E) ↔ (stamp status now previous isRestore).isExpired cfg now = true := by
      rw [or_iff_left hprotect, hX, mem_expired, hWget key, if_pos rfl]
      simp
    simp only [hiff]
  · rw [hget k, hWget k, if_neg hk]
    split_ifs
    · exact Or.inr rfl
    · exact Or.inl rfl
  · rw [hget k] at hr
    split_ifs at hr with hmem
    rw [not_or, hX, mem_expired] at hmem
    by_contra hexpired
    exact hmem.1 ⟨r, hr, by simpa using hexpired⟩
  · rw [← hWget k] at hr
    exact hnoted (k, r) (hlist k r hr hgone)

/-! ## A snapshot -/

/-- The stamp a record of a snapshot takes over from the one it replaces. -/
def carriedStamp (status : WorkStatus) (old : StampedStatus) : Option ℚ :=
  if status.state.terminal then old.terminalSince else old.restoredAt

/-- **The board has time for the record**: the stamp it would take over, if any, has not run out. -/
def Welcome (cfg : RetentionConfig) (b : StatusBoard) (now : ℚ) (status : WorkStatus) : Prop :=
  ∀ old, b.workStatus.get? (workStatusKey status) = some old → ∀ t, carriedStamp status old = some t →
    now - t < ttlMs cfg

theorem expiryStamp_restored (status : WorkStatus) (now : ℚ) (previous : Option StampedStatus) :
    (stamp status now previous true).expiryStamp = some ((previous.bind (carriedStamp status)).getD now) := by
  rw [stamp]
  by_cases hterminal : status.state.terminal = true
  · have hcarried : carriedStamp status = (·.terminalSince) := funext fun old => if_pos hterminal
    rw [if_pos hterminal, hcarried]
    rfl
  · have hcarried : carriedStamp status = (·.restoredAt) := funext fun old => if_neg hterminal
    rw [if_neg hterminal, if_pos rfl, hcarried]
    rfl

/-- A record of a snapshot expires on arrival exactly when the stamp it takes over has run out. -/
theorem isExpired_restored_iff (httl : 0 < ttlMs cfg) (b : StatusBoard) (status : WorkStatus) (now : ℚ) :
    (stamp status now (b.workStatus.get? (workStatusKey status)) true).isExpired cfg now = false ↔
      b.Welcome cfg now status := by
  rw [StampedStatus.isExpired, expiryStamp_restored, Option.any_some, decide_eq_false_iff_not, not_le, Welcome]
  rcases b.workStatus.get? (workStatusKey status) with _ | old
  · simpa using httl
  · rcases hcarried : carriedStamp status old with _ | t
    · simp [hcarried, httl]
    · simp [hcarried]

theorem evicted_of_le {rounds : ℕ} {workStatus : Dict String StampedStatus} (h : workStatus.keys.length ≤ cfg.maxKeys) :
    evicted cfg key rounds workStatus = [] := by
  cases rounds with
  | zero => rfl
  | succ rounds => rw [evicted, if_neg (Nat.not_lt.mpr h)]

/-- What is left of the records of a snapshot, read one by one. -/
theorem get?_restoring (before : Dict String StampedStatus) (tombstones : Dict String ℕ) (now : ℚ)
    {statuses : List WorkStatus} (hnodup : (statuses.map workStatusKey).Nodup) (hcap : statuses.length ≤ cfg.maxKeys)
    (k : String) :
    (statuses.foldl (restoreOne cfg before now) ⟨∅, tombstones⟩).workStatus.get? k
      = (statuses.find? fun status => workStatusKey status = k).bind fun status =>
          if (stamp status now (before.get? k) true).isExpired cfg now then none
          else some (stamp status now (before.get? k) true) := by
  induction statuses using List.reverseRecOn generalizing k with
  | nil => rfl
  | append_singleton statuses status ih =>
    rw [List.map_append, List.map_singleton, List.nodup_append] at hnodup
    rw [List.length_append, List.length_singleton] at hcap
    have hih := fun k => ih hnodup.1 (Nat.le_of_succ_le hcap) k
    rw [List.foldl_append, List.foldl_cons, List.foldl_nil, List.find?_append]
    set acc := statuses.foldl (restoreOne cfg before now) ⟨∅, tombstones⟩ with hacc
    set key := workStatusKey status with hkey
    have hnew : statuses.find? (fun status => workStatusKey status = key) = none := by
      rw [List.find?_eq_none]
      intro other hother hsame
      exact hnodup.2.2 _ (List.mem_map_of_mem hother) key (List.mem_singleton_self _) (of_decide_eq_true hsame)
    have habsent : acc.workStatus.get? key = none := by rw [hih key, hnew]; rfl
    have hyoung : ∀ k r, acc.workStatus.get? k = some r → r.isExpired cfg now = false := by
      intro k r hr
      rw [hih k, Option.bind_eq_some_iff] at hr
      obtain ⟨other, -, hother⟩ := hr
      split_ifs at hother with hexpired
      cases hother
      simpa using hexpired
    have hone : (restoreOne cfg before now acc status).workStatus
        = (acc.upsert cfg key status now (before.get? key) true).workStatus := by
      rw [restoreOne, ← hkey, habsent, Option.or_none]
    have hW : ∀ k, (acc.written key status now (before.get? key) true).get? k
        = if k = key then some (stamp status now (before.get? key) true) else acc.workStatus.get? k :=
      fun k => Dict.get?_set _ _ _ _
    -- There is room for every record, so none is evicted.
    have hroom : (pruned cfg (acc.written key status now (before.get? key) true) now).keys.length ≤ cfg.maxKeys := by
      have hkeys : ∀ k, ((pruned cfg (acc.written key status now (before.get? key) true) now).get? k).isSome →
          k ∈ ((statuses ++ [status]).map workStatusKey).toFinset := by
        intro k hk
        rw [pruned, Dict.get?_foldl_pop] at hk
        by_cases hexpired : k ∈ expired cfg (acc.written key status now (before.get? key) true) now
        · rw [if_pos hexpired] at hk
          cases hk
        · rw [if_neg hexpired, hW k] at hk
          rw [List.mem_toFinset, List.map_append, List.mem_append]
          by_cases hself : k = key
          · exact Or.inr (List.mem_singleton.mpr hself)
          · rw [if_neg hself, hih k] at hk
            rcases hfind : statuses.find? (fun status => workStatusKey status = k) with _ | other
            · rw [hfind] at hk
              cases hk
            · have htold : workStatusKey other = k := by simpa using List.find?_some hfind
              exact Or.inl (List.mem_map.mpr ⟨other, List.mem_of_find?_eq_some hfind, htold⟩)
      refine (Dict.length_keys_le hkeys).trans ((List.toFinset_card_le _).trans ?_)
      rw [List.length_map, List.length_append, List.length_singleton]
      exact hcap
    rw [hone, get?_upsert, evicted_of_le hroom]
    simp only [List.not_mem_nil, or_false, mem_expired, hW]
    by_cases hself : k = key
    · rw [hself, hnew, Option.none_or, if_pos rfl]
      simp [hkey]
    · have hother : ([status].find? fun status => workStatusKey status = k) = none := by
        simpa [← hkey] using Ne.symm hself
      rw [hother, Option.or_none, if_neg hself, ← hih k]
      rw [if_neg]
      rintro ⟨r, hr, hexpired⟩
      rw [hyoung k r hr] at hexpired
      cases hexpired

end StatusBoard

/-! ## The browser -/

/-- **The board shows exactly what the snapshot carries.** -/
def ShowsExactly (b : Browser) (statuses : List WorkStatus) : Prop :=
  (∀ key, (b.view.board.workStatus.get? key).isSome = true ↔ key ∈ statuses.map workStatusKey) ∧
    ∀ status ∈ statuses, b.view.workStatus (workStatusKey status) = some status

/-- **A snapshot is authoritative exactly when the board has time for every record of it.**  For every state of the
browser and every snapshot it installs, with no more records than the board has room for and distinct keys, at any
reading of the clock. -/
theorem snapshot_authoritative_iff (normalizeUrl : String → Option String) (b : Browser) (s : RuntimeSnapshot) (now : ℚ)
    (hinstalled : b.reception (.snapshot s) = .installed) (hnodup : (s.workStatus.map workStatusKey).Nodup)
    (hcap : s.workStatus.length ≤ retentionConfig.maxKeys) :
    ShowsExactly (b.applyServerMessage retentionConfig normalizeUrl (.snapshot s) now) s.workStatus ↔
      ∀ status ∈ s.workStatus, (b.forSession s).view.board.Welcome retentionConfig now status := by
  have httl : 0 < StatusBoard.ttlMs retentionConfig := by norm_num [StatusBoard.ttlMs, retentionConfig]
  set before := (b.forSession s).view.board with hbefore
  have hprojected : s.workStatus.filterMap projectedWorkStatus = s.workStatus := by
    refine (List.filterMap_congr fun status _ => ?_).trans List.filterMap_some
    rw [projectedWorkStatus, if_neg status.turnId_ne]
  have hboard : (b.applyServerMessage retentionConfig normalizeUrl (.snapshot s) now).view.board.workStatus
      = (s.workStatus.foldl (StatusBoard.restoreOne retentionConfig before.workStatus now) ⟨∅, before.tombstones⟩).workStatus := by
    rw [Browser.applyServerMessage, if_pos hinstalled, Browser.snapshotState, View.install, StatusBoard.restore, hprojected]
  have hget : ∀ key, (b.applyServerMessage retentionConfig normalizeUrl (.snapshot s) now).view.board.workStatus.get? key
      = (s.workStatus.find? fun status => workStatusKey status = key).bind fun status =>
          if (StatusBoard.stamp status now (before.workStatus.get? key) true).isExpired retentionConfig now then none
          else some (StatusBoard.stamp status now (before.workStatus.get? key) true) := by
    intro key
    rw [hboard]
    exact StatusBoard.get?_restoring before.workStatus before.tombstones now hnodup hcap key
  have hfind : ∀ status ∈ s.workStatus,
      s.workStatus.find? (fun other => workStatusKey other = workStatusKey status) = some status :=
    fun status hmem => find?_of_nodup hnodup hmem
  have hiff := fun status => StatusBoard.isExpired_restored_iff httl before status now
  constructor
  · rintro ⟨hkeys, -⟩ status hmem
    have hsome := (hkeys (workStatusKey status)).mpr (List.mem_map_of_mem hmem)
    rw [hget, hfind status hmem, Option.bind_some] at hsome
    rw [← hiff status]
    by_contra hexpired
    rw [if_pos (by simpa using hexpired)] at hsome
    cases hsome
  · intro hwelcome
    have hshown : ∀ status ∈ s.workStatus,
        (b.applyServerMessage retentionConfig normalizeUrl (.snapshot s) now).view.board.workStatus.get? (workStatusKey status)
          = some (StatusBoard.stamp status now (before.workStatus.get? (workStatusKey status)) true) := by
      intro status hmem
      have hyoung := (hiff status).mpr (hwelcome status hmem)
      rw [hget, hfind status hmem, Option.bind_some, hyoung]
      rfl
    refine ⟨fun key => ⟨fun hsome => ?_, fun hmem => ?_⟩, fun status hmem => ?_⟩
    · rw [hget] at hsome
      rcases hfound : s.workStatus.find? (fun status => workStatusKey status = key) with _ | status
      · rw [hfound] at hsome
        cases hsome
      · have htold : workStatusKey status = key := by simpa using List.find?_some hfound
        exact List.mem_map.mpr ⟨status, List.mem_of_find?_eq_some hfound, htold⟩
    · obtain ⟨status, hstatus, rfl⟩ := List.mem_map.mp hmem
      rw [hshown status hstatus]
      rfl
    · rw [View.workStatus, hshown status hmem, Option.map_some, StatusBoard.stamp_status]

/-- A work item that searches, as a snapshot or an increment carries it. -/
def searchingStatus (eventSequence : ℕ) : WorkStatus :=
  ⟨"turn-1", some "work-1", none, .searching, eventSequence, none, some 1, by decide, by decide, nofun⟩

/-- A snapshot that carries it. -/
def searchingSnapshot (snapshotSequence eventSequence : ℕ) : RuntimeSnapshot where
  sessionId := "session-1"
  snapshotSequence
  workers := []
  results := []
  speechProgress := []
  routing := none
  transcript := []
  originEpoch := some 1
  workStatus := [searchingStatus eventSequence]

/-- **A live record is pruned on arrival.**  The browser reconnects twice while a search is going on, the second time
five minutes after the first: the record takes over the stamp of the first restore, and is not shown. -/
theorem second_snapshot_not_shown :
    let b := Browser.applyServerMessage retentionConfig some {} (.snapshot (searchingSnapshot 1 1)) 0
    b.reception (.snapshot (searchingSnapshot 2 1)) = .installed ∧
      ((searchingSnapshot 2 1).workStatus.map workStatusKey).Nodup ∧
      ¬ShowsExactly (b.applyServerMessage retentionConfig some (.snapshot (searchingSnapshot 2 1)) 300000)
        (searchingSnapshot 2 1).workStatus := by
  refine ⟨by decide +kernel, by decide, fun hshows => ?_⟩
  have hshown := hshows.2 (searchingStatus 1) (List.mem_singleton_self _)
  revert hshown
  decide +kernel

/-- The first snapshot is shown. -/
theorem snapshot_authoritative_first :
    Browser.reception {} (.snapshot (searchingSnapshot 1 1)) = .installed ∧
      ShowsExactly (Browser.applyServerMessage retentionConfig some {} (.snapshot (searchingSnapshot 1 1)) 0)
        (searchingSnapshot 1 1).workStatus := by
  have hinstalled : Browser.reception {} (.snapshot (searchingSnapshot 1 1)) = .installed := by decide +kernel
  refine ⟨hinstalled, (snapshot_authoritative_iff some {} (searchingSnapshot 1 1) 0 hinstalled (by decide) (by decide)).mpr ?_⟩
  intro status _ old hold
  have hempty : (Browser.forSession {} (searchingSnapshot 1 1)).view.board.workStatus = ∅ := by decide +kernel
  rw [hempty] at hold
  cases hold

end Session

end SubagentsLab

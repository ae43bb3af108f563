import SubagentsLab.Session.Board
import SubagentsLab.Session.Projection

/-!
# Session/Watermark — what was dropped does not come back

The browser refuses an increment that is not newer than the last message it took for its key.  It knows that number
from the record or, once the record is dropped, from its tombstone, and every way a record can go hands it from the
one to the other — but for one: a record of a snapshot that is pruned on arrival leaves the number of the record it
replaced.  While every snapshot is timely, nothing that was dropped is shown again (`watermark_guards_run`).
-/

namespace SubagentsLab

open Machinery

namespace Session

namespace StatusBoard

variable {cfg : RetentionConfig} {b b' : StatusBoard} {now : ℚ} {key k : String} {n : ℕ} {D : Finset String}

/-! ## What the guard compares with -/

/-- `lastSequence`: the number of the record or, without one, of the tombstone. -/
def lastSequence (b : StatusBoard) (key : String) : Option ℕ :=
  match b.workStatus.get? key with
  | some record => some record.status.eventSequence
  | none => b.tombstones.get? key

/-- The board knows that the key was seen at `n`, or past it. -/
def Holds (b : StatusBoard) (k : String) (n : ℕ) : Prop := ∃ m, b.lastSequence k = some m ∧ n ≤ m

/-- An increment is accepted. -/
def accepts (b : StatusBoard) (status : WorkStatus) : Bool :=
  !(b.lastSequence (workStatusKey status)).any (status.eventSequence ≤ ·)

/-- **An increment is filed exactly when it is accepted.** -/
theorem increment_eq (cfg : RetentionConfig) (b : StatusBoard) (status : WorkStatus) (now : ℚ) :
    b.increment cfg status now
      = if b.accepts status then
          b.upsert cfg (workStatusKey status) status now (b.workStatus.get? (workStatusKey status)) false
        else b := by
  rw [increment, projectedWorkStatus, if_neg status.turnId_ne, accepts, lastSequence]
  rcases hget : b.workStatus.get? (workStatusKey status) with _ | record
  · by_cases hstale : (b.tombstones.get? (workStatusKey status)).any (status.eventSequence ≤ ·) = true <;> simp [hget, hstale]
  · by_cases hstale : status.eventSequence ≤ record.status.eventSequence <;> simp [hget, hstale]

/-- What the board knows, it refuses. -/
theorem Holds.refuses {status : WorkStatus} (h : b.Holds (workStatusKey status) n) (hold : status.eventSequence ≤ n) :
    b.accepts status = false := by
  obtain ⟨m, hm, hle⟩ := h
  rw [accepts, hm]
  simpa using hold.trans hle

/-! ## Upserts -/

/-- A record that is there, or the tombstone of one that is gone. -/
theorem holds_of_record {r : StampedStatus} (hr : b.workStatus.get? k = some r) : b.Holds k r.status.eventSequence :=
  ⟨_, by rw [lastSequence, hr], le_rfl⟩

theorem holds_of_tombstone {m : ℕ} (hgone : b.workStatus.get? k = none) (hm : b.tombstones.get? k = some m) (hle : n ≤ m) :
    b.Holds k n :=
  ⟨m, by rw [lastSequence, hgone, hm], hle⟩

/-- **An upsert takes nothing from another key.** -/
theorem Upserted.holds_other {record : StampedStatus} (h : Upserted cfg D now b key record b') (hk : k ≠ key)
    (hold : b.Holds k n) : b'.Holds k n := by
  obtain ⟨m, hm, hle⟩ := hold
  rw [lastSequence] at hm
  rcases hrecord : b.workStatus.get? k with _ | r
  · rw [hrecord] at hm
    have hgone : b'.workStatus.get? k = none := (h.other k hk).elim (fun hsame => hsame.trans hrecord) id
    obtain ⟨m', hm', hle'⟩ := h.raised k m hm
    exact holds_of_tombstone hgone hm' (hle.trans hle')
  · rw [hrecord] at hm
    cases hm
    rcases h.other k hk with hsame | hgone
    · exact ⟨_, by rw [lastSequence, hsame, hrecord], hle⟩
    · obtain ⟨m', hm', hle'⟩ := h.noted k r (by rw [if_neg hk, hrecord]) hgone
      exact holds_of_tombstone hgone hm' (hle.trans hle')

/-- **An upsert leaves its own number behind**, on the record or on its tombstone. -/
theorem Upserted.holds_self {record : StampedStatus} (h : Upserted cfg D now b key record b') :
    b'.Holds key record.status.eventSequence := by
  rcases hget : b'.workStatus.get? key with _ | r
  · obtain ⟨m, hm, hle⟩ := h.noted key record (if_pos rfl) hget
    exact holds_of_tombstone hget hm hle
  · have hself := h.self
    rw [hget] at hself
    split_ifs at hself
    cases hself
    exact holds_of_record hget

/-! ## Snapshots -/

/-- The keys dropped while the records of a snapshot are read. -/
def restoreDrops (cfg : RetentionConfig) (before : Dict String StampedStatus) (now : ℚ) :
    StatusBoard → List WorkStatus → List String
  | _, [] => []
  | acc, status :: rest =>
    acc.upsertDrops cfg (workStatusKey status) status now
        ((before.get? (workStatusKey status)).or (acc.workStatus.get? (workStatusKey status))) true ++
      restoreDrops cfg before now (restoreOne cfg before now acc status) rest

/-- The keys a snapshot drops: those, and the keys of the records it leaves out. -/
def snapshotDrops (cfg : RetentionConfig) (b : StatusBoard) (statuses : List WorkStatus) (now : ℚ) : List String :=
  restoreDrops cfg b.workStatus now ⟨∅, b.tombstones⟩ (statuses.filterMap projectedWorkStatus) ++
    b.workStatus.keys.filter fun key => ((b.restore cfg statuses now).workStatus.get? key).isNone

/-- **The record of a snapshot is timely**: the board has time for it, or knows its key at least as far already. -/
def Timely (cfg : RetentionConfig) (b : StatusBoard) (now : ℚ) (status : WorkStatus) : Prop :=
  b.Welcome cfg now status ∨ ∀ old, b.workStatus.get? (workStatusKey status) = some old →
    status.eventSequence ≤ old.status.eventSequence

/-- The record a list of statuses carries for a key. -/
def carriedBy (statuses : List WorkStatus) (k : String) : Option WorkStatus :=
  statuses.reverse.find? fun status => workStatusKey status = k

theorem carriedBy_concat (statuses : List WorkStatus) (status : WorkStatus) (k : String) :
    carriedBy (statuses ++ [status]) k = if workStatusKey status = k then some status else carriedBy statuses k := by
  rw [carriedBy, List.reverse_append, List.reverse_singleton, List.singleton_append, List.find?_cons]
  by_cases h : workStatusKey status = k <;> simp [h, carriedBy]

/-- **Half way through a snapshot**: the keys read so far are known as far as they were read, and the others as far
as before. -/
structure Restoring (cfg : RetentionConfig) (D : Finset String) (now : ℚ) (before : StatusBoard) (seen : List WorkStatus)
    (acc : StatusBoard) : Prop where
  within : Within D acc.tombstones
  fresh : ∀ k r, acc.workStatus.get? k = some r → ∀ t, (r.terminalSince = some t ∨ r.restoredAt = some t) →
    now - t < ttlMs cfg
  read : ∀ k status, carriedBy seen k = some status → acc.Holds k status.eventSequence ∨
    acc.workStatus.get? k = none ∧ ∃ old, before.workStatus.get? k = some old ∧
      status.eventSequence ≤ old.status.eventSequence
  unread : ∀ k, carriedBy seen k = none → acc.workStatus.get? k = none ∧
    ∀ n, before.tombstones.get? k = some n → ∃ m, acc.tombstones.get? k = some m ∧ n ≤ m

/-- A record of a snapshot has one stamp. -/
theorem expiryStamp_of_stamp {status : WorkStatus} {previous : Option StampedStatus} {t : ℚ}
    (h : (stamp status now previous true).terminalSince = some t ∨ (stamp status now previous true).restoredAt = some t) :
    (stamp status now previous true).expiryStamp = some t := by
  rw [stamp] at h ⊢
  by_cases hterminal : status.state.terminal = true
  · rw [if_pos hterminal] at h ⊢
    rcases h with h | h
    · exact (congrArg (fun o => Option.or o none) h).trans rfl
    · cases h
  · rw [if_neg hterminal, if_pos rfl] at h ⊢
    rcases h with h | h
    · cases h
    · exact h

/-- A record that is pruned on arrival was not welcome. -/
theorem not_welcome_of_expired (httl : 0 < ttlMs cfg) {status : WorkStatus} {previous : Option StampedStatus}
    (hfresh : b.workStatus.get? (workStatusKey status) = none → ∀ r ∈ previous, ∀ t, (r.terminalSince = some t ∨ r.restoredAt = some t) →
      now - t < ttlMs cfg)
    (hprevious : ∀ old, b.workStatus.get? (workStatusKey status) = some old → previous = some old)
    (hexpired : (stamp status now previous true).isExpired cfg now = true) :
    ¬b.Welcome cfg now status ∧ (b.workStatus.get? (workStatusKey status)).isSome = true := by
  rw [StampedStatus.isExpired, expiryStamp_restored, Option.any_some, decide_eq_true_eq] at hexpired
  rcases hcarried : previous.bind (carriedStamp status) with _ | t
  · rw [hcarried, Option.getD_none, sub_self] at hexpired
    exact absurd hexpired (not_le.mpr httl)
  · rw [hcarried, Option.getD_some] at hexpired
    obtain ⟨r, hr, hstamp⟩ := Option.bind_eq_some_iff.mp hcarried
    rcases hold : b.workStatus.get? (workStatusKey status) with _ | old
    · refine absurd hexpired (not_le.mpr (hfresh hold r hr t ?_))
      rw [carriedStamp] at hstamp
      split_ifs at hstamp
      · exact Or.inl hstamp
      · exact Or.inr hstamp
    · rw [hprevious old hold] at hr
      cases hr
      exact ⟨fun hwelcome => absurd hexpired (not_le.mpr (hwelcome r hold t hstamp)), rfl⟩

/-- **Reading one more record.** -/
theorem Restoring.step (httl : 0 < ttlMs cfg) (hcap : D.card ≤ cfg.maxKeys) {before acc : StatusBoard} {seen : List WorkStatus}
    (h : Restoring cfg D now before seen acc) {status : WorkStatus} (htimely : before.Timely cfg now status)
    (hdrops : ∀ k ∈ acc.upsertDrops cfg (workStatusKey status) status now
      ((before.workStatus.get? (workStatusKey status)).or (acc.workStatus.get? (workStatusKey status))) true, k ∈ D) :
    Restoring cfg D now before (seen ++ [status]) (restoreOne cfg before.workStatus now acc status) := by
  set key := workStatusKey status with hkey
  set previous := (before.workStatus.get? key).or (acc.workStatus.get? key) with hprevious
  have hup := upserted hcap h.within status previous true hdrops
  set next := acc.upsert cfg key status now previous true with hnext
  have hone : restoreOne cfg before.workStatus now acc status = { next with tombstones := next.tombstones.pop key } := rfl
  rw [hone]
  have hpop : ∀ k, k ≠ key → (next.tombstones.pop key).get? k = next.tombstones.get? k :=
    fun k hk => (Dict.get?_pop _ _ _).trans (if_neg hk)
  have hkept : ∀ k n, k ≠ key → next.Holds k n → StatusBoard.Holds { next with tombstones := next.tombstones.pop key } k n := by
    intro k n hk hold
    obtain ⟨m, hm, hle⟩ := hold
    refine ⟨m, ?_, hle⟩
    rw [lastSequence] at hm ⊢
    dsimp only
    rw [hpop k hk]
    exact hm
  refine ⟨fun k hk => ?_, fun k r hr t ht => ?_, fun k status' hread => ?_, fun k hunread => ?_⟩
  · dsimp only at hk
    by_cases hself : k = key
    · rw [hself, Dict.get?_pop, if_pos rfl] at hk
      cases hk
    · rw [hpop k hself] at hk
      exact hup.within k hk
  · dsimp only at hr
    by_cases hself : k = key
    · have hyoung := hup.young k r hr
      rw [hself, hup.self] at hr
      split_ifs at hr
      cases hr
      rw [StampedStatus.isExpired, expiryStamp_of_stamp ht, Option.any_some, decide_eq_false_iff_not, not_le] at hyoung
      exact hyoung
    · rcases hup.other k hself with hsame | hgone
      · exact h.fresh k r (hsame.symm.trans hr) t ht
      · rw [hgone] at hr
        cases hr
  · rw [carriedBy_concat] at hread
    by_cases hself : key = k
    · rw [if_pos hself] at hread
      cases hread
      subst hself
      have hownself := hup.self
      by_cases hexpired : (stamp status now previous true).isExpired cfg now = true
      · -- Pruned on arrival: the record it replaced is known at least as far.
        rw [if_pos hexpired] at hownself
        refine Or.inr ⟨hownself, ?_⟩
        obtain ⟨hnot, hsome⟩ := not_welcome_of_expired httl (b := before)
          (fun hnone r hr t ht => h.fresh key r (by rwa [hprevious, hnone, Option.none_or] at hr) t ht)
          (fun old hold => by rw [hprevious, hold, Option.some_or]) hexpired
        obtain ⟨old, hold⟩ := Option.isSome_iff_exists.mp hsome
        exact ⟨old, hold, htimely.resolve_left hnot old hold⟩
      · rw [if_neg hexpired] at hownself
        refine Or.inl ?_
        have hshown : StatusBoard.Holds { next with tombstones := next.tombstones.pop key } key
            (stamp status now previous true).status.eventSequence := holds_of_record hownself
        rwa [stamp_status] at hshown
    · rw [if_neg hself] at hread
      rcases h.read k status' hread with hholds | ⟨hnone, old, hold, hle⟩
      · exact Or.inl (hkept k _ (Ne.symm hself) (hup.holds_other (Ne.symm hself) hholds))
      · refine Or.inr ⟨?_, old, hold, hle⟩
        exact (hup.other k (Ne.symm hself)).elim (fun hsame => hsame.trans hnone) id
  · rw [carriedBy_concat] at hunread
    split_ifs at hunread with hself
    obtain ⟨hnone, htombs⟩ := h.unread k hunread
    refine ⟨(hup.other k (Ne.symm hself)).elim (fun hsame => hsame.trans hnone) id, fun n hn => ?_⟩
    obtain ⟨m, hm, hle⟩ := htombs n hn
    obtain ⟨m', hm', hle'⟩ := hup.raised k m hm
    refine ⟨m', ?_, hle.trans hle'⟩
    dsimp only
    rw [hpop k (Ne.symm hself)]
    exact hm'

theorem Restoring.fold (httl : 0 < ttlMs cfg) (hcap : D.card ≤ cfg.maxKeys) {before acc : StatusBoard}
    {seen statuses : List WorkStatus} (h : Restoring cfg D now before seen acc)
    (htimely : ∀ status ∈ statuses, before.Timely cfg now status)
    (hdrops : ∀ k ∈ restoreDrops cfg before.workStatus now acc statuses, k ∈ D) :
    Restoring cfg D now before (seen ++ statuses) (statuses.foldl (restoreOne cfg before.workStatus now) acc) := by
  induction statuses generalizing seen acc with
  | nil =>
    rw [List.append_nil]
    exact h
  | cons status rest ih =>
    rw [restoreDrops] at hdrops
    have hstep := h.step httl hcap (htimely status List.mem_cons_self) fun k hk => hdrops k (List.mem_append_left _ hk)
    have hrest := ih hstep (fun other hother => htimely other (List.mem_cons_of_mem _ hother))
      fun k hk => hdrops k (List.mem_append_right _ hk)
    rwa [List.append_assoc, List.singleton_append] at hrest

/-- **A timely snapshot forgets no key**: what it carries is known as far as it carries it, and the rest as far as
before. -/
theorem restore_holds (httl : 0 < ttlMs cfg) (hcap : D.card ≤ cfg.maxKeys) (hwithin : Within D b.tombstones)
    {statuses : List WorkStatus} (htimely : ∀ status ∈ statuses, b.Timely cfg now status)
    (hdrops : ∀ k ∈ b.snapshotDrops cfg statuses now, k ∈ D) :
    Within D (b.restore cfg statuses now).tombstones ∧
      (∀ k status, carriedBy statuses k = some status → (b.restore cfg statuses now).Holds k status.eventSequence) ∧
      ∀ k n, carriedBy statuses k = none → b.Holds k n → (b.restore cfg statuses now).Holds k n := by
  have hprojected : statuses.filterMap projectedWorkStatus = statuses := by
    refine (List.filterMap_congr fun status _ => ?_).trans List.filterMap_some
    rw [projectedWorkStatus, if_neg status.turnId_ne]
  rw [snapshotDrops, hprojected] at hdrops
  have hstart : Restoring cfg D now b [] ⟨∅, b.tombstones⟩ :=
    { within := hwithin
      fresh := fun k r hr => (Option.some_ne_none r hr.symm).elim
      read := fun k status hread => (Option.some_ne_none status hread.symm).elim
      unread := fun k _ => ⟨rfl, fun n hn => ⟨n, hn, le_rfl⟩⟩ }
  have hread := hstart.fold httl hcap htimely fun k hk => hdrops k (List.mem_append_left _ hk)
  rw [List.nil_append] at hread
  set restored := statuses.foldl (restoreOne cfg b.workStatus now) ⟨∅, b.tombstones⟩ with hrestored
  have hrestore : b.restore cfg statuses now = { restored with
      tombstones := remember cfg restored.tombstones
        (b.workStatus.entries.filter fun entry => (restored.workStatus.get? entry.1).isNone) } := by
    rw [restore, hprojected]
  have hleft : ∀ e ∈ b.workStatus.entries.filter (fun entry => (restored.workStatus.get? entry.1).isNone), e.1 ∈ D := by
    intro e he
    obtain ⟨hmem, hnone⟩ := List.mem_filter.mp he
    refine hdrops e.1 (List.mem_append_right _ (List.mem_filter.mpr ⟨List.mem_map_of_mem hmem, ?_⟩))
    rw [hrestore]
    exact hnone
  obtain ⟨hwithin', hraised, hnoted⟩ := remember_spec hcap hread.within hleft
  rw [hrestore]
  -- What the snapshot does not show of the old records is noted with the number it had.
  have hold : ∀ k old, b.workStatus.get? k = some old → restored.workStatus.get? k = none → ∀ n,
      n ≤ old.status.eventSequence → StatusBoard.Holds { restored with
        tombstones := remember cfg restored.tombstones
          (b.workStatus.entries.filter fun entry => (restored.workStatus.get? entry.1).isNone) } k n := by
    intro k old hget hgone n hn
    have hmem : (k, old) ∈ b.workStatus.entries.filter (fun entry => (restored.workStatus.get? entry.1).isNone) :=
      List.mem_filter.mpr ⟨Dict.get?_eq_some_iff.mp hget, by rw [hgone]; rfl⟩
    obtain ⟨m, hm, hle⟩ := hnoted (k, old) hmem
    exact holds_of_tombstone hgone hm (hn.trans hle)
  refine ⟨hwithin', fun k status hcarried => ?_, fun k n hcarried hholds => ?_⟩
  · rcases hread.read k status hcarried with ⟨m, hm, hle⟩ | ⟨hgone, old, hget, hle⟩
    · rw [lastSequence] at hm
      rcases hget : restored.workStatus.get? k with _ | r
      · rw [hget] at hm
        obtain ⟨m', hm', hle'⟩ := hraised k m hm
        exact holds_of_tombstone hget hm' (hle.trans hle')
      · rw [hget] at hm
        cases hm
        exact ⟨_, by rw [lastSequence, hget], hle⟩
    · exact hold k old hget hgone _ hle
  · obtain ⟨hgone, htombs⟩ := hread.unread k hcarried
    obtain ⟨m, hm, hle⟩ := hholds
    rw [lastSequence] at hm
    rcases hget : b.workStatus.get? k with _ | old
    · rw [hget] at hm
      obtain ⟨m₁, hm₁, hle₁⟩ := htombs m hm
      obtain ⟨m₂, hm₂, hle₂⟩ := hraised k m₁ hm₁
      exact holds_of_tombstone hgone hm₂ (hle.trans (hle₁.trans hle₂))
    · rw [hget] at hm
      cases hm
      exact hold k old hget hgone n hle

end StatusBoard

/-! ## Runs of messages -/

/-- The browser, watched: the watermark of every key, that is the number of the last message taken for it, and the
keys dropped so far. -/
structure Watched where
  browser : Browser := {}
  marks : String → Option ℕ := fun _ => none
  dropped : Finset String := ∅

namespace Watched

variable {cfg : RetentionConfig} {normalizeUrl : String → Option String}

/-- The watermarks after a message. -/
def marked (w : Watched) : Message → String → Option ℕ
  | .snapshot s, k =>
    if w.browser.reception (.snapshot s) = .installed then
      ((StatusBoard.carriedBy s.workStatus k).map (·.eventSequence)).or (w.marks k)
    else w.marks k
  | .increment sessionId sequence originEpoch (.workStatus status), k =>
    if w.browser.reception (.increment sessionId sequence originEpoch (.workStatus status)) = .applied ∧
        w.browser.view.board.accepts status = true ∧ k = workStatusKey status then some status.eventSequence
    else w.marks k
  | .increment _ _ _ _, k => w.marks k

/-- The keys a message drops. -/
def drops (cfg : RetentionConfig) (w : Watched) (now : ℚ) : Message → List String
  | .snapshot s =>
    if w.browser.reception (.snapshot s) = .installed then
      (w.browser.forSession s).view.board.snapshotDrops cfg s.workStatus now
    else []
  | .increment sessionId sequence originEpoch (.workStatus status) =>
    if w.browser.reception (.increment sessionId sequence originEpoch (.workStatus status)) = .applied ∧
        w.browser.view.board.accepts status = true then
      w.browser.view.board.upsertDrops cfg (workStatusKey status) status now
        (w.browser.view.board.workStatus.get? (workStatusKey status)) false
    else []
  | .increment _ _ _ _ => []

/-- One message, with the reading of the clock it is taken at. -/
def step (cfg : RetentionConfig) (normalizeUrl : String → Option String) (w : Watched) (e : Message × ℚ) : Watched where
  browser := w.browser.applyServerMessage cfg normalizeUrl e.1 e.2
  marks := w.marked e.1
  dropped := w.dropped ∪ (w.drops cfg e.2 e.1).toFinset

/-- A snapshot of the session, if it is one. -/
def OfSession (sessionId : String) : Message → Prop
  | .snapshot s => s.sessionId = sessionId
  | .increment .. => True

/-- **Every record of an installed snapshot is timely.** -/
def Timely (cfg : RetentionConfig) (w : Watched) (e : Message × ℚ) : Prop :=
  ∀ s, e.1 = .snapshot s → w.browser.reception e.1 = .installed →
    ∀ status ∈ s.workStatus, w.browser.view.board.Timely cfg e.2 status

/-- **A stale increment changes nothing.** -/
def Guards (cfg : RetentionConfig) (normalizeUrl : String → Option String) (w : Watched) (e : Message × ℚ) : Prop :=
  ∀ sessionId sequence originEpoch status n, e.1 = .increment sessionId sequence originEpoch (.workStatus status) →
    w.marks (workStatusKey status) = some n → status.eventSequence ≤ n →
      (w.browser.applyServerMessage cfg normalizeUrl e.1 e.2).view.board.workStatus = w.browser.view.board.workStatus

/-- The board knows every key as far as its watermark. -/
structure Knows (sessionId : String) (w : Watched) : Prop where
  session : ∀ id, w.browser.sessionId = some id → id = sessionId
  within : StatusBoard.Within w.dropped w.browser.view.board.tombstones
  marked : ∀ k n, w.marks k = some n → w.browser.view.board.Holds k n

theorem within_mono {D D' : Finset String} (hsub : D ⊆ D') {t : Dict String ℕ} (h : StatusBoard.Within D t) :
    StatusBoard.Within D' t := fun k hk => hsub (h k hk)

/-- What is known is refused. -/
theorem Knows.guards {sessionId : String} {w : Watched} (h : Knows sessionId w) (e : Message × ℚ) :
    w.Guards cfg normalizeUrl e := by
  obtain ⟨m, now⟩ := e
  rintro id sequence originEpoch status n rfl hmark hle
  have hrefuses := (h.marked _ n hmark).refuses hle
  dsimp only
  rw [Browser.applyServerMessage]
  split
  · rfl
  · dsimp only
    rw [View.applyIncrement]
    dsimp only
    rw [StatusBoard.increment_eq, hrefuses]
    rfl
  · rfl

/-- **One message**: while there is room, a timely snapshot or any increment leaves every key known. -/
theorem Knows.step (httl : 0 < StatusBoard.ttlMs cfg) {sessionId : String} {w : Watched} (h : Knows sessionId w)
    {e : Message × ℚ} (hsession : OfSession sessionId e.1) (hcap : (w.step cfg normalizeUrl e).dropped.card ≤ cfg.maxKeys)
    (htimely : w.Timely cfg e) : Knows sessionId (w.step cfg normalizeUrl e) := by
  obtain ⟨m, now⟩ := e
  have hwithin : StatusBoard.Within (w.step cfg normalizeUrl (m, now)).dropped w.browser.view.board.tombstones :=
    within_mono Finset.subset_union_left h.within
  have hdrops : ∀ k ∈ w.drops cfg now m, k ∈ (w.step cfg normalizeUrl (m, now)).dropped :=
    fun k hk => Finset.mem_union_right _ (List.mem_toFinset.mpr hk)
  -- A message that leaves the board and the watermarks alone.
  have hsame : (w.step cfg normalizeUrl (m, now)).browser.sessionId = w.browser.sessionId →
      (w.step cfg normalizeUrl (m, now)).browser.view.board = w.browser.view.board → w.marked m = w.marks →
      Knows sessionId (w.step cfg normalizeUrl (m, now)) := by
    intro hid hboard hmarks
    refine ⟨fun id hsome => h.session id (hid ▸ hsome), hboard ▸ hwithin, fun k n hmark => ?_⟩
    rw [hboard]
    exact h.marked k n (by rwa [← hmarks])
  cases m with
  | snapshot s =>
    have hsame' : w.browser.forSession s = w.browser :=
      Browser.forSession_eq fun id hid => (h.session id hid).trans (Eq.symm hsession)
    by_cases hinstalled : w.browser.reception (.snapshot s) = .installed
    · have hbrowser : (w.step cfg normalizeUrl (.snapshot s, now)).browser = w.browser.snapshotState cfg normalizeUrl s now := by
        rw [Watched.step, Browser.applyServerMessage]
        dsimp only
        rw [if_pos hinstalled, hsame']
      have hboard : (w.step cfg normalizeUrl (.snapshot s, now)).browser.view.board
          = w.browser.view.board.restore cfg s.workStatus now := by rw [hbrowser]; rfl
      have hdrops' : ∀ k ∈ w.browser.view.board.snapshotDrops cfg s.workStatus now,
          k ∈ (w.step cfg normalizeUrl (.snapshot s, now)).dropped := by
        intro k hk
        refine hdrops k ?_
        rw [drops, if_pos hinstalled, hsame']
        exact hk
      obtain ⟨hwithin', hcarried, hother⟩ := StatusBoard.restore_holds httl hcap hwithin (htimely s rfl hinstalled) hdrops'
      refine ⟨fun id hid => ?_, hboard ▸ hwithin', fun k n hmark => ?_⟩
      · rw [hbrowser] at hid
        cases hid
        exact hsession
      · rw [hboard]
        have hmarked : ((StatusBoard.carriedBy s.workStatus k).map (·.eventSequence)).or (w.marks k) = some n := by
          have hdef : (w.step cfg normalizeUrl (.snapshot s, now)).marks k = w.marked (.snapshot s) k := rfl
          rw [hdef, Watched.marked, if_pos hinstalled] at hmark
          exact hmark
        rcases hfound : StatusBoard.carriedBy s.workStatus k with _ | status
        · rw [hfound, Option.map_none, Option.none_or] at hmarked
          exact hother k n hfound (h.marked k n hmarked)
        · rw [hfound, Option.map_some, Option.some_or] at hmarked
          cases hmarked
          exact hcarried k status hfound
    · have hbrowser : (w.step cfg normalizeUrl (.snapshot s, now)).browser = w.browser :=
        Browser.applyServerMessage_refused hsame' hinstalled now
      refine hsame (by rw [hbrowser]) (by rw [hbrowser]) ?_
      funext k
      rw [Watched.marked, if_neg hinstalled]
  | increment id sequence originEpoch payload =>
    have hid : (w.step cfg normalizeUrl (.increment id sequence originEpoch payload, now)).browser.sessionId
        = w.browser.sessionId := by
      rw [Watched.step, Browser.applyServerMessage]
      dsimp only
      split <;> rfl
    by_cases happlied : w.browser.reception (.increment id sequence originEpoch payload) = .applied
    · have hview : (w.step cfg normalizeUrl (.increment id sequence originEpoch payload, now)).browser.view
          = w.browser.view.applyIncrement cfg normalizeUrl payload now := by
        rw [Watched.step, Browser.applyServerMessage]
        dsimp only
        rw [happlied]
      by_cases hstatus : ∃ status, payload = .workStatus status
      · obtain ⟨status, rfl⟩ := hstatus
        have hboard : (w.step cfg normalizeUrl (.increment id sequence originEpoch (.workStatus status), now)).browser.view.board
            = w.browser.view.board.increment cfg status now := by rw [hview]; rfl
        rw [StatusBoard.increment_eq] at hboard
        by_cases haccepts : w.browser.view.board.accepts status = true
        · rw [if_pos haccepts] at hboard
          have hdrops' : ∀ k ∈ w.browser.view.board.upsertDrops cfg (workStatusKey status) status now
              (w.browser.view.board.workStatus.get? (workStatusKey status)) false,
              k ∈ (w.step cfg normalizeUrl (.increment id sequence originEpoch (.workStatus status), now)).dropped := by
            intro k hk
            refine hdrops k ?_
            rw [drops, if_pos ⟨happlied, haccepts⟩]
            exact hk
          have hup := StatusBoard.upserted hcap hwithin status _ false hdrops'
          refine ⟨fun id' hid' => h.session id' (hid ▸ hid'), hboard ▸ hup.within, fun k n hmark => ?_⟩
          rw [hboard]
          have hdef : (w.step cfg normalizeUrl (.increment id sequence originEpoch (.workStatus status), now)).marks k
              = w.marked (.increment id sequence originEpoch (.workStatus status)) k := rfl
          rw [hdef, Watched.marked] at hmark
          by_cases hself : k = workStatusKey status
          · rw [if_pos ⟨happlied, haccepts, hself⟩] at hmark
            cases hmark
            have hown := hup.holds_self
            rw [StatusBoard.stamp_status] at hown
            exact hself ▸ hown
          · rw [if_neg fun hc => hself hc.2.2] at hmark
            exact hup.holds_other hself (h.marked k n hmark)
        · rw [if_neg haccepts] at hboard
          refine hsame hid hboard ?_
          funext k
          rw [Watched.marked, if_neg fun hc => haccepts hc.2.1]
      · have hnot : ∀ status, payload ≠ .workStatus status := fun status hc => hstatus ⟨status, hc⟩
        refine hsame hid ?_ ?_
        · rw [hview]
          exact View.board_applyIncrement _ hnot now
        · funext k
          cases payload with
          | workStatus status => exact absurd rfl (hnot status)
          | _ => rfl
    · have hboard : (w.step cfg normalizeUrl (.increment id sequence originEpoch payload, now)).browser.view.board
          = w.browser.view.board := by
        rw [Watched.step, Browser.applyServerMessage]
        dsimp only
        split
        · rfl
        · rename_i hc
          exact absurd hc happlied
        · rfl
      refine hsame hid hboard ?_
      funext k
      cases payload with
      | workStatus status => rw [Watched.marked, if_neg fun hc => happlied hc.1]
      | _ => rfl

/-- The keys dropped so far are among those dropped in the end. -/
theorem dropped_run (cfg : RetentionConfig) (normalizeUrl : String → Option String) (w : Watched) (es : List (Message × ℚ)) :
    w.dropped ⊆ (run (step cfg normalizeUrl) w es).dropped := by
  induction es generalizing w with
  | nil => exact subset_rfl
  | cons e es ih =>
    have hstep : w.dropped ⊆ (w.step cfg normalizeUrl e).dropped := Finset.subset_union_left
    exact hstep.trans (ih _)

/-- **What was dropped does not come back.**  In every run of messages of one session, at any readings of the clock,
that drops no more keys than there are tombstones: while every record of every snapshot installed is timely, no
increment that is not past the watermark of its key changes the work status shown. -/
theorem watermark_guards_run (normalizeUrl : String → Option String) (sessionId : String) (es : List (Message × ℚ))
    (hsession : ∀ e ∈ es, OfSession sessionId e.1)
    (hcap : (run (step retentionConfig normalizeUrl) {} es).dropped.card ≤ retentionConfig.maxKeys)
    (htimely : Guarded (step retentionConfig normalizeUrl) (Timely retentionConfig) {} es) :
    Guarded (step retentionConfig normalizeUrl) (Guards retentionConfig normalizeUrl) {} es := by
  have httl : 0 < StatusBoard.ttlMs retentionConfig := by norm_num [StatusBoard.ttlMs, retentionConfig]
  have hrun : ∀ w : Watched, Knows sessionId w →
      (run (step retentionConfig normalizeUrl) w es).dropped.card ≤ retentionConfig.maxKeys →
      Guarded (step retentionConfig normalizeUrl) (Timely retentionConfig) w es →
      Guarded (step retentionConfig normalizeUrl) (Guards retentionConfig normalizeUrl) w es := by
    clear hcap htimely
    induction es with
    | nil => exact fun _ _ _ _ => trivial
    | cons e es ih =>
      intro w h hcap htimely
      refine ⟨h.guards e, ih (fun e' he' => hsession e' (List.mem_cons_of_mem _ he')) _ ?_ hcap htimely.2⟩
      refine h.step httl (hsession e List.mem_cons_self) ?_ htimely.1
      exact (Finset.card_le_card (dropped_run _ _ _ es)).trans hcap
  have hstart : Knows sessionId {} :=
    { session := fun id hid => (Option.some_ne_none id hid.symm).elim
      within := fun k hk => (Bool.false_ne_true hk).elim
      marked := fun k n hmark => (Option.some_ne_none n hmark.symm).elim }
  exact hrun {} hstart hcap htimely

/-- The browser reconnects twice during a search, the second time five minutes after the first and two events later;
then an increment from before the second snapshot arrives. -/
def lateIncrement : List (Message × ℚ) :=
  [(.snapshot (searchingSnapshot 1 1), 0), (.snapshot (searchingSnapshot 2 3), 300000),
    (.increment "session-1" 3 1 (.workStatus (searchingStatus 2)), 300001)]

/-- **A record that was pruned on arrival is brought back by an older increment.**  The second snapshot carries the
key at 3 but leaves the tombstone of the record it replaced, at 1; the increment at 2 is shown. -/
theorem late_increment_shown :
    (∀ e ∈ lateIncrement, OfSession "session-1" e.1) ∧
      (run (step retentionConfig some) {} lateIncrement).dropped.card ≤ retentionConfig.maxKeys ∧
      ¬Guarded (step retentionConfig some) (Guards retentionConfig some) {} lateIncrement := by
  refine ⟨?_, by decide +kernel, ?_⟩
  · intro e he
    simp only [lateIncrement, List.mem_cons, List.not_mem_nil, or_false] at he
    rcases he with rfl | rfl | rfl <;> trivial
  · rintro ⟨-, -, hguards, -⟩
    have hsame := hguards "session-1" 3 1 (searchingStatus 2) 3 rfl (by decide +kernel) (by decide)
    revert hsame
    decide +kernel

/-- A search is carried by one snapshot and left out by the next; then its increment is delivered once more. -/
def omittedSearch : List (Message × ℚ) :=
  [(.snapshot (searchingSnapshot 1 1), 0), (.snapshot { searchingSnapshot 2 1 with workStatus := [] }, 1),
    (.increment "session-1" 3 1 (.workStatus (searchingStatus 1)), 2)]

/-- The key is dropped, its watermark stays, and the second delivery, which is received, changes nothing. -/
theorem watermark_guards_redelivery :
    let dropped := run (step retentionConfig some) {} (omittedSearch.take 2)
    dropped.dropped = {workStatusKey (searchingStatus 1)} ∧
      dropped.marks (workStatusKey (searchingStatus 1)) = some 1 ∧
      dropped.browser.reception (.increment "session-1" 3 1 (.workStatus (searchingStatus 1))) = .applied ∧
      Guarded (step retentionConfig some) (Guards retentionConfig some) {} omittedSearch := by
  refine ⟨by decide +kernel, by decide +kernel, by decide +kernel, ?_⟩
  refine watermark_guards_run some "session-1" _ ?_ (by decide +kernel) ⟨?_, ?_, ?_, trivial⟩
  · intro e he
    simp only [omittedSearch, List.mem_cons, List.not_mem_nil, or_false] at he
    rcases he with rfl | rfl | rfl <;> trivial
  · rintro s - - status -
    exact Or.inl fun old hold => (Option.some_ne_none old hold.symm).elim
  · rintro s hs - status hmem
    cases hs
    exact (List.not_mem_nil hmem).elim
  · rintro s hs
    cases hs

end Watched

end Session

end SubagentsLab

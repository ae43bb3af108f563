import Mathlib.Data.List.MinMax
import Mathlib.Data.Rat.Defs
import Mathlib.Algebra.Order.Ring.Rat
import SubagentsLab.Machinery.Dict
import SubagentsLab.Machinery.Runs
import SubagentsLab.Status.Vocabulary

/-!
# Status/Ledger — the work-status ledger of `SessionState`

`server/session_state.py` keeps one client-visible parent record per `WorkStatusKey`, recomputed from
the children reported under that key.  Six containers with different lifetimes carry it: the children
and the parent records (dropped together by `forgetWorkStatus`), the per-key event counter, the
tombstones of keys dropped while terminal, the tombstones of keys restored from a snapshot, and the
retention clock of the latter's current record.

Every operation takes the monotonic clock reading it makes.  `setChildWorkStatus` returns the ledger
it leaves behind even when the validation of its arguments raises.
-/

namespace SubagentsLab

open Machinery

/-- `WorkStatusKey`: the identity of one client-visible parent record. -/
@[ext]
structure WorkStatusKey where
  originEpoch : Option ℤ
  turnId : String
  parentKey : String
deriving DecidableEq, Repr

/-- `_WorkStatusRecord`. -/
structure WorkStatusRecord where
  status : WorkStatus
  terminalAt : Option ℚ
deriving DecidableEq

/-- `shared/work-status-retention.json`. -/
structure RetentionConfig where
  ttlSeconds : ℚ
  maxKeys : ℕ

/-- The shipped bounds. -/
def retentionConfig : RetentionConfig := ⟨300, 256⟩

/-- The work-status part of `SessionState`. -/
structure WorkStatusLedger where
  children : WorkStatusKey → Option (Dict String WorkStatus)
  parents : Dict WorkStatusKey WorkStatusRecord
  sequence : WorkStatusKey → Option ℕ
  terminalKeys : Finset WorkStatusKey
  nonauthoritativeKeys : Finset WorkStatusKey
  nonauthoritativeAt : WorkStatusKey → Option ℚ

namespace WorkStatusLedger

/-- The ledger of a fresh `SessionState`. -/
def empty : WorkStatusLedger where
  children := fun _ => none
  parents := ∅
  sequence := fun _ => none
  terminalKeys := ∅
  nonauthoritativeKeys := ∅
  nonauthoritativeAt := fun _ => none

variable (cfg : RetentionConfig)

/-! ## Dropping records -/

/-- `_forget_work_status`: drop one key's records, keeping its counter; a terminal record leaves a
tombstone. -/
def forgetWorkStatus (l : WorkStatusLedger) (key : WorkStatusKey) : WorkStatusLedger :=
  { l with
    children := Function.update l.children key none
    nonauthoritativeAt := Function.update l.nonauthoritativeAt key none
    parents := l.parents.pop key
    terminalKeys :=
      match l.parents.get? key with
      | some record =>
        if record.status.state.terminal then insert key l.terminalKeys else l.terminalKeys
      | none => l.terminalKeys }

/-- `_work_status_expiry_stamp`: when the key's retention clock started, `none` while it is live. -/
def workStatusExpiryStamp (l : WorkStatusLedger) (key : WorkStatusKey) : Option ℚ :=
  match l.parents.get? key with
  | none => none
  | some record =>
    match record.terminalAt with
    | some at_ => some at_
    | none => l.nonauthoritativeAt key

/-- The eviction victim: the evictable key with the oldest stamp, the first such in ledger order. -/
def evictionVictim (l : WorkStatusLedger) (protect : WorkStatusKey) : Option WorkStatusKey :=
  let candidates := l.parents.keys.filter fun key =>
    key ≠ protect ∧ (l.workStatusExpiryStamp key).isSome
  candidates.argmin fun key => (l.workStatusExpiryStamp key).getD 0

/-- `_evict_work_status_overflow`; every round drops one record, so `fuel` rounds are enough when
`fuel` is the number of records. -/
def evictWorkStatusOverflow (protect : WorkStatusKey) : ℕ → WorkStatusLedger → WorkStatusLedger
  | 0, l => l
  | fuel + 1, l =>
    if cfg.maxKeys < l.parents.entries.length then
      match l.evictionVictim protect with
      | none => l
      | some oldest => evictWorkStatusOverflow protect fuel (l.forgetWorkStatus oldest)
    else l

/-! ## Writing records -/

/-- The last leg of `_reaggregate_parent`: count, write the record, evict, emit.  The counter is
written before the record is validated. -/
def writeParent (l : WorkStatusLedger) (key : WorkStatusKey) (now : ℚ)
    (joined : WorkStatusState × Option TerminalReason) :
    WorkStatusLedger × Except WorkStatusError (Option WorkStatus) :=
  let nextSequence := (l.sequence key).getD 0 + 1
  let l := { l with sequence := Function.update l.sequence key (some nextSequence) }
  match WorkStatus.validate key.turnId (some key.parentKey) none joined.1 nextSequence joined.2
      key.originEpoch with
  | .error e => (l, .error e)
  | .ok status =>
    let terminalAt := if joined.1.terminal then some now else none
    let stamp := some ((l.nonauthoritativeAt key).getD now)
    let stamps := if key ∈ l.nonauthoritativeKeys then
        Function.update l.nonauthoritativeAt key stamp
      else l.nonauthoritativeAt
    let l := { l with
      nonauthoritativeAt := stamps
      parents := l.parents.set key ⟨status, terminalAt⟩ }
    (evictWorkStatusOverflow cfg key l.parents.entries.length l, .ok (some status))

/-- `_reaggregate_parent`. -/
def reaggregateParent (l : WorkStatusLedger) (key : WorkStatusKey) (now : ℚ) :
    WorkStatusLedger × Except WorkStatusError (Option WorkStatus) :=
  let children := ((l.children key).getD ∅).values
  if children.isEmpty then (l, .ok none)
  else
    let joined := aggregate children
    match l.parents.get? key with
    | none =>
      if key ∈ l.terminalKeys then
        ({ l with children := Function.update l.children key none }, .ok none)
      else if key ∈ l.nonauthoritativeKeys ∧ joined.1.terminal then
        ({ l with children := Function.update l.children key none }, .ok none)
      else l.writeParent cfg key now joined
    | some record =>
      if record.status.state = joined.1 then (l, .ok none)
      else if record.status.state.terminal then (l, .ok none)
      else if key ∈ l.nonauthoritativeKeys ∧ joined.1.terminal then (l, .ok none)
      else l.writeParent cfg key now joined

/-- The arguments of `set_child_work_status`. -/
structure ChildReport where
  turnId : String
  workItemId : String
  parentWorkItemId : Option String
  workerId : Option String
  state : WorkStatusState
  originEpoch : Option ℤ
  terminalReason : Option TerminalReason
deriving DecidableEq, Repr

/-- The parent a report belongs to: `parent_work_item_id or work_item_id`. -/
def ChildReport.key (r : ChildReport) : WorkStatusKey :=
  ⟨r.originEpoch, r.turnId,
    match r.parentWorkItemId with
    | some parent => if parent = "" then r.workItemId else parent
    | none => r.workItemId⟩

/-- `set_child_work_status`.  An illegal transition touches nothing; a report that does not validate
leaves the (possibly just created, empty) children map of its key behind. -/
def setChildWorkStatus (l : WorkStatusLedger) (r : ChildReport) (now : ℚ) :
    WorkStatusLedger × Except WorkStatusError (Option WorkStatus) :=
  let existing := l.children r.key
  let previous := (existing.getD ∅).get? r.workItemId
  if legalWorkStatusTransition (previous.map (·.state)) r.state = false then (l, .ok none)
  else
    let children := existing.getD ∅
    match WorkStatus.validate r.turnId (some r.workItemId) r.workerId r.state 0 r.terminalReason
        r.originEpoch with
    | .error e => ({ l with children := Function.update l.children r.key (some children) }, .error e)
    | .ok child =>
      let children := some (children.set r.workItemId child)
      reaggregateParent cfg { l with children := Function.update l.children r.key children } r.key now

/-! ## Pruning and restoring -/

/-- `prune_expired_work_status`: forget every evictable record whose age reached the TTL. -/
def pruneExpiredWorkStatus (l : WorkStatusLedger) (now : ℚ) : WorkStatusLedger :=
  let expired := l.parents.keys.filter fun key =>
    match l.workStatusExpiryStamp key with
    | some stamp => cfg.ttlSeconds ≤ now - stamp
    | none => false
  expired.foldl forgetWorkStatus l

/-- `work_status_snapshot`: the live records, expired ones pruned first. -/
def workStatusSnapshot (l : WorkStatusLedger) (now : ℚ) : WorkStatusLedger × List WorkStatus :=
  let l := l.pruneExpiredWorkStatus cfg now
  (l, l.parents.values.map (·.status))

/-- The key a restored record is filed under: `work_item_id or ""`. -/
def restoredKey (status : WorkStatus) : WorkStatusKey :=
  ⟨status.originEpoch, status.turnId, status.workItemId.getD ""⟩

/-- One record of `from_snapshot`. -/
def restoreOne (restoredAt : ℚ) (l : WorkStatusLedger) (status : WorkStatus) : WorkStatusLedger :=
  let key := restoredKey status
  { l with
    children := Function.update l.children key (some ((l.children key).getD ∅))
    sequence := Function.update l.sequence key (some status.eventSequence)
    parents := l.parents.set key ⟨status, if status.state.terminal then some restoredAt else none⟩
    nonauthoritativeKeys := insert key l.nonauthoritativeKeys
    nonauthoritativeAt := Function.update l.nonauthoritativeAt key (some restoredAt) }

/-- The work-status part of `from_snapshot`. -/
def fromSnapshot (statuses : List WorkStatus) (restoredAt : ℚ) : WorkStatusLedger :=
  statuses.foldl (restoreOne restoredAt) empty

/-! ## The ledger as a machine -/

/-- What drives the ledger: a child reports, or a reader prunes (`prune_expired_work_status`, and
`work_status_snapshot` with it). -/
inductive Event
  | report (r : ChildReport) (now : ℚ)
  | prune (now : ℚ)
deriving DecidableEq

/-- One call: the ledger it leaves behind and the `work_status` event it emits, if any. -/
def step (l : WorkStatusLedger) : Event → WorkStatusLedger × List WorkStatus
  | .report r now =>
    match l.setChildWorkStatus cfg r now with
    | (l', .ok (some status)) => (l', [status])
    | (l', _) => (l', [])
  | .prune now => (l.pruneExpiredWorkStatus cfg now, [])

/-- The ledger a run leads to. -/
def after (l : WorkStatusLedger) (es : List Event) : WorkStatusLedger :=
  run (fun l e => (step cfg l e).1) l es

end WorkStatusLedger

end SubagentsLab

import Mathlib.Algebra.Order.BigOperators.Group.List
import SubagentsLab.Telemetry.Recorders

/-!
# Telemetry/Acceptance — records the contract takes

The record of a work item is accepted whatever outcome it is given (`buildRecord_childFields`), and the record
of a turn whatever outcome and control fields were asked for (`buildRecord_turnFields`), as long as the
identifiers and the timings are valid: what is asked for is made consistent before it is written
(`consistent_recordedOutcome`).
-/

namespace SubagentsLab

open Machinery

namespace PerfMetric

/-! ## Records that are accepted -/

/-- A value its field accepts. -/
def Accepted (field : FieldSpec) (value : FieldValue) : Prop := ∃ text, formatValue field value = .ok text

theorem accepted_id {name : String} {maxlen : ℕ} {s : PyStr} (h : ValidId maxlen s) :
    Accepted (.id name maxlen) (.str s) := ⟨_, formatId_eq_ok_iff.mpr ⟨s, rfl, h, rfl⟩⟩

theorem accepted_ms {name : String} {x : PyFloat} (h : ValidMs x) : Accepted (.ms name) (.float x) :=
  ⟨_, formatMs_float_eq_ok_iff.mpr ⟨h, rfl⟩⟩

theorem accepted_bool {name : String} (b : Bool) : Accepted (.bool name) (.bool b) :=
  ⟨_, rfl⟩

theorem accepted_enum {name value : String} {values : List String} (h : value ∈ values) :
    Accepted (.enum name values) (.text value) := ⟨_, formatEnum_eq_ok_iff.mpr ⟨value, h, rfl, rfl⟩⟩

theorem accepted_count {name : String} {n : ℕ} (h : n < 10 ^ Numeral.maxStrDigits) :
    Accepted (.int name) (.int n) := by
  have hshort : ¬Numeral.maxStrDigits < (Numeral.natText n).length := by
    rw [not_lt, Numeral.natText, Nat.length_toDigits_le_iff (by omega) (by decide)]
    exact h
  have htext : Numeral.intText n = some (Numeral.natText n) := by
    rw [Numeral.intText, Int.natAbs_natCast, if_neg hshort, if_neg (by omega)]
  have hok : formatInt name 0 (.int n) = .ok (Numeral.natText n) :=
    formatInt_eq_ok_iff.mpr ⟨n, rfl, by omega, htext⟩
  exact ⟨_, hok⟩

/-- A value the field of this name accepts. -/
def EventSpec.Takes (spec : EventSpec) (name : String) (value : FieldValue) : Prop :=
  ∃ field, spec.byName name = some field ∧ Accepted field value

/-- Fields that an event knows and accepts. -/
def Fits (spec : EventSpec) (fields : Fields) : Prop := ∀ name value, fields.get? name = some value → spec.Takes name value

/-- An optional value the field of this name accepts, where there is one. -/
def EventSpec.TakesSome (spec : EventSpec) (entry : String × Option FieldValue) : Prop :=
  ∀ value, entry.2 = some value → spec.Takes entry.1 value

theorem takesSome {spec : EventSpec} {name : String} {field : FieldSpec} (hfield : spec.byName name = some field)
    {value : FieldValue} (h : Accepted field value) : spec.TakesSome (name, some value) := by
  rintro _ ⟨rfl⟩
  exact ⟨field, hfield, h⟩

theorem fits_empty (spec : EventSpec) : Fits spec ∅ := fun _ _ h => (nomatch h)

theorem Fits.putAll {spec : EventSpec} {fields : Fields} (h : Fits spec fields)
    {optional : List (String × Option FieldValue)}
    (hopt : ∀ entry ∈ optional, spec.TakesSome entry) :
    Fits spec (Recording.putAll fields optional) := by
  induction optional generalizing fields with
  | nil => exact h
  | cons entry optional ih =>
    obtain ⟨hentry, hrest⟩ := List.forall_mem_cons.mp hopt
    obtain ⟨name, value | value⟩ := entry
    · exact ih h hrest
    · have hset : Fits spec (fields.set name value) := by
        intro name' value' hget
        rw [Dict.get?_set] at hget
        split_ifs at hget with hname
        · cases hget
          exact hname ▸ hentry value rfl
        · exact h name' value' hget
      exact ih hset hrest

theorem Fits.update {spec : EventSpec} {fields more : Fields} (h : Fits spec fields) (hmore : Fits spec more) :
    Fits spec (fields.update more) := by
  intro name value hget
  rw [Dict.get?_update] at hget
  rcases Option.or_eq_some_iff.mp hget with hfound | ⟨-, hfound⟩
  · exact hmore name value hfound
  · exact h name value hfound

/-- **A record of fields that fit, none missing, that passes the check of its event is built.** -/
theorem buildRecord_of_fits {event : String} {spec : EventSpec} (hspec : eventSpec event = some spec) {fields : Fields}
    (hfits : Fits spec fields) (hrequired : ∀ field ∈ spec.required, (fields.get? field.name).isSome)
    (hvalidate : spec.validate fields = .ok ()) :
    ∃ record, buildRecord event fields = some record ∧ record.event = event ∧ record.fields = fields := by
  have hline : ∃ line, formatRecord event fields = .ok line := by
    refine exists_formatRecord_iff.mpr ⟨spec, hspec, ?_, ?_, hvalidate, fun field hfield value hvalue => ?_⟩
    · refine List.filter_eq_nil_iff.mpr fun name hname => ?_
      obtain ⟨value, hvalue⟩ := Option.isSome_iff_exists.mp (Dict.mem_keys.mp hname)
      obtain ⟨field, hfield, -⟩ := hfits name value hvalue
      rw [hfield]
      exact Bool.false_ne_true
    · refine List.filter_eq_nil_iff.mpr fun name hname => ?_
      obtain ⟨field, hfield, rfl⟩ := List.mem_map.mp hname
      rw [Option.isNone_iff_eq_none, ← Option.not_isSome_iff_eq_none, not_not]
      exact hrequired field hfield
    · obtain ⟨field', hfield', haccepted⟩ := hfits field.name value hvalue
      cases hfield'.symm.trans ((byName_eq_some_iff hspec).mpr ⟨hfield, rfl⟩)
      exact haccepted
  obtain ⟨line, hline⟩ := hline
  refine ⟨⟨event, fields, line, hline⟩, ?_, rfl, rfl⟩
  rw [buildRecord]
  split
  · rename_i line' hline'
    cases hline.symm.trans hline'
    rfl
  · rename_i failure hfailure
    cases hline.symm.trans hfailure

namespace Recording

/-- What is put last is found first. -/
theorem get?_putAll {optional : List (String × Option FieldValue)} (h : (optional.map Prod.fst).Nodup) (fields : Fields)
    (name : String) : (putAll fields optional).get? name = (Dict.find name optional).join.or (fields.get? name) := by
  induction optional generalizing fields with
  | nil => rfl
  | cons entry optional ih =>
    obtain ⟨name', value⟩ := entry
    rw [List.map_cons, List.nodup_cons] at h
    have hrest := ih h.2 (putSome fields name' value)
    rw [putAll, List.foldl_cons, ← putAll, hrest, Dict.find]
    by_cases hname : name' = name
    · subst hname
      rw [Dict.find_eq_none h.1, if_pos rfl]
      cases value with
      | none => rfl
      | some value => simp [putSome]
    · rw [if_neg hname]
      cases value with
      | none => rfl
      | some value => rw [putSome, Dict.get?_set, if_neg (Ne.symm hname)]

/-- Whom a turn and its records are of: identifiers and an epoch the contract accepts. -/
structure ValidTurn (sessionId : PyStr) (originEpoch : ℤ) (turnId : PyStr) : Prop where
  session : ValidId 128 sessionId
  epoch : Accepted (.int "origin_epoch") (.int originEpoch)
  turn : ValidId 128 turnId

/-- Details of a work item that the contract accepts. -/
def ValidDetails (details : ChildDetails) : Prop := ∀ entry ∈ details.fields, workItemForeground.TakesSome entry

variable {turn : AppTurnRecorder}

/-- The record of a work item is accepted. -/
theorem buildRecord_childFields (hturn : ValidTurn turn.sessionId turn.originEpoch turn.turnId) {workItemId : PyStr}
    (hid : ValidId 128 workItemId) {outcome : String} (houtcome : outcome ∈ workItemOutcomes) {totalMs : PyFloat}
    (hms : ValidMs totalMs) {details : ChildDetails} (hdetails : ValidDetails details) :
    ∃ record, buildRecord "work_item_foreground" (childFields turn workItemId outcome totalMs details) = some record ∧
      record.event = "work_item_foreground" ∧ record.fields.get? "work_item_id" = some (.str workItemId) := by
  have hspec : eventSpec "work_item_foreground" = some workItemForeground := rfl
  have hnodup : ((childEntries turn workItemId outcome totalMs details).map Prod.fst).Nodup :=
    (eventRegistry_wellFormed _ (mem_eventRegistry hspec)).2.1
  have hget : ∀ name, (childFields turn workItemId outcome totalMs details).get? name
      = (Dict.find name (childEntries turn workItemId outcome totalMs details)).join := by
    intro name
    rw [childFields, get?_putAll hnodup, Dict.get?_empty, Option.or_none]
  have hfits : Fits workItemForeground (childFields turn workItemId outcome totalMs details) := by
    refine (fits_empty _).putAll (List.forall_mem_append.mpr ⟨?_, hdetails⟩)
    simp only [List.forall_mem_cons, List.not_mem_nil, false_imp_iff, implies_true, and_true]
    exact ⟨takesSome rfl (accepted_id hturn.session), takesSome rfl hturn.epoch, takesSome rfl (accepted_id hturn.turn),
      takesSome rfl (accepted_id hid), takesSome rfl (accepted_enum houtcome), takesSome rfl (accepted_ms hms)⟩
  have hrequired : ∀ field ∈ workItemForeground.required,
      ((childFields turn workItemId outcome totalMs details).get? field.name).isSome := by
    simp only [workItemForeground, List.forall_mem_cons, List.not_mem_nil, false_imp_iff, implies_true, and_true, hget]
    exact ⟨rfl, rfl, rfl, rfl, rfl, rfl⟩
  obtain ⟨record, hrecord, hevent, hfields⟩ := buildRecord_of_fits hspec hfits hrequired rfl
  exact ⟨record, hrecord, hevent, by rw [hfields, hget]; rfl⟩

/-! ## The record of a turn -/

/-- The counters are the ones of the contract. -/
def Keyed (counters : Dict String ℕ) : Prop := ∀ name, (counters.get? name).isSome = true ↔ name ∈ appTurnCounterFields

/-- What a counter counts. -/
def count (counters : Dict String ℕ) (name : String) : ℕ := (counters.get? name).getD 0

/-- What all counters count. -/
def total (counters : Dict String ℕ) : ℕ := (appTurnCounterFields.map (count counters)).sum

theorem get?_counter {counters : Dict String ℕ} (h : Keyed counters) {name : String} (hname : name ∈ appTurnCounterFields) :
    counters.get? name = some (count counters name) := by
  obtain ⟨n, hn⟩ := Option.isSome_iff_exists.mp ((h name).mpr hname)
  rw [count, hn, Option.getD_some]

theorem mem_of_member {vocabulary : List String} {s : PyStr} {value : String} (h : member vocabulary s = some value) :
    value ∈ vocabulary := List.mem_of_find?_eq_some h

/-- The outcome a turn derives: that of its only counter, mixed where there are several, failed where there are
none. -/
def Derives (counts : String → ℕ) (outcome : String) : Prop :=
  (∀ name ∈ appTurnCounterFields, counts name ≠ 0 → (∀ other ∈ appTurnCounterFields, counts other ≠ 0 → other = name) →
      (name, outcome) ∈ parentOutcomeForCounter) ∧
    (∀ name ∈ appTurnCounterFields, ∀ other ∈ appTurnCounterFields, counts name ≠ 0 → counts other ≠ 0 → name ≠ other →
      outcome = "mixed") ∧
    ((∀ name ∈ appTurnCounterFields, counts name = 0) → outcome = "failed")

theorem parentOutcome_of_counter {name : String} (h : name ∈ appTurnCounterFields) :
    (name, (Dict.find name parentOutcomeForCounter).getD "failed") ∈ parentOutcomeForCounter := by
  revert name
  decide

theorem derives_derivedOutcome (counters : Dict String ℕ) : Derives (count counters) (derivedOutcome counters) := by
  have hmem : ∀ name, name ∈ appTurnCounterFields.filter (fun name => (counters.get? name).getD 0 ≠ 0) ↔
      name ∈ appTurnCounterFields ∧ count counters name ≠ 0 := fun name => by rw [List.mem_filter, decide_eq_true_eq, count]
  have hnodup : (appTurnCounterFields.filter fun name => (counters.get? name).getD 0 ≠ 0).Nodup :=
    List.Nodup.filter _ (by decide)
  rw [derivedOutcome]
  generalize appTurnCounterFields.filter (fun name => (counters.get? name).getD 0 ≠ 0) = nonzero at hmem hnodup ⊢
  rcases nonzero with _ | ⟨first, _ | ⟨second, rest⟩⟩
  · have hnone : ∀ name ∈ appTurnCounterFields, count counters name = 0 := fun name hname => by
      by_contra hcount
      exact List.not_mem_nil ((hmem name).mpr ⟨hname, hcount⟩)
    exact ⟨fun name hname hcount => absurd (hnone name hname) hcount,
      fun name hname _ _ hcount => absurd (hnone name hname) hcount, fun _ => rfl⟩
  · obtain ⟨hfirst, hcount⟩ := (hmem first).mp (List.mem_singleton_self first)
    have honly : ∀ name ∈ appTurnCounterFields, count counters name ≠ 0 → name = first := fun name hname hcount =>
      List.mem_singleton.mp ((hmem name).mpr ⟨hname, hcount⟩)
    refine ⟨fun name hname hcount _ => ?_, fun name hname other hother hcount hcount' hne => ?_, fun hnone => ?_⟩
    · rw [honly name hname hcount]
      exact parentOutcome_of_counter hfirst
    · exact absurd ((honly name hname hcount).trans (honly other hother hcount').symm) hne
    · exact absurd (hnone first hfirst) hcount
  · obtain ⟨hfirst, hcount⟩ := (hmem first).mp List.mem_cons_self
    obtain ⟨hsecond, hcount'⟩ := (hmem second).mp (List.mem_cons_of_mem _ List.mem_cons_self)
    have hne : first ≠ second := fun heq => (List.nodup_cons.mp hnodup).1 (heq ▸ List.mem_cons_self)
    refine ⟨fun name hname hcount'' honly => ?_, fun _ _ _ _ _ _ _ => rfl, fun hnone => ?_⟩
    · exact absurd ((honly first hfirst hcount).trans (honly second hsecond hcount').symm) hne
    · exact absurd (hnone first hfirst) hcount

theorem parentOutcome_mem (name : String) :
    (Dict.find name parentOutcomeForCounter).getD "failed" ∈ appTurnOutcomes ∧
      (Dict.find name parentOutcomeForCounter).getD "failed" ≠ "control" := by
  rcases h : Dict.find name parentOutcomeForCounter with _ | outcome
  · decide
  · have hmem := (Dict.find_eq_some_iff (by decide)).mp h
    exact (by decide : ∀ entry ∈ parentOutcomeForCounter, entry.2 ∈ appTurnOutcomes ∧ entry.2 ≠ "control") _ hmem

/-- A turn derives an outcome of the contract, and never that of a control turn. -/
theorem derivedOutcome_mem (counters : Dict String ℕ) :
    derivedOutcome counters ∈ appTurnOutcomes ∧ derivedOutcome counters ≠ "control" := by
  rw [derivedOutcome]
  split
  · exact parentOutcome_mem _
  · decide
  · decide

/-- What the contract asks of an outcome and its control fields. -/
def Consistent (outcome : String) (action controlOutcome : Option String) : Prop :=
  outcome ∈ appTurnOutcomes ∧ (∀ value, action = some value → value ∈ controlActions) ∧
    (∀ value, controlOutcome = some value → value ∈ controlOutcomes) ∧
      if outcome = "control" then action.isSome ∧ controlOutcome.isSome else action = none ∧ controlOutcome = none

theorem consistent_failed : Consistent "failed" none none :=
  ⟨by decide, fun _ h => (nomatch h), fun _ h => (nomatch h), by decide⟩

/-- A pair of control fields that is there as a whole, or not at all. -/
theorem consistent_of_pair {outcome : String} (houtcome : outcome ∈ appTurnOutcomes) {action controlOutcome : Option PyStr}
    (hvocabulary : (action.isNone || (action.bind (member controlActions)).isSome) = true ∧
      (controlOutcome.isNone || (controlOutcome.bind (member controlOutcomes)).isSome) = true)
    (hpair : (action.isSome && controlOutcome.isSome || action.isNone && controlOutcome.isNone) = true)
    (hcontrol : (decide (outcome = "control") == (action.isSome && controlOutcome.isSome)) = true) :
    Consistent outcome (action.bind (member controlActions)) (controlOutcome.bind (member controlOutcomes)) := by
  refine ⟨houtcome, fun value h => ?_, fun value h => ?_, ?_⟩
  · obtain ⟨s, -, hs⟩ := Option.bind_eq_some_iff.mp h
    exact mem_of_member hs
  · obtain ⟨s, -, hs⟩ := Option.bind_eq_some_iff.mp h
    exact mem_of_member hs
  · rw [beq_iff_eq] at hcontrol
    cases action <;> cases controlOutcome <;> simp at hpair hvocabulary hcontrol ⊢
    · exact hcontrol
    · rw [if_pos hcontrol]
      exact hvocabulary

/-- **What goes into a record is consistent**, whatever was asked for. -/
theorem consistent_recordedOutcome (counters : Dict String ℕ) (args : FinalizeArgs) :
    Consistent (recordedOutcome counters args).1 (recordedOutcome counters args).2.1
      (recordedOutcome counters args).2.2 := by
  rw [recordedOutcome]
  split
  · rename_i outcome houtcome
    split_ifs with hcond
    · rw [Bool.and_eq_true, Bool.and_eq_true, Bool.and_eq_true] at hcond
      refine consistent_of_pair ?_ hcond.1.1 hcond.1.2 hcond.2
      split at houtcome
      · cases houtcome
        exact (derivedOutcome_mem counters).1
      · exact mem_of_member houtcome
    · exact consistent_failed
  · exact consistent_failed

/-- Where a field of the record of a turn comes from. -/
theorem get?_turnFields {args : FinalizeArgs} {totalMs : PyFloat} {outcome : String} {action controlOutcome : Option String}
    (h : recordedOutcome turn.counters args = (outcome, action, controlOutcome)) (name : String) :
    (turnFields turn args totalMs).get? name =
      (Dict.find name (turnOptions turn action controlOutcome args)).join.or
        (((turn.counters.get? name).map fun n : ℕ => .int n).or (Dict.find name (turnEntries turn outcome totalMs)).join) := by
  have hbase : ((turnEntries turn outcome totalMs).map Prod.fst).Nodup :=
    show ["session_id", "origin_epoch", "turn_id", "outcome", "total_ms", "child_count"].Nodup by decide
  have hoptions : ((turnOptions turn action controlOutcome args).map Prod.fst).Nodup :=
    show ["control_action", "control_outcome", "routing_ms", "commit_ms", "scenario", "acknowledgement"].Nodup by decide
  rw [turnFields, h]
  dsimp only
  rw [get?_putAll hoptions, Dict.get?_update, Dict.get?_mapValues, get?_putAll hbase, Dict.get?_empty, Option.or_none]

theorem find_turnOptions {action controlOutcome : Option String} {args : FinalizeArgs} {name : String}
    (hname : name ∈ appTurnCounterFields) : Dict.find name (turnOptions turn action controlOutcome args) = none :=
  Dict.find_eq_none ((by decide : ∀ name ∈ appTurnCounterFields, name ∉ ["control_action", "control_outcome",
    "routing_ms", "commit_ms", "scenario", "acknowledgement"]) name hname)

theorem foldlM_addCounter {fields : Fields} {counts : String → ℕ} {names : List String}
    (h : ∀ name ∈ names, fields.get? name = some (.int (counts name))) (k : ℤ) :
    names.foldlM (fun sum name => addCounter sum ((fields.get? name).getD (.int 0))) (some k)
      = .ok (some (k + (names.map counts).sum)) := by
  induction names generalizing k with
  | nil => simp [pure, Except.pure]
  | cons name names ih =>
    obtain ⟨hname, hnames⟩ := List.forall_mem_cons.mp h
    rw [List.foldlM_cons, hname, Option.getD_some, addCounter]
    refine (ih hnames (k + counts name)).trans ?_
    rw [List.map_cons, List.sum_cons, Nat.cast_add, Int.add_assoc]

/-- The check of a turn passes where the counters add up and the control fields are consistent. -/
theorem validate_turn {fields : Fields} {counts : String → ℕ} {outcome : String} {action controlOutcome : Option String}
    (hcounts : ∀ name ∈ appTurnCounterFields, fields.get? name = some (.int (counts name)))
    (hchildren : fields.get? "child_count" = some (.int (appTurnCounterFields.map counts).sum))
    (houtcome : fields.get? "outcome" = some (.text outcome))
    (haction : fields.get? "control_action" = action.map .text)
    (hcontrol : fields.get? "control_outcome" = controlOutcome.map .text)
    (hconsistent : Consistent outcome action controlOutcome) : validateAppTurnForeground fields = .ok () := by
  have hsum : counterSum fields = .ok (some ((appTurnCounterFields.map counts).sum : ℕ)) := by
    rw [counterSum, foldlM_addCounter hcounts, Int.zero_add]
  have hcontrolled : (some (FieldValue.text outcome) = some (.text "control")) ↔ outcome = "control" :=
    ⟨fun h => PyStr.ofString_injective (FieldValue.str.inj (Option.some.inj h)), fun h => by rw [h]⟩
  have hpair := hconsistent.2.2.2
  rw [validateAppTurnForeground, hsum, hchildren, houtcome, haction, hcontrol]
  by_cases h : outcome = "control"
  · rw [if_pos h] at hpair
    simp [equalsCount, h, hpair.1, hpair.2, bind, Except.bind, pure, Except.pure]
  · rw [if_neg h] at hpair
    simp [equalsCount, hcontrolled, h, hpair.1, hpair.2, bind, Except.bind, pure, Except.pure]

/-- A counter of a turn counts no more than all of them. -/
theorem count_le_total (counters : Dict String ℕ) {name : String} (hname : name ∈ appTurnCounterFields) :
    count counters name ≤ total counters := List.le_sum_of_mem (List.mem_map_of_mem hname)

/-- What the optional parts of the record of a turn have to be. -/
structure ValidOptions (turn : AppTurnRecorder) (args : FinalizeArgs) : Prop where
  routing : ∀ value, turn.routingMs = some value → Accepted (.ms "routing_ms") value
  commit : ∀ value, turn.commitMs = some value → Accepted (.ms "commit_ms") value
  scenario : ∀ value, args.scenario = some value → Accepted (.id "scenario" 64) value

theorem takesSome_of_forall {spec : EventSpec} {name : String} {field : FieldSpec}
    (hfield : spec.byName name = some field) {value : Option FieldValue}
    (h : ∀ v, value = some v → Accepted field v) : spec.TakesSome (name, value) := fun v hv => ⟨field, hfield, h v hv⟩

theorem accepted_map_text {name : String} {values : List String} {value : Option String}
    (h : ∀ v, value = some v → v ∈ values) : ∀ v, value.map FieldValue.text = some v → Accepted (.enum name values) v := by
  intro v hv
  obtain ⟨text, htext, rfl⟩ := Option.map_eq_some_iff.mp hv
  exact accepted_enum (h text htext)

/-- The fields of the record of a turn are known and accepted. -/
theorem fits_turnFields (hturn : ValidTurn turn.sessionId turn.originEpoch turn.turnId) (hkeyed : Keyed turn.counters)
    (htotal : total turn.counters = turn.dispatchedChildren) (hsmall : turn.dispatchedChildren < 10 ^ Numeral.maxStrDigits)
    {args : FinalizeArgs} (hoptions : ValidOptions turn args) {totalMs : PyFloat} (hms : ValidMs totalMs) :
    Fits appTurnForeground (turnFields turn args totalMs) := by
  obtain ⟨houtcome, haction, hcontrol, -⟩ := consistent_recordedOutcome turn.counters args
  rcases hrecorded : recordedOutcome turn.counters args with ⟨outcome, action, controlOutcome⟩
  rw [hrecorded] at houtcome haction hcontrol
  rw [turnFields, hrecorded]
  refine ((Fits.putAll (fits_empty _) ?_).update ?_).putAll ?_
  · simp only [turnEntries, List.forall_mem_cons, List.not_mem_nil, false_imp_iff, implies_true, and_true]
    exact ⟨takesSome rfl (accepted_id hturn.session), takesSome rfl hturn.epoch, takesSome rfl (accepted_id hturn.turn),
      takesSome rfl (accepted_enum houtcome), takesSome rfl (accepted_ms hms), takesSome rfl (accepted_count hsmall)⟩
  · intro name value hvalue
    rw [Dict.get?_mapValues] at hvalue
    obtain ⟨n, hn, rfl⟩ := Option.map_eq_some_iff.mp hvalue
    have hname := (hkeyed name).mp (by rw [hn]; rfl)
    have hcount : count turn.counters name = n := by rw [count, hn, Option.getD_some]
    have hle := count_le_total turn.counters hname
    have hfield : appTurnForeground.byName name = some (.int name) :=
      (by decide +kernel : ∀ name ∈ appTurnCounterFields, appTurnForeground.byName name = some (.int name)) name hname
    exact ⟨.int name, hfield, accepted_count (by omega)⟩
  · simp only [turnOptions, List.forall_mem_cons, List.not_mem_nil, false_imp_iff, implies_true, and_true]
    refine ⟨takesSome_of_forall rfl (accepted_map_text haction), takesSome_of_forall rfl (accepted_map_text hcontrol),
      takesSome_of_forall rfl hoptions.routing, takesSome_of_forall rfl hoptions.commit,
      takesSome_of_forall rfl hoptions.scenario, takesSome_of_forall rfl fun v hv => ?_⟩
    obtain ⟨b, -, rfl⟩ := Option.map_eq_some_iff.mp hv
    exact accepted_bool b

/-- What the record of a turn says. -/
structure TurnRecord (turn : AppTurnRecorder) (args : FinalizeArgs) (record : MeasurementRecord) : Prop where
  event : record.event = "app_turn_foreground"
  children : record.fields.get? "child_count" = some (.int turn.dispatchedChildren)
  counted : ∀ name ∈ appTurnCounterFields, record.fields.get? name = some (.int (count turn.counters name))
  outcome : record.fields.get? "outcome" = some (.text (recordedOutcome turn.counters args).1)

/-- **The record of a turn is accepted.** -/
theorem buildRecord_turnFields (hturn : ValidTurn turn.sessionId turn.originEpoch turn.turnId)
    (hkeyed : Keyed turn.counters) (htotal : total turn.counters = turn.dispatchedChildren)
    (hsmall : turn.dispatchedChildren < 10 ^ Numeral.maxStrDigits) {args : FinalizeArgs}
    (hoptions : ValidOptions turn args) {totalMs : PyFloat} (hms : ValidMs totalMs) :
    ∃ record, buildRecord "app_turn_foreground" (turnFields turn args totalMs) = some record ∧
      TurnRecord turn args record := by
  have hspec : eventSpec "app_turn_foreground" = some appTurnForeground := rfl
  have hfits := fits_turnFields hturn hkeyed htotal hsmall hoptions hms
  have hconsistent := consistent_recordedOutcome turn.counters args
  rcases hrecorded : recordedOutcome turn.counters args with ⟨outcome, action, controlOutcome⟩
  rw [hrecorded] at hconsistent
  have hget : ∀ name, (turnFields turn args totalMs).get? name = _ := get?_turnFields hrecorded
  have hother : ∀ {name : String}, name ∉ appTurnCounterFields → turn.counters.get? name = none := fun hname =>
    Option.not_isSome_iff_eq_none.mp fun hsome => hname ((hkeyed _).mp hsome)
  have hcounts : ∀ name ∈ appTurnCounterFields,
      (turnFields turn args totalMs).get? name = some (.int (count turn.counters name)) := fun name hname => by
    rw [hget, find_turnOptions hname, get?_counter hkeyed hname]
    rfl
  have hbase : ∀ name value, name ∉ appTurnCounterFields →
      Dict.find name (turnOptions turn action controlOutcome args) = none →
      Dict.find name (turnEntries turn outcome totalMs) = some (some value) →
      (turnFields turn args totalMs).get? name = some value := fun name value hname hopt hentry => by
    rw [hget, hopt, hentry, hother hname]
    rfl
  have hchildren := hbase "child_count" (.int turn.dispatchedChildren) (by decide) rfl rfl
  have houtcome := hbase "outcome" (.text outcome) (by decide) rfl rfl
  have hrequired : ∀ field ∈ appTurnForeground.required, ((turnFields turn args totalMs).get? field.name).isSome := by
    have hsome : ∀ name ∈ appTurnCounterFields, ((turnFields turn args totalMs).get? name).isSome := fun name hname => by
      rw [hcounts name hname]
      rfl
    have hthere : ∀ name value, (turnFields turn args totalMs).get? name = some value →
        ((turnFields turn args totalMs).get? name).isSome := fun name value h => by rw [h]; rfl
    simp only [appTurnForeground, List.forall_mem_cons, List.not_mem_nil, false_imp_iff, implies_true, and_true]
    exact ⟨hthere _ _ (hbase "session_id" _ (by decide) rfl rfl), hthere _ _ (hbase "origin_epoch" _ (by decide) rfl rfl),
      hthere _ _ (hbase "turn_id" _ (by decide) rfl rfl), hthere _ _ houtcome,
      hthere _ _ (hbase "total_ms" _ (by decide) rfl rfl), hthere _ _ hchildren, hsome _ (by decide), hsome _ (by decide),
      hsome _ (by decide), hsome _ (by decide), hsome _ (by decide), hsome _ (by decide), hsome _ (by decide),
      hsome _ (by decide)⟩
  have hcontrol : (turnFields turn args totalMs).get? "control_action" = action.map .text ∧
      (turnFields turn args totalMs).get? "control_outcome" = controlOutcome.map .text := by
    rw [hget, hget, hother (by decide), hother (by decide)]
    exact ⟨Option.or_none, Option.or_none⟩
  have hsum : (turnFields turn args totalMs).get? "child_count"
      = some (.int (appTurnCounterFields.map (count turn.counters)).sum) := by rw [hchildren, ← htotal]; rfl
  have hvalidate := validate_turn hcounts hsum houtcome hcontrol.1 hcontrol.2 hconsistent
  obtain ⟨record, hrecord, hevent, hfields⟩ := buildRecord_of_fits hspec hfits hrequired hvalidate
  refine ⟨record, hrecord, hevent, ?_, fun name hname => ?_, ?_⟩
  · rw [hfields, hchildren]
  · rw [hfields, hcounts name hname]
  · rw [hfields, houtcome, hrecorded]

end Recording

end PerfMetric

end SubagentsLab

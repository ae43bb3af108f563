import SubagentsLab.Machinery.Checks
import SubagentsLab.Machinery.JsonText
import SubagentsLab.Telemetry.Registry

/-!
# Telemetry/Format — writing a record

`_format_value` and `format_record` of `perf_metrics.py`.  A record is accepted exactly where its event is
known, its fields are among the event's, none that is required is missing, the event's own check passes and
every value is written (`formatRecord_eq_ok_iff`).
-/

namespace SubagentsLab

open Machinery

namespace PerfMetric

/-- `_UNSAFE_ID_CHARS`. -/
def unsafeIdChar (c : CodePoint) : Bool := c.val = 0x22 ∨ c.val < 0x20 ∨ c.val = 0x7F

/-- A value that is not what its field expects. -/
def refuse (name : String) (expected : Expected) : Except FormatFailure (List Char) :=
  .error (.perfMetric (.value name expected))

/-- An identifier. -/
def formatId (name : String) (maxlen : ℕ) : FieldValue → Except FormatFailure (List Char)
  | .str s =>
    if s = [] then refuse name .nonEmptyString
    else if s.any unsafeIdChar then refuse name .noControlCharacters
    else if maxlen < s.length then refuse name (.atMost maxlen)
    else .ok (JsonText.dumps s)
  | _ => refuse name .nonEmptyString

/-- A whole number; one that is too long is not converted. -/
def formatInt (name : String) (minimum : ℕ) : FieldValue → Except FormatFailure (List Char)
  | .int n =>
    if n < minimum then refuse name (.atLeast minimum)
    else
      match Numeral.intText n with
      | some text => .ok text
      | none => .error .valueError
  | _ => refuse name .int

/-- A duration; a whole number goes through a float. -/
def formatMs (name : String) : FieldValue → Except FormatFailure (List Char)
  | .int n =>
    match PyFloat.ofInt n with
    | none => .error .overflowError
    | some x => if n < 0 then refuse name .finiteNonNegative else .ok (Numeral.tenthsText false x.tenths)
  | .float x =>
    if !x.isFinite || x.isNegative then refuse name .finiteNonNegative
    else .ok (Numeral.tenthsText (x = .negZero) x.tenths)
  | _ => refuse name .duration

/-- A flag. -/
def formatBool (name : String) : FieldValue → Except FormatFailure (List Char)
  | .bool b => .ok (if b then "true" else "false").toList
  | _ => refuse name .bool

/-- A value of an enumeration. -/
def formatEnum (name : String) (values : List String) : FieldValue → Except FormatFailure (List Char)
  | .str s =>
    match values.find? (PyStr.ofString · = s) with
    | some value => .ok value.toList
    | none => refuse name (.oneOf values)
  | _ => refuse name (.oneOf values)

/-- `_format_value`. -/
def formatValue (spec : FieldSpec) (value : FieldValue) : Except FormatFailure (List Char) :=
  match spec.kind with
  | .id maxlen => formatId spec.name maxlen value
  | .int minimum => formatInt spec.name minimum value
  | .ms => formatMs spec.name value
  | .bool => formatBool spec.name value
  | .enum values => formatEnum spec.name values value

/-- One `name=value` of a line, where the field is there. -/
def formatField (fields : Fields) (spec : FieldSpec) : Except FormatFailure (Option (List Char)) :=
  match fields.get? spec.name with
  | none => .ok none
  | some value => (formatValue spec value).map fun text => some (spec.name.toList ++ '=' :: text)

/-- The `name=value`s of a line. -/
def formatFields (fields : Fields) : List FieldSpec → Except FormatFailure (List (List Char))
  | [] => .ok []
  | spec :: specs => do
    let word ← formatField fields spec
    let words ← formatFields fields specs
    .ok (word.toList ++ words)

/-- The words every line of an event begins with. -/
def head (event : String) : List (List Char) := ["PERF_METRIC".toList, "event=".toList ++ event.toList, "schema=1".toList]

/-- `" ".join(parts)`. -/
def joinWords : List (List Char) → List Char
  | [] => []
  | word :: words => word ++ words.flatMap (' ' :: ·)

/-- The fields an event does not know. -/
def unknownFields (spec : EventSpec) (fields : Fields) : List String :=
  fields.keys.filter fun name => (spec.byName name).isNone

/-- The fields an event requires that are missing. -/
def missingFields (spec : EventSpec) (fields : Fields) : List String :=
  (spec.required.map FieldSpec.name).filter fun name => (fields.get? name).isNone

/-- `format_record`. -/
def formatRecord (event : String) (fields : Fields) : Except FormatFailure String :=
  match eventSpec event with
  | none => .error (.perfMetric (.unknownEvent event))
  | some spec =>
    if unknownFields spec fields ≠ [] then
      .error (.perfMetric (.unknownFields event ((unknownFields spec fields).mergeSort (· ≤ ·))))
    else if missingFields spec fields ≠ [] then
      .error (.perfMetric (.missingFields event (missingFields spec fields)))
    else do
      spec.validate fields
      let words ← formatFields fields spec.specs
      .ok (.ofList (joinWords (head event ++ words)))

/-! ## What is accepted -/

/-- `spec.kind == "id"` accepts it. -/
def ValidId (maxlen : ℕ) (s : PyStr) : Prop := s ≠ [] ∧ s.any unsafeIdChar = false ∧ s.length ≤ maxlen

instance (maxlen : ℕ) (s : PyStr) : Decidable (ValidId maxlen s) := inferInstanceAs (Decidable (_ ∧ _ ∧ _))

/-- `spec.kind == "ms"` accepts it. -/
def ValidMs (x : PyFloat) : Prop := x.isFinite = true ∧ x.isNegative = false

instance (x : PyFloat) : Decidable (ValidMs x) := inferInstanceAs (Decidable (_ ∧ _))

theorem formatId_eq_ok_iff {name : String} {maxlen : ℕ} {value : FieldValue} {text : List Char} :
    formatId name maxlen value = .ok text ↔ ∃ s, value = .str s ∧ ValidId maxlen s ∧ JsonText.dumps s = text := by
  cases value with
  | str s =>
    simp only [formatId, refuse, Checks.ite_eq_ok_iff, Except.ok.injEq, FieldValue.str.injEq, exists_eq_left', ValidId,
      Bool.not_eq_true, not_lt, and_assoc, ne_eq]
  | _ => exact ⟨fun h => (nomatch h), fun ⟨_, h, _⟩ => (nomatch h)⟩

theorem formatInt_eq_ok_iff {name : String} {minimum : ℕ} {value : FieldValue} {text : List Char} :
    formatInt name minimum value = .ok text ↔
      ∃ n : ℤ, value = .int n ∧ (minimum : ℤ) ≤ n ∧ Numeral.intText n = some text := by
  cases value with
  | int n =>
    simp only [formatInt, refuse, Checks.ite_eq_ok_iff, not_lt, FieldValue.int.injEq, exists_eq_left']
    rcases Numeral.intText n with _ | text' <;> simp
  | _ => exact ⟨fun h => (nomatch h), fun ⟨_, h, _⟩ => (nomatch h)⟩

theorem formatMs_float_eq_ok_iff {name : String} {x : PyFloat} {text : List Char} :
    formatMs name (.float x) = .ok text ↔ ValidMs x ∧ Numeral.tenthsText (x = .negZero) x.tenths = text := by
  simp only [formatMs, refuse, Checks.ite_eq_ok_iff, Except.ok.injEq, Bool.or_eq_true, Bool.not_eq_true', not_or,
    Bool.not_eq_false, Bool.not_eq_true, ValidMs]

theorem formatMs_int_eq_ok_iff {name : String} {n : ℤ} {text : List Char} :
    formatMs name (.int n) = .ok text ↔
      ∃ x, PyFloat.ofInt n = some x ∧ 0 ≤ n ∧ Numeral.tenthsText false x.tenths = text := by
  rw [formatMs]
  rcases PyFloat.ofInt n with _ | x
  · simp
  · simp only [refuse, Checks.ite_eq_ok_iff, not_lt, Except.ok.injEq, Option.some.injEq, exists_eq_left']

theorem formatBool_eq_ok_iff {name : String} {value : FieldValue} {text : List Char} :
    formatBool name value = .ok text ↔ ∃ b, value = .bool b ∧ (if b then "true" else "false").toList = text := by
  cases value with
  | bool b => simp only [formatBool, Except.ok.injEq, FieldValue.bool.injEq, exists_eq_left']
  | _ => exact ⟨fun h => (nomatch h), fun ⟨_, h, _⟩ => (nomatch h)⟩

theorem formatEnum_eq_ok_iff {name : String} {values : List String} {value : FieldValue} {text : List Char} :
    formatEnum name values value = .ok text ↔ ∃ v ∈ values, value = .text v ∧ v.toList = text := by
  constructor
  · intro h
    cases value with
    | str s =>
      rw [formatEnum] at h
      rcases hfind : values.find? (PyStr.ofString · = s) with _ | v
      · rw [hfind] at h
        cases h
      · rw [hfind] at h
        cases h
        have hv := List.find?_some hfind
        rw [decide_eq_true_eq] at hv
        exact ⟨v, List.mem_of_find?_eq_some hfind, by rw [FieldValue.text, hv], rfl⟩
    | _ => cases h
  · rintro ⟨v, hv, rfl, rfl⟩
    rw [FieldValue.text, formatEnum]
    rcases hfind : values.find? (PyStr.ofString · = PyStr.ofString v) with _ | v'
    · exact absurd (decide_eq_true rfl) (List.find?_eq_none.mp hfind v hv)
    · have hv' := List.find?_some hfind
      rw [decide_eq_true_eq] at hv'
      rw [PyStr.ofString_injective hv']

/-- **What a line stands for**: a record of a known event, whose fields are the event's, all that are required
among them, which passes the event's check and whose values are all written. -/
theorem formatRecord_eq_ok_iff {event line : String} {fields : Fields} :
    formatRecord event fields = .ok line ↔
      ∃ spec, eventSpec event = some spec ∧ unknownFields spec fields = [] ∧ missingFields spec fields = [] ∧
        spec.validate fields = .ok () ∧
          ∃ words, formatFields fields spec.specs = .ok words ∧ .ofList (joinWords (head event ++ words)) = line := by
  rw [formatRecord]
  rcases hspec : eventSpec event with _ | spec
  · exact ⟨fun h => (nomatch h), fun ⟨_, h, _⟩ => (nomatch h)⟩
  · simp only [Checks.ite_eq_ok_iff, Checks.check_eq_ok_iff, not_not, Option.some.injEq, exists_eq_left']
    simp only [Checks.bind_eq_ok_iff, Except.ok.injEq]

theorem formatField_eq_ok_iff {fields : Fields} {spec : FieldSpec} {word : Option (List Char)} :
    formatField fields spec = .ok word ↔
      match fields.get? spec.name with
      | none => word = none
      | some value => ∃ text, formatValue spec value = .ok text ∧ word = some (spec.name.toList ++ '=' :: text) := by
  rw [formatField]
  rcases fields.get? spec.name with _ | value
  · exact ⟨fun h => (Except.ok.inj h).symm, fun h => congrArg Except.ok h.symm⟩
  · exact Checks.map_eq_ok_iff.trans (exists_congr fun text => and_congr_right fun _ => eq_comm)

theorem formatFields_cons_eq_ok_iff {fields : Fields} {spec : FieldSpec} {specs : List FieldSpec}
    {words : List (List Char)} :
    formatFields fields (spec :: specs) = .ok words ↔
      ∃ word, formatField fields spec = .ok word ∧
        ∃ rest, formatFields fields specs = .ok rest ∧ word.toList ++ rest = words := by
  simp only [formatFields, Checks.bind_eq_ok_iff, Except.ok.injEq]

/-- The fields are all written where each value that is there is. -/
theorem exists_formatFields_iff {fields : Fields} {specs : List FieldSpec} :
    (∃ words, formatFields fields specs = .ok words) ↔
      ∀ spec ∈ specs, ∀ value, fields.get? spec.name = some value → ∃ text, formatValue spec value = .ok text := by
  induction specs with
  | nil => simp [formatFields]
  | cons spec specs ih =>
    rw [List.forall_mem_cons, ← ih]
    simp only [formatFields_cons_eq_ok_iff, formatField_eq_ok_iff]
    rcases fields.get? spec.name with _ | value
    · simp
    · simp only [Option.some.injEq, forall_eq']
      exact ⟨fun ⟨_, _, ⟨text, ht, _⟩, rest, hrest, _⟩ => ⟨⟨text, ht⟩, rest, hrest⟩,
        fun ⟨⟨text, ht⟩, rest, hrest⟩ => ⟨_, _, ⟨text, ht, rfl⟩, rest, hrest, rfl⟩⟩

/-- **When a record is accepted.** -/
theorem exists_formatRecord_iff {event : String} {fields : Fields} :
    (∃ line, formatRecord event fields = .ok line) ↔
      ∃ spec, eventSpec event = some spec ∧ unknownFields spec fields = [] ∧ missingFields spec fields = [] ∧
        spec.validate fields = .ok () ∧
          ∀ field ∈ spec.specs, ∀ value, fields.get? field.name = some value → ∃ text, formatValue field value = .ok text := by
  simp only [formatRecord_eq_ok_iff, ← exists_formatFields_iff]
  constructor
  · rintro ⟨line, spec, hspec, hunknown, hmissing, hvalidate, words, hwords, -⟩
    exact ⟨spec, hspec, hunknown, hmissing, hvalidate, words, hwords⟩
  · rintro ⟨spec, hspec, hunknown, hmissing, hvalidate, words, hwords⟩
    exact ⟨_, spec, hspec, hunknown, hmissing, hvalidate, words, hwords, rfl⟩

end PerfMetric

end SubagentsLab

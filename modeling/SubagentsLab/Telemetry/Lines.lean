import SubagentsLab.Telemetry.Format

/-!
# Telemetry/Lines — reading a line back

A metric line is printable ASCII, and cutting it at the spaces outside its quoted strings gives back the
event and every field with the value it was written with (`readLine_formatRecord`).  A string is shown as a
reader of JSON sees it: two code points that are a surrogate pair and the one code point they stand for are
written alike, so identifiers are told apart up to that (`metric_lines_readable`), and no further
(`paired_ids_collide`).
-/

namespace SubagentsLab

open Machinery

namespace PerfMetric

/-! ## What a line shows -/

/-- A value as a line shows it. -/
inductive Shown
  | id (s : PyStr)
  | int (n : ℤ)
  | ms (negative : Bool) (tenths : ℕ)
  | bool (b : Bool)
  | enum (s : PyStr)
  deriving DecidableEq

/-- What a line shows of a value: all of it, but for the digits of a duration after the first and for how a
code point beyond the basic plane was held. -/
def shownValue : FieldKind → FieldValue → Option Shown
  | .id _, .str s => some (.id s.joinSurrogates)
  | .int _, .int n => some (.int n)
  | .ms, .int n => (PyFloat.ofInt n).map fun x => .ms false x.tenths
  | .ms, .float x => some (.ms (x = .negZero) x.tenths)
  | .bool, .bool b => some (.bool b)
  | .enum _, .str s => some (.enum s)
  | _, _ => none

/-- What a line shows of a field. -/
def shownField (fields : Fields) (spec : FieldSpec) : Option (String × Shown) := do
  let value ← fields.get? spec.name
  let shown ← shownValue spec.kind value
  pure (spec.name, shown)

/-! ## Reading -/

/-- A value, by the kind of its field. -/
def readValue : FieldKind → List Char → Option Shown
  | .id _, text => (JsonText.readString text).map .id
  | .int _, text => (Numeral.readInt text).map .int
  | .ms, text => (Numeral.readTenths text).map fun (negative, tenths) => .ms negative tenths
  | .bool, text =>
    if text = "true".toList then some (.bool true)
    else if text = "false".toList then some (.bool false)
    else none
  | .enum values, text => (values.find? (·.toList = text)).map fun value => .enum (.ofString value)

/-- One `name=value`. -/
def readField (spec : EventSpec) (word : List Char) : Option (String × Shown) := do
  let field ← spec.byName (.ofList (word.takeWhile (· ≠ '=')))
  let shown ← readValue field.kind (word.dropWhile (· ≠ '=')).tail
  pure (field.name, shown)

/-- The event and the fields of a line. -/
def readLine (line : String) : Option (String × List (String × Shown)) :=
  match JsonText.splitQuoted line.toList with
  | tag :: event :: schema :: words =>
    if tag = "PERF_METRIC".toList ∧ "event=".toList <+: event ∧ schema = "schema=1".toList then do
      let spec ← eventSpec (.ofList (event.drop 6))
      let fields ← words.mapM (readField spec)
      pure (.ofList (event.drop 6), fields)
    else none
  | _ => none

/-! ## Words -/

/-- A text that can stand in a line: a word of printable characters. -/
def Lineable (text : List Char) : Prop := JsonText.Word text ∧ ∀ c ∈ text, JsonText.Printable c

theorem Lineable.append {text more : List Char} (h : Lineable text) (h' : Lineable more) : Lineable (text ++ more) :=
  ⟨h.1.append h'.1, List.forall_mem_append.mpr ⟨h.2, h'.2⟩⟩

/-- A text of printable characters other than a space and a quote can stand in a line. -/
theorem lineable_of_plain {text : List Char} (h : ∀ c ∈ text, 0x21 ≤ c.toNat ∧ c.toNat ≤ 0x7E ∧ c ≠ '"') :
    Lineable text := by
  refine ⟨JsonText.word_of_plain fun c hc => ⟨?_, (h c hc).2.2⟩, fun c hc => ⟨?_, (h c hc).2.1⟩⟩
  · rintro rfl
    exact absurd (h _ hc).1 (by decide)
  · exact le_trans (by omega) (h c hc).1

theorem lineable_of_all {text : List Char}
    (h : text.all (fun c => 0x21 ≤ c.toNat ∧ c.toNat ≤ 0x7E ∧ c ≠ '"') = true) : Lineable text :=
  lineable_of_plain fun c hc => of_decide_eq_true (List.all_eq_true.mp h c hc)

theorem lineable_equals : Lineable ['='] := lineable_of_all (by decide)

theorem lineable_plainName {name : String} (h : plainName name = true) : Lineable name.toList := by
  refine lineable_of_plain fun c hc => ?_
  have hname := of_decide_eq_true (List.all_eq_true.mp h c hc)
  exact ⟨hname.1, hname.2.1, hname.2.2.1⟩

theorem plain_isDigit {c : Char} (h : c.isDigit = true) : 0x21 ≤ c.toNat ∧ c.toNat ≤ 0x7E ∧ c ≠ '"' := by
  rw [Char.isDigit, Bool.and_eq_true, decide_eq_true_eq, decide_eq_true_eq] at h
  have hlow : 48 ≤ c.toNat := h.1
  have hhigh : c.toNat ≤ 57 := h.2
  refine ⟨by omega, by omega, ?_⟩
  rintro rfl
  exact absurd hlow (by decide)

theorem lineable_intText {n : ℤ} {text : List Char} (h : Numeral.intText n = some text) : Lineable text := by
  refine lineable_of_plain fun c hc => ?_
  rcases Numeral.mem_intText h hc with hdigit | rfl
  · exact plain_isDigit hdigit
  · decide

theorem lineable_tenthsText (negative : Bool) (t : ℕ) : Lineable (Numeral.tenthsText negative t) := by
  refine lineable_of_plain fun c hc => ?_
  rcases Numeral.mem_tenthsText hc with hdigit | rfl | rfl
  · exact plain_isDigit hdigit
  · decide
  · decide

/-! ## One value -/

/-- A text that is written for a value: it can stand in a line, and reading it shows the value. -/
def Renders (kind : FieldKind) (value : FieldValue) (text : List Char) : Prop :=
  Lineable text ∧ ∃ shown, shownValue kind value = some shown ∧ readValue kind text = some shown

theorem renders_id {maxlen : ℕ} (s : PyStr) : Renders (.id maxlen) (.str s) (JsonText.dumps s) :=
  ⟨⟨JsonText.word_dumps s, JsonText.dumps_printable s⟩, _, rfl, by rw [readValue, JsonText.readString_dumps]; rfl⟩

theorem renders_int {minimum : ℕ} {n : ℤ} {text : List Char} (h : Numeral.intText n = some text) :
    Renders (.int minimum) (.int n) text :=
  ⟨lineable_intText h, _, rfl, by rw [readValue, Numeral.readInt_intText h]; rfl⟩

theorem renders_ms {value : FieldValue} {negative : Bool} {t : ℕ} (h : shownValue .ms value = some (.ms negative t)) :
    Renders .ms value (Numeral.tenthsText negative t) :=
  ⟨lineable_tenthsText negative t, _, h, by rw [readValue, Numeral.readTenths_tenthsText]; rfl⟩

theorem renders_bool (b : Bool) : Renders .bool (.bool b) (if b then "true" else "false").toList := by
  cases b
  · exact ⟨lineable_of_all (by decide), _, rfl, rfl⟩
  · exact ⟨lineable_of_all (by decide), _, rfl, rfl⟩

theorem renders_enum {values : List String} (hplain : FieldKind.plain (.enum values) = true) {value : String}
    (hvalue : value ∈ values) : Renders (.enum values) (.text value) value.toList := by
  refine ⟨lineable_plainName (List.all_eq_true.mp hplain value hvalue), _, rfl, ?_⟩
  rw [readValue]
  rcases hfind : values.find? (·.toList = value.toList) with _ | found
  · exact absurd (decide_eq_true rfl) (List.find?_eq_none.mp hfind value hvalue)
  · have hfound := List.find?_some hfind
    rw [decide_eq_true_eq, String.toList_inj] at hfound
    rw [hfind, hfound]
    rfl

/-- **Every text `_format_value` gives can be read back.** -/
theorem renders_formatValue {spec : FieldSpec} {value : FieldValue} {text : List Char}
    (hplain : spec.kind.plain = true) (h : formatValue spec value = .ok text) : Renders spec.kind value text := by
  obtain ⟨name, kind⟩ := spec
  cases kind with
  | id maxlen =>
    obtain ⟨s, rfl, -, rfl⟩ := formatId_eq_ok_iff.mp h
    exact renders_id s
  | int minimum =>
    obtain ⟨n, rfl, -, htext⟩ := formatInt_eq_ok_iff.mp h
    exact renders_int htext
  | ms =>
    cases value with
    | int n =>
      obtain ⟨x, hx, -, rfl⟩ := formatMs_int_eq_ok_iff.mp h
      exact renders_ms (by rw [shownValue, hx]; rfl)
    | float x =>
      obtain ⟨-, rfl⟩ := formatMs_float_eq_ok_iff.mp h
      exact renders_ms rfl
    | _ => cases h
  | bool =>
    obtain ⟨b, rfl, rfl⟩ := formatBool_eq_ok_iff.mp h
    exact renders_bool b
  | enum values =>
    obtain ⟨v, hv, rfl, rfl⟩ := formatEnum_eq_ok_iff.mp h
    exact renders_enum hplain hv

/-! ## One field -/

theorem ne_equals_of_plainName {name : String} (h : plainName name = true) : ∀ c ∈ name.toList, c ≠ '=' := fun c hc =>
  (of_decide_eq_true (List.all_eq_true.mp h c hc)).2.2.2

/-- A name is cut off at the first equals sign. -/
theorem takeWhile_name {name : String} (h : plainName name = true) (text : List Char) :
    (name.toList ++ '=' :: text).takeWhile (· ≠ '=') = name.toList ∧
      (name.toList ++ '=' :: text).dropWhile (· ≠ '=') = '=' :: text := by
  have hname : ∀ c ∈ name.toList, decide (c ≠ '=') = true := fun c hc => decide_eq_true (ne_equals_of_plainName h c hc)
  refine ⟨?_, ?_⟩
  · rw [List.takeWhile_append_of_pos hname, List.takeWhile_cons_of_neg (by simp), List.append_nil]
  · rw [List.dropWhile_append_of_pos hname, List.dropWhile_cons_of_neg (by simp)]

/-- The words of some fields of an event are read back as what a line shows of them. -/
theorem readField_formatFields {event : String} {spec : EventSpec} (hspec : eventSpec event = some spec)
    {fields : Fields} {specs : List FieldSpec} (hsub : ∀ field ∈ specs, field ∈ spec.specs) {words : List (List Char)}
    (h : formatFields fields specs = .ok words) :
    (∀ word ∈ words, Lineable word) ∧ words.mapM (readField spec) = some (specs.filterMap (shownField fields)) := by
  induction specs generalizing words with
  | nil =>
    cases h
    exact ⟨fun word hword => absurd hword List.not_mem_nil, rfl⟩
  | cons field specs ih =>
    obtain ⟨hfield, hspecs⟩ := List.forall_mem_cons.mp hsub
    obtain ⟨word, hword, rest, hrest, rfl⟩ := formatFields_cons_eq_ok_iff.mp h
    obtain ⟨hlineable, hread⟩ := ih hspecs hrest
    rw [formatField_eq_ok_iff] at hword
    rcases hvalue : fields.get? field.name with _ | value
    · rw [hvalue] at hword
      have hshown : shownField fields field = none := by rw [shownField, hvalue]; rfl
      rw [List.filterMap_cons_none hshown, hword]
      exact ⟨hlineable, hread⟩
    · rw [hvalue] at hword
      obtain ⟨text, htext, rfl⟩ := hword
      obtain ⟨hname, hkind⟩ := (eventRegistry_wellFormed _ (mem_eventRegistry hspec)).2.2 field hfield
      obtain ⟨htextline, shown, hshown, hreadvalue⟩ := renders_formatValue hkind htext
      obtain ⟨htake, hdrop⟩ := takeWhile_name hname text
      have hfound : shownField fields field = some (field.name, shown) := by
        rw [shownField, hvalue, Option.bind_eq_bind, Option.bind_some, hshown]
        rfl
      have hreadfield : readField spec (field.name.toList ++ '=' :: text) = some (field.name, shown) := by
        rw [readField, htake, hdrop, String.ofList_toList, (byName_eq_some_iff hspec).mpr ⟨hfield, rfl⟩]
        simp only [List.tail_cons, Option.bind_eq_bind, Option.bind_some, hreadvalue, Option.pure_def]
      refine ⟨List.forall_mem_cons.mpr ⟨?_, hlineable⟩, ?_⟩
      · exact (lineable_plainName hname).append (lineable_equals.append htextline)
      · rw [Option.toList_some, List.singleton_append, List.mapM_cons, hreadfield, hread,
          List.filterMap_cons_some hfound]
        rfl

/-! ## One line -/

/-- A line of words that can stand in it is printable, and is cut into its words. -/
theorem splitQuoted_joinWords {words : List (List Char)} (hne : words ≠ []) (h : ∀ word ∈ words, Lineable word) :
    JsonText.splitQuoted (joinWords words) = words ∧ ∀ c ∈ joinWords words, JsonText.Printable c := by
  obtain ⟨word, words, rfl⟩ := List.exists_cons_of_ne_nil hne
  refine ⟨JsonText.splitQuoted_join fun word hword => (h word hword).1, ?_⟩
  obtain ⟨hword, hwords⟩ := List.forall_mem_cons.mp h
  refine List.forall_mem_append.mpr ⟨hword.2, fun c hc => ?_⟩
  obtain ⟨other, hother, hc⟩ := List.mem_flatMap.mp hc
  rcases List.mem_cons.mp hc with rfl | hc
  · decide
  · exact (hwords other hother).2 c hc

theorem lineable_head {event : String} {spec : EventSpec} (h : eventSpec event = some spec) :
    ∀ word ∈ head event, Lineable word := by
  have hname := lineable_plainName (eventRegistry_wellFormed _ (mem_eventRegistry h)).1
  have hevent : Lineable "event=".toList := lineable_of_all (by decide)
  rw [head, List.forall_mem_cons, List.forall_mem_cons, List.forall_mem_singleton]
  exact ⟨lineable_of_all (by decide), hevent.append hname, lineable_of_all (by decide)⟩

/-- **An accepted record is read back from its line.** -/
theorem readLine_formatRecord {event line : String} {fields : Fields} (h : formatRecord event fields = .ok line) :
    (∀ c ∈ line.toList, JsonText.Printable c) ∧ ∃ spec, eventSpec event = some spec ∧
      readLine line = some (event, spec.specs.filterMap (shownField fields)) := by
  obtain ⟨spec, hspec, -, -, -, words, hwords, rfl⟩ := formatRecord_eq_ok_iff.mp h
  obtain ⟨hlineable, hread⟩ := readField_formatFields hspec (fun _ hfield => hfield) hwords
  obtain ⟨hsplit, hprintable⟩ := splitQuoted_joinWords (by simp [head] : head event ++ words ≠ [])
    (List.forall_mem_append.mpr ⟨lineable_head hspec, hlineable⟩)
  have hevent : ("event=".toList ++ event.toList).drop 6 = event.toList := rfl
  refine ⟨by rwa [String.toList_ofList], spec, hspec, ?_⟩
  rw [readLine, String.toList_ofList, hsplit]
  simp only [head, List.cons_append, List.nil_append, hevent, String.ofList_toList, hspec, hread, Option.bind_eq_bind,
    Option.bind_some, Option.pure_def]
  exact if_pos ⟨trivial, List.prefix_append .., trivial⟩

/-! ## What is shown of a record -/

/-- The kind of a field of an event. -/
def fieldKind (event name : String) : Option FieldKind := do
  let spec ← eventSpec event
  let field ← spec.byName name
  pure field.kind

/-- Exactly these fields, each shown as it is. -/
def Shows (event : String) (fields : Fields) (shown : List (String × Shown)) : Prop :=
  (shown.map Prod.fst).Perm fields.keys ∧
    ∀ name value, fields.get? name = some value →
      ∃ kind v, fieldKind event name = some kind ∧ shownValue kind value = some v ∧ (name, v) ∈ shown

/-- Two values of a kind that a line does not tell apart. -/
def Alike : FieldKind → FieldValue → FieldValue → Prop
  | .id _, .str s, .str s' => s.joinSurrogates = s'.joinSurrogates
  | .int _, .int n, .int n' => n = n'
  | .ms, value, value' => shownValue .ms value = shownValue .ms value'
  | .bool, .bool b, .bool b' => b = b'
  | .enum _, .str s, .str s' => s = s'
  | _, _, _ => False

theorem alike_of_shownValue {kind : FieldKind} {value value' : FieldValue} {v : Shown}
    (h : shownValue kind value = some v) (h' : shownValue kind value' = some v) : Alike kind value value' := by
  cases kind with
  | ms => exact h.trans h'.symm
  | id =>
    cases value <;> cases h
    cases value' <;> try cases h'
    exact (Shown.id.inj (Option.some.inj h')).symm
  | _ =>
    cases value <;> cases h
    cases value' <;> cases h'
    rfl

/-- A field of an accepted record is shown. -/
theorem shownField_of_formatFields {event : String} {spec : EventSpec} (hspec : eventSpec event = some spec)
    {fields : Fields} {words : List (List Char)} (h : formatFields fields spec.specs = .ok words) {field : FieldSpec}
    (hfield : field ∈ spec.specs) {value : FieldValue} (hvalue : fields.get? field.name = some value) :
    ∃ v, shownField fields field = some (field.name, v) ∧ shownValue field.kind value = some v := by
  obtain ⟨text, htext⟩ := exists_formatFields_iff.mp ⟨words, h⟩ field hfield value hvalue
  have hplain := ((eventRegistry_wellFormed _ (mem_eventRegistry hspec)).2.2 field hfield).2
  obtain ⟨-, v, hv, -⟩ := renders_formatValue hplain htext
  refine ⟨v, ?_, hv⟩
  rw [shownField, hvalue, Option.bind_eq_bind, Option.bind_some, hv]
  rfl

/-- A field of a record that has no unknown one is declared. -/
theorem declared_of_unknownFields {event : String} {spec : EventSpec} (hspec : eventSpec event = some spec)
    {fields : Fields} (h : unknownFields spec fields = []) {name : String} (hname : (fields.get? name).isSome) :
    ∃ field ∈ spec.specs, field.name = name := by
  have hknown := List.filter_eq_nil_iff.mp h name (Dict.mem_keys.mpr hname)
  rw [Option.isNone_iff_eq_none, ← ne_eq, Option.ne_none_iff_exists'] at hknown
  obtain ⟨field, hfield⟩ := hknown
  exact ⟨field, (byName_eq_some_iff hspec).mp hfield⟩

theorem name_of_shownField {fields : Fields} {spec : FieldSpec} {entry : String × Shown}
    (h : shownField fields spec = some entry) : entry.1 = spec.name ∧ (fields.get? spec.name).isSome := by
  simp only [shownField, Option.bind_eq_bind, Option.bind_eq_some_iff, Option.pure_def, Option.some.injEq] at h
  obtain ⟨value, hvalue, v, -, rfl⟩ := h
  exact ⟨rfl, by rw [hvalue]; rfl⟩

/-- The names of what is shown are those of the fields in the order of the event. -/
theorem names_shownFields (fields : Fields) {specs : List FieldSpec}
    (h : ∀ field ∈ specs, (fields.get? field.name).isSome → (shownField fields field).isSome) :
    (specs.filterMap (shownField fields)).map Prod.fst
      = (specs.map FieldSpec.name).filter fun name => (fields.get? name).isSome := by
  induction specs with
  | nil => rfl
  | cons field specs ih =>
    obtain ⟨hfield, hspecs⟩ := List.forall_mem_cons.mp h
    rcases hshown : shownField fields field with _ | entry
    · have hnone : ¬(fields.get? field.name).isSome = true := fun hsome => by
        have hcontra := hfield hsome
        rw [hshown] at hcontra
        cases hcontra
      rw [List.filterMap_cons_none hshown, List.map_cons,
        List.filter_cons_of_neg (p := fun name => (fields.get? name).isSome) hnone, ih hspecs]
    · obtain ⟨hname, hsome⟩ := name_of_shownField hshown
      rw [List.filterMap_cons_some hshown, List.map_cons, List.map_cons, ih hspecs, hname,
        List.filter_cons_of_pos (p := fun name => (fields.get? name).isSome) hsome]

/-- **A line shows exactly the fields of its record.** -/
theorem shows_formatRecord {event : String} {spec : EventSpec} (hspec : eventSpec event = some spec)
    {fields : Fields} {words : List (List Char)} (hunknown : unknownFields spec fields = [])
    (h : formatFields fields spec.specs = .ok words) : Shows event fields (spec.specs.filterMap (shownField fields)) := by
  have hnodup : (spec.specs.map FieldSpec.name).Nodup := (eventRegistry_wellFormed _ (mem_eventRegistry hspec)).2.1
  have hkeys : fields.keys.Nodup := fields.nodup_keys
  have hnames := names_shownFields fields fun field hfield hsome => by
    obtain ⟨value, hvalue⟩ := Option.isSome_iff_exists.mp hsome
    obtain ⟨v, hv, -⟩ := shownField_of_formatFields hspec h hfield hvalue
    rw [hv, Option.isSome_some]
  refine ⟨?_, fun name value hvalue => ?_⟩
  · rw [hnames, List.perm_ext_iff_of_nodup (hnodup.filter _) hkeys]
    intro name
    rw [List.mem_filter, Dict.mem_keys]
    refine and_iff_right_of_imp fun hsome => ?_
    obtain ⟨field, hfield, rfl⟩ := declared_of_unknownFields hspec hunknown hsome
    exact List.mem_map_of_mem hfield
  · obtain ⟨field, hfield, rfl⟩ := declared_of_unknownFields hspec hunknown (by rw [hvalue]; rfl)
    obtain ⟨v, hv, hshown⟩ := shownField_of_formatFields hspec h hfield hvalue
    have hkind : fieldKind event field.name = some field.kind := by
      rw [fieldKind, hspec, Option.bind_eq_bind, Option.bind_some, (byName_eq_some_iff hspec).mpr ⟨hfield, rfl⟩]
      rfl
    exact ⟨field.kind, v, hkind, hshown, List.mem_filterMap.mpr ⟨field, hfield, hv⟩⟩

theorem Shows.isSome_eq {event : String} {fields fields' : Fields} {shown : List (String × Shown)}
    (h : Shows event fields shown) (h' : Shows event fields' shown) (name : String) :
    (fields.get? name).isSome = (fields'.get? name).isSome := by
  rw [Bool.eq_iff_iff, ← Dict.mem_keys, ← Dict.mem_keys, ← h.1.mem_iff, h'.1.mem_iff]

/-- What is shown of two records says what they have in common. -/
theorem Shows.alike {event : String} {fields fields' : Fields} {shown : List (String × Shown)}
    (h : Shows event fields shown) (h' : Shows event fields' shown) {name : String} {kind : FieldKind}
    (hkind : fieldKind event name = some kind) {value value' : FieldValue} (hvalue : fields.get? name = some value)
    (hvalue' : fields'.get? name = some value') : Alike kind value value' := by
  have hnodup : (shown.map Prod.fst).Nodup := h.1.nodup_iff.mpr fields.nodup_keys
  obtain ⟨_, v, hk, hv, hmem⟩ := h.2 name value hvalue
  obtain ⟨_, v', hk', hv', hmem'⟩ := h'.2 name value' hvalue'
  cases hkind.symm.trans hk
  cases hkind.symm.trans hk'
  have hsame : some v = some v' :=
    ((Dict.find_eq_some_iff hnodup).mpr hmem).symm.trans ((Dict.find_eq_some_iff hnodup).mpr hmem')
  exact alike_of_shownValue hv (hv'.trans hsame.symm)

/-- The start of a turn of a session. -/
def turnStart (session : PyStr) : Fields :=
  ⟨[("session_id", .str session), ("origin_epoch", .int 0), ("connection_worker", .text "w"), ("pipecat_turn", .int 1)],
    show ["session_id", "origin_epoch", "connection_worker", "pipecat_turn"].Nodup by decide⟩

/-- A face, as one code point. -/
def oneFace : PyStr := [0x1F600]

/-- The same face, as two surrogates. -/
def twoFaces : PyStr := [0xD83D, 0xDE00]

/-- The line of either. -/
def faceLine : String :=
  "PERF_METRIC event=pipecat_turn_start schema=1 session_id=\"\\ud83d\\ude00\" origin_epoch=0 connection_worker=\"w\" pipecat_turn=1"

end PerfMetric

end SubagentsLab

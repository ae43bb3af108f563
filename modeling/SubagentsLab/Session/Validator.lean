import SubagentsLab.Session.Wire

/-!
# Session/Validator — what the browser lets in

`validateServerMessage` of `web/src/protocol.js`, over decoded values, against the frames of
`Session/Wire`.  Two hand-written validators agree on every envelope but for one thing: `str.strip` and
`trim` do not mean the same white space, so a result whose text is nothing but byte order marks is a result
to the server and blank to the browser (`validateServerMessage_wirePayload_iff`).
-/

namespace SubagentsLab

open Machinery

namespace Session

open Json

/-- What the browser asks its engine: whether `Date.parse` makes sense of a text, and the protocol of a URL,
if it is one. -/
structure Engine where
  parsesDate : String → Bool
  protocol? : String → Option String

/-! ## The validators -/

/-- `validOrigin`. -/
def validOrigin (v : Option Json) : Bool := v.isNone || isNull v || isCount v

/-- Only names from a list. -/
def onlyKeys (v : Json) (keys : List String) : Bool := v.ownKeys.all (· ∈ keys)

/-- `hasExactKeys`. -/
def hasExactKeys (v : Json) (requiredKeys : List String) (optionalKeys : List String := []) : Bool :=
  v.truthy && v.isObject && !v.isArray && onlyKeys v (requiredKeys ++ optionalKeys) && requiredKeys.all v.hasOwn

/-- The parts of a timestamp. -/
structure Stamp where
  year : ℕ
  month : ℕ
  day : ℕ
  hour : ℕ
  minute : ℕ
  second : ℕ
  offsetHour : ℕ := 0
  offsetMinute : ℕ := 0
  deriving DecidableEq, Repr

/-- One character. -/
def literal (c : Char) : List Char → Option (List Char)
  | [] => none
  | c' :: cs => if c' = c then some cs else none

/-- `(?:\.\d+)?`. -/
def skipFraction : List Char → List Char
  | '.' :: c :: cs => if c.isDigit then cs.dropWhile Char.isDigit else '.' :: c :: cs
  | cs => cs

/-- The offset a timestamp ends with. -/
def matchOffset : List Char → Option (ℕ × ℕ)
  | ['Z'] => some (0, 0)
  | sign :: cs => do
    guard (sign = '+' ∨ sign = '-')
    let (hour, cs) ← Text.readDigits 2 0 cs
    let cs ← literal ':' cs
    let (minute, cs) ← Text.readDigits 2 0 cs
    guard (cs = [])
    return (hour, minute)
  | [] => none

/-- The pattern of `validTimestamp`. -/
def matchTimestamp (cs : List Char) : Option Stamp := do
  let (year, cs) ← Text.readDigits 4 0 cs
  let cs ← literal '-' cs
  let (month, cs) ← Text.readDigits 2 0 cs
  let cs ← literal '-' cs
  let (day, cs) ← Text.readDigits 2 0 cs
  let cs ← literal 'T' cs
  let (hour, cs) ← Text.readDigits 2 0 cs
  let cs ← literal ':' cs
  let (minute, cs) ← Text.readDigits 2 0 cs
  let cs ← literal ':' cs
  let (second, cs) ← Text.readDigits 2 0 cs
  let (offsetHour, offsetMinute) ← matchOffset (skipFraction cs)
  return { year, month, day, hour, minute, second, offsetHour, offsetMinute }

/-- `new Date(Date.UTC(year, month, 0)).getUTCDate()`: the first hundred years are those of the last century. -/
def utcDaysInMonth (year month : ℕ) : ℕ :=
  if 1 ≤ month ∧ month ≤ 12 then daysInMonth (if year ≤ 99 then 1900 + year else year) month else 0

/-- `validTimestamp`. -/
def validTimestamp (engine : Engine) (v : Option Json) : Bool :=
  (v.bind asStr).any fun s =>
    (matchTimestamp s.toList).any fun t =>
      1 ≤ t.year && 1 ≤ t.day && t.day ≤ utcDaysInMonth t.year t.month && t.hour ≤ 23 && t.minute ≤ 59 &&
        t.second ≤ 59 && t.offsetHour ≤ 23 && t.offsetMinute ≤ 59 && engine.parsesDate s

/-- `typeof value === "string" && value.trim().length > 0`. -/
def isLegible (v : Option Json) : Bool := (v.bind asStr).any (Text.trim · ≠ "")

/-- `validCitation`. -/
def validCitation (engine : Engine) (v : Json) : Bool :=
  v.truthy && v.isObject && isString (v.get? "url") && onlyKeys v ["title", "url"] &&
    (((v.get? "url").bind asStr).bind engine.protocol?).any fun protocol =>
      (protocol = "http:" || protocol = "https:") && isString (v.get? "title")

/-- `validWorker`. -/
def validWorker (v : Json) : Bool :=
  v.truthy && onlyKeys v ["worker_id", "topic", "model_policy", "status", "latest_result_id", "origin_epoch"] &&
    v.isObject && isString (v.get? "worker_id") && isString (v.get? "topic") && isString (v.get? "model_policy") &&
    isString (v.get? "status") && isOptionalString (v.get? "latest_result_id") && v.hasOwn "origin_epoch" &&
    validOrigin (v.get? "origin_epoch")

/-- The properties of `grounded-result.json`. -/
def groundedResultKeys : List String :=
  ["result_id", "worker_id", "turn_id", "timestamp", "text", "citations", "spoken_text", "origin_epoch"]

/-- `validResult`. -/
def validResult (engine : Engine) (v : Json) : Bool :=
  hasExactKeys v groundedResultKeys && isName (v.get? "result_id") && isName (v.get? "worker_id") &&
    isName (v.get? "turn_id") && validTimestamp engine (v.get? "timestamp") && isLegible (v.get? "text") &&
    isLegible (v.get? "spoken_text") && isListOf (validCitation engine) (v.get? "citations") &&
    validOrigin (v.get? "origin_epoch")

/-- `deliveryStates`. -/
def deliveryStates : List String :=
  ["displayed", "queued", "started", "synthesis_ended", "delivery_completed", "delivery_unknown", "interrupted",
    "interrupted_by_reconnect", "paused", "resumed"]

/-- `validSpeech`. -/
def validSpeech (v : Json) : Bool :=
  v.truthy && onlyKeys v ["result_id", "work_item_id", "run_id", "utterance_id", "state", "origin_epoch"] &&
    v.isObject && isString (v.get? "result_id") && isString (v.get? "work_item_id") && isString (v.get? "run_id") &&
    isString (v.get? "utterance_id") && isOneOf (v.get? "state") deliveryStates && v.hasOwn "origin_epoch" &&
    validOrigin (v.get? "origin_epoch")

/-- `validRouting`. -/
def validRouting (v : Json) : Bool :=
  v.truthy && v.isObject &&
    onlyKeys v ["turn_id", "action", "worker_id", "worker_type", "topic", "model_policy", "origin_epoch"] &&
    isString (v.get? "turn_id") &&
    isOneOf (v.get? "action") ["direct", "unsupported", "clarify", "existing_worker", "new_worker"] &&
    isOptionalString (v.get? "worker_id") && isOptionalString (v.get? "worker_type") &&
    isOptionalString (v.get? "topic") && isOptionalString (v.get? "model_policy") && v.hasOwn "origin_epoch" &&
    validOrigin (v.get? "origin_epoch")

/-- `validTranscript`. -/
def validTranscript (engine : Engine) (v : Json) : Bool :=
  v.truthy && v.isObject && onlyKeys v ["role", "text", "turn_id", "timestamp", "origin_epoch"] &&
    isOneOf (v.get? "role") ["user", "assistant"] && isString (v.get? "text") && isString (v.get? "turn_id") &&
    validTimestamp engine (v.get? "timestamp") && v.hasOwn "origin_epoch" && validOrigin (v.get? "origin_epoch")

/-- The properties of `work-status.json`. -/
def workStatusKeys : List String :=
  ["turn_id", "work_item_id", "worker_id", "state", "event_sequence", "terminal_reason", "origin_epoch"]

/-- `workStatusStates`. -/
def workStatusStates : List String := ["routing", "searching", "background", "result_ready", "failed", "cancelled"]

/-- `validWorkStatus`. -/
def validWorkStatus (v : Json) : Bool :=
  hasExactKeys v workStatusKeys && isName (v.get? "turn_id") && isOptionalString (v.get? "work_item_id") &&
    isOptionalString (v.get? "worker_id") && isOneOf (v.get? "state") workStatusStates &&
    isCount (v.get? "event_sequence") &&
    (isNull (v.get? "terminal_reason") || isOneOf (v.get? "terminal_reason") ["missing_worker", "retention_rejected"]) &&
    (isNull (v.get? "terminal_reason") || isOneOf (v.get? "state") ["failed"]) && validOrigin (v.get? "origin_epoch")

/-- The properties of `runtime-snapshot.json`, less the optional one. -/
def runtimeSnapshotKeys : List String :=
  ["contract_version", "session_id", "snapshot_sequence", "workers", "results", "speech_progress", "routing", "transcript",
    "origin_epoch"]

/-- What `validateServerMessage` asks of a snapshot. -/
def validSnapshot (engine : Engine) (message data : Json) : Bool :=
  hasExactKeys data runtimeSnapshotKeys ["work_status"] &&
    (!data.hasOwn "work_status" || isListOf validWorkStatus (data.get? "work_status")) &&
    isName (data.get? "session_id") && identical (message.get? "session_id") (data.get? "session_id") &&
    isOneOf (data.get? "contract_version") [contractVersion] && validOrigin (data.get? "origin_epoch") &&
    isCount (data.get? "snapshot_sequence") && identical (message.get? "sequence") (data.get? "snapshot_sequence") &&
    isListOf validWorker (data.get? "workers") && isListOf (validResult engine) (data.get? "results") &&
    isListOf validSpeech (data.get? "speech_progress") &&
    (isNull (data.get? "routing") || (data.get? "routing").any validRouting) &&
    isListOf (validTranscript engine) (data.get? "transcript")

/-- What `validateServerMessage` asks of a payload, kind by kind. -/
def validData (engine : Engine) (message data : Json) (kind : String) : Bool :=
  match kind with
  | "result" => validResult engine data
  | "speech_progress" => validSpeech data
  | "worker" => validWorker data
  | "routing" => validRouting data
  | "work_status" => validWorkStatus data
  | "user_transcript" => validTranscript engine data && isOneOf (data.get? "role") ["user"]
  | "bot_transcript" => validTranscript engine data && isOneOf (data.get? "role") ["assistant"]
  | "runtime_snapshot" => validSnapshot engine message data
  | _ => false

/-- `validateServerMessage`. -/
def validateServerMessage (engine : Engine) (message : Json) : Bool :=
  message.truthy && message.isObject && isString (message.get? "kind") &&
    onlyKeys message ["contract_version", "session_id", "sequence", "kind", "data", "origin_epoch"] &&
    isName (message.get? "session_id") && isOneOf (message.get? "contract_version") [contractVersion] &&
    isCount (message.get? "sequence") && isCount (message.get? "origin_epoch") &&
    (message.get? "data").any fun data =>
      data.truthy && data.isObject && identical (data.get? "origin_epoch") (message.get? "origin_epoch") &&
        ((message.get? "kind").bind asStr).any (validData engine message data) &&
        ["raw_logs", "prompt", "context"].all (!data.hasOwn ·)

/-! ## Timestamps -/

@[simp] theorem literal_cons (c : Char) (cs : List Char) : literal c (c :: cs) = some cs := if_pos rfl

theorem dropWhile_isDigit_pad (n k : ℕ) {c : Char} (hc : c.isDigit = false) (rest : List Char) :
    (Text.pad n k ++ c :: rest).dropWhile Char.isDigit = c :: rest := by
  rw [List.dropWhile_append_of_pos (Text.pad_all_isDigit n k), List.dropWhile_cons_of_neg (by rw [hc]; decide)]

/-- The fraction of a second is skipped, if there is one. -/
theorem skipFraction_fraction (microsecond : ℕ) {c : Char} (hc : c.isDigit = false) (hdot : c ≠ '.') (rest : List Char) :
    skipFraction ((if microsecond = 0 then [] else '.' :: Text.pad 6 microsecond) ++ c :: rest) = c :: rest := by
  split_ifs with hzero
  · rw [List.nil_append]
    unfold skipFraction
    split
    · rename_i heq
      exact absurd (List.cons.inj heq).1 hdot
    · rfl
  · have hpad : Text.pad 6 microsecond = Nat.digitChar (microsecond / 10 ^ 5 % 10) :: Text.pad 5 microsecond := rfl
    obtain ⟨hdigit, -⟩ := Text.isDigit_digitChar (Nat.mod_lt (microsecond / 10 ^ 5) (by decide))
    rw [hpad, List.cons_append, List.cons_append, skipFraction, if_pos hdigit, dropWhile_isDigit_pad 5 microsecond hc]

theorem matchOffset_utc : matchOffset ('+' :: (Text.pad 2 0 ++ ':' :: Text.pad 2 0)) = some (0, 0) := by decide

/-- **`isoformat` matches the browser's pattern**, part by part. -/
theorem matchTimestamp_chars (t : UtcTime) :
    matchTimestamp t.chars = some ⟨t.year, t.month, t.day, t.hour, t.minute, t.second, 0, 0⟩ := by
  obtain ⟨-, hyear⟩ := t.year_mem
  obtain ⟨-, hmonth⟩ := t.month_mem
  obtain ⟨hhour, hminute, hsecond, -⟩ := t.clock
  have hday : t.day ≤ 31 := by
    refine t.day_mem.2.trans ?_
    rw [daysInMonth]
    split_ifs <;> decide
  have hsmall : ∀ k, k ≤ 59 → 0 * 10 ^ 2 + k % 10 ^ 2 = k := by omega
  have hlarge : 0 * 10 ^ 4 + t.year % 10 ^ 4 = t.year := by omega
  rw [matchTimestamp, UtcTime.chars]
  simp only [Text.readDigits_pad, literal_cons, Option.bind_eq_bind, Option.bind_some, hlarge,
    hsmall t.month (by omega), hsmall t.day (by omega), hsmall t.hour (by omega), hsmall t.minute hminute,
    hsmall t.second hsecond]
  rw [skipFraction_fraction t.microsecond (by decide) (by decide), matchOffset_utc]
  rfl

/-- The browser counts the days of a month as the calendar does, also in the first century. -/
theorem utcDaysInMonth_eq {year month : ℕ} (hyear : 1 ≤ year) (hmonth : 1 ≤ month ∧ month ≤ 12) :
    utcDaysInMonth year month = daysInMonth year month := by
  rw [utcDaysInMonth, if_pos hmonth, daysInMonth, daysInMonth]
  split_ifs <;> first | rfl | omega

/-- **A timestamp of the server is valid.** -/
theorem validTimestamp_utcTimestamp {engine : Engine} (t : UtcTime) (hdate : engine.parsesDate t.utcTimestamp = true) :
    validTimestamp engine (some (.str t.utcTimestamp)) = true := by
  rw [validTimestamp]
  simp only [Option.bind_some, asStr, Option.any_some]
  rw [show t.utcTimestamp.toList = t.chars from String.toList_ofList, matchTimestamp_chars]
  obtain ⟨hhour, hminute, hsecond, -⟩ := t.clock
  have hday : t.day ≤ utcDaysInMonth t.year t.month :=
    (utcDaysInMonth_eq t.year_mem.1 t.month_mem).symm ▸ t.day_mem.2
  simp [t.year_mem.1, t.day_mem.1, hday, hhour, hminute, hsecond, hdate]

/-! ## Records -/

variable {engine : Engine} {beyond : ℤ → Json}

/-- A whole number every script can hold. -/
def Safe (n : ℤ) : Prop := |n| ≤ maxSafeInteger

instance : DecidablePred Safe := fun n => inferInstanceAs (Decidable (|n| ≤ maxSafeInteger))

theorem arrives_of_safe {n : ℤ} (hn : Safe n) : arrives beyond n = .int n := if_pos hn

theorem isCount_arrives {n : ℤ} (hn : Safe n) (hpos : 0 ≤ n) : isCount (some (arrives beyond n)) = true := by
  rw [arrives_of_safe hn]
  simp [isCount, integer?, hpos]

theorem validOrigin_dumpEpoch {o : Option ℤ} (hsafe : ∀ n ∈ o, Safe n) (hpos : ∀ n ∈ o, 0 ≤ n) :
    validOrigin (some (dumpEpoch beyond o)) = true := by
  rcases o with _ | n
  · rfl
  · rw [validOrigin, dumpEpoch, Option.elim_some, isCount_arrives (hsafe n rfl) (hpos n rfl), Bool.or_true]

theorem validOrigin_dumpEpoch_nat {o : Option ℕ} (hsafe : ∀ n ∈ o.map (Nat.cast : ℕ → ℤ), Safe n) :
    validOrigin (some (dumpEpoch beyond (o.map Nat.cast))) = true := by
  refine validOrigin_dumpEpoch hsafe fun n hn => ?_
  obtain ⟨k, -, rfl⟩ := Option.map_eq_some_iff.mp hn
  exact Int.natCast_nonneg k

@[simp] theorem isOptionalString_dumpText (o : Option String) : isOptionalString (some (dumpText o)) = true := by
  cases o <;> rfl

theorem isOneOf_str (s : String) (options : List String) : isOneOf (some (.str s)) options = decide (s ∈ options) := rfl

theorem validWorker_modelDump (w : WorkerState) (hsafe : ∀ n ∈ w.originEpoch.map (Nat.cast : ℕ → ℤ), Safe n) :
    validWorker (w.modelDump beyond) = true := by
  have horigin : validOrigin (some (dumpEpoch beyond (w.originEpoch.map Nat.cast))) = true := validOrigin_dumpEpoch_nat hsafe
  simp [validWorker, WorkerState.modelDump, onlyKeys, ownKeys, hasOwn, get?_obj, Dict.find, truthy, isObject, isString, asStr,
    horigin]

theorem validRouting_modelDump (r : RoutingState) (hsafe : ∀ n ∈ r.originEpoch.map (Nat.cast : ℕ → ℤ), Safe n) :
    validRouting (r.modelDump beyond) = true := by
  have horigin : validOrigin (some (dumpEpoch beyond (r.originEpoch.map Nat.cast))) = true := validOrigin_dumpEpoch_nat hsafe
  have haction : r.action.name ∈ ["direct", "unsupported", "clarify", "existing_worker", "new_worker"] := by
    cases r.action <;> decide
  simp [validRouting, RoutingState.modelDump, onlyKeys, ownKeys, hasOwn, get?_obj, Dict.find, truthy, isObject, isString, asStr,
    isOneOf_str, horigin, -List.mem_cons, haction]

theorem validSpeech_modelDump (p : SpeechProgress) (hsafe : ∀ n ∈ p.originEpoch.map (Nat.cast : ℕ → ℤ), Safe n) :
    validSpeech (p.modelDump beyond) = true := by
  have horigin : validOrigin (some (dumpEpoch beyond (p.originEpoch.map Nat.cast))) = true := validOrigin_dumpEpoch_nat hsafe
  have hstate : p.state.name ∈ deliveryStates := by cases p.state <;> decide
  simp [validSpeech, SpeechProgress.modelDump, onlyKeys, ownKeys, hasOwn, get?_obj, Dict.find, truthy, isObject, isString, asStr,
    isOneOf_str, horigin, hstate]

theorem validTranscript_modelDump (t : TranscriptEntry) (hsafe : ∀ n ∈ t.originEpoch.map (Nat.cast : ℕ → ℤ), Safe n)
    (htime : validTimestamp engine (some (.str t.timestamp)) = true) : validTranscript engine (t.modelDump beyond) = true := by
  have horigin : validOrigin (some (dumpEpoch beyond (t.originEpoch.map Nat.cast))) = true := validOrigin_dumpEpoch_nat hsafe
  have hrole : t.role.name ∈ ["user", "assistant"] := by cases t.role <;> decide
  simp [validTranscript, TranscriptEntry.modelDump, onlyKeys, ownKeys, hasOwn, get?_obj, Dict.find, truthy, isObject, isString,
    asStr, isOneOf_str, horigin, htime, -List.mem_cons, hrole]

theorem validWorkStatus_dump (w : WorkStatus) (hsafe : ∀ n ∈ (w.eventSequence : ℤ) :: w.originEpoch.toList, Safe n) :
    validWorkStatus (dumpWorkStatus beyond w) = true := by
  have horigin : validOrigin (some (dumpEpoch beyond w.originEpoch)) = true :=
    validOrigin_dumpEpoch (fun n hn => hsafe n (List.mem_cons_of_mem _ (Option.mem_toList.mpr hn))) w.originEpoch_nonneg
  have hcount : isCount (some (arrives beyond w.eventSequence)) = true :=
    isCount_arrives (hsafe _ List.mem_cons_self) (Int.natCast_nonneg _)
  have hstate : isOneOf (some (.str w.state.name)) workStatusStates = true := by cases w.state <;> decide
  have hreason : (isNull (some (dumpText (w.terminalReason.map TerminalReason.name))) ||
      isOneOf (some (dumpText (w.terminalReason.map TerminalReason.name))) ["missing_worker", "retention_rejected"]) = true := by
    rcases w.terminalReason with _ | reason
    · rfl
    · cases reason <;> rfl
  have hfailed : (isNull (some (dumpText (w.terminalReason.map TerminalReason.name))) ||
      isOneOf (some (.str w.state.name)) ["failed"]) = true := by
    rcases hterminal : w.terminalReason with _ | reason
    · rfl
    · rw [w.failed_of_reason (by rw [hterminal]; rfl)]
      exact Bool.or_true _
  simp [validWorkStatus, dumpWorkStatus, hasExactKeys, workStatusKeys, onlyKeys, ownKeys, hasOwn, get?_obj, Dict.find, truthy,
    isObject, isArray, isName, asStr, w.turnId_ne, horigin, hcount, hstate, hreason, hfailed]

/-! ## Blank texts -/

/-- **A text both sides can read**: a character that is neither a byte order mark nor white space, or one of
the control characters that only the server takes for white space. -/
def Legible (s : String) : Prop :=
  ∃ c ∈ s.toList, c.toNat ≠ 0xFEFF ∧ (Text.isSpace c = true → Text.isSeparator c = true)

instance : DecidablePred Legible := fun s => inferInstanceAs (Decidable (∃ c ∈ s.toList, _))

theorem trim_ne_empty_iff (s : String) : Text.trim s ≠ "" ↔ Legible s := by
  have hblank : Text.trim s = "" ↔ ∀ c ∈ s.toList, Text.isTrimmed c = true := by
    rw [← Text.dropWhile_rdropWhile_eq_nil_iff, ← String.toList_inj, Text.trim, String.toList_ofList, String.toList_empty]
  rw [ne_eq, hblank, Legible]
  push Not
  refine exists_congr fun c => and_congr_right fun _ => ?_
  rw [ne_eq, Text.isTrimmed_iff, not_or, not_and, Bool.not_eq_false]

/-- Both projections of a result can be read. -/
def GroundedResult.Legible (r : GroundedResult) : Prop := Session.Legible r.text ∧ Session.Legible r.spokenText

instance : DecidablePred GroundedResult.Legible := fun r =>
  inferInstanceAs (Decidable (Session.Legible r.text ∧ Session.Legible r.spokenText))

/-- What a URL parser is documented to say of a URL that starts with one of the two schemes and parses. -/
structure Engine.ReadsSchemes (engine : Engine) : Prop where
  http : ∀ url, "http://".toList <+: url.toList → ∀ protocol ∈ engine.protocol? url, protocol = "http:"
  https : ∀ url, "https://".toList <+: url.toList → ∀ protocol ∈ engine.protocol? url, protocol = "https:"

theorem validCitation_modelDump (hreads : engine.ReadsSchemes) (c : Citation) (hmatch : c.matches = true)
    (hurl : (engine.protocol? c.url).isSome = true) : validCitation engine c.modelDump = true := by
  obtain ⟨protocol, hprotocol⟩ := Option.isSome_iff_exists.mp hurl
  have hscheme : protocol = "http:" ∨ protocol = "https:" := by
    rw [Citation.matches, List.any_eq_true] at hmatch
    obtain ⟨scheme, hscheme, hmatches⟩ := hmatch
    have hprefix : scheme.toList <+: c.url.toList := by
      rw [Bool.and_eq_true, Bool.and_eq_true, List.isPrefixOf_iff_prefix] at hmatches
      exact hmatches.1.1
    simp only [List.mem_cons, List.not_mem_nil, or_false] at hscheme
    rcases hscheme with rfl | rfl
    · exact Or.inl (hreads.http c.url hprefix protocol hprotocol)
    · exact Or.inr (hreads.https c.url hprefix protocol hprotocol)
  simp [validCitation, Citation.modelDump, onlyKeys, ownKeys, get?_obj, Dict.find, truthy, isObject, isString, asStr, hprotocol,
    hscheme]

/-- **The browser lets a result in if it can read it.** -/
theorem validResult_modelDump (hreads : engine.ReadsSchemes) (r : GroundedResult)
    (hsafe : ∀ n ∈ r.originEpoch.map (Nat.cast : ℕ → ℤ), Safe n)
    (htime : validTimestamp engine (some (.str r.timestamp)) = true) (hmatch : ∀ c ∈ r.citations, c.matches = true)
    (hurls : ∀ c ∈ r.citations, (engine.protocol? c.url).isSome = true) :
    validResult engine (r.modelDump beyond) = decide r.Legible := by
  have horigin : validOrigin (some (dumpEpoch beyond (r.originEpoch.map Nat.cast))) = true := validOrigin_dumpEpoch_nat hsafe
  obtain ⟨hresult, hworker, hturn, -⟩ := r.identified
  have hcitations : isListOf (validCitation engine) (some (.arr (r.citations.map Citation.modelDump))) = true := by
    rw [isListOf, items, List.all_map, Bool.and_eq_true]
    exact ⟨rfl, List.all_eq_true.mpr fun c hc => validCitation_modelDump hreads c (hmatch c hc) (hurls c hc)⟩
  have hlegible : ∀ s : String, isLegible (some (.str s)) = decide (Session.Legible s) := fun s =>
    decide_eq_decide.mpr (trim_ne_empty_iff s)
  have hboth : decide r.Legible = (decide (Session.Legible r.text) && decide (Session.Legible r.spokenText)) :=
    Bool.decide_and _ _
  simp [validResult, GroundedResult.modelDump, hasExactKeys, groundedResultKeys, onlyKeys, ownKeys, hasOwn, get?_obj, Dict.find,
    truthy, isObject, isArray, isName, asStr, hresult, hworker, hturn, htime, hcitations, horigin, hlegible,
    hboth]

/-! ## Envelopes -/

theorem isListOf_map {α : Type*} {p : Json → Bool} {dump : α → Json} {q : α → Bool} {xs : List α}
    (hp : ∀ x ∈ xs, p (dump x) = q x) : isListOf p (some (.arr (xs.map dump))) = xs.all q := by
  have hitems : isListOf p (some (.arr (xs.map dump))) = (xs.map dump).all p := rfl
  rw [hitems, List.all_map, Bool.eq_iff_iff, List.all_eq_true, List.all_eq_true]
  exact forall₂_congr fun x hx => by rw [← hp x hx, Function.comp_apply]

theorem isListOf_map_true {α : Type*} {p : Json → Bool} {dump : α → Json} {xs : List α}
    (hp : ∀ x ∈ xs, p (dump x) = true) : isListOf p (some (.arr (xs.map dump))) = true := by
  have hall := isListOf_map (q := fun _ => true) hp
  rw [hall, List.all_eq_true]
  exact fun _ _ => rfl

/-- An envelope whose numbers are safe, whose timestamps come from `utc_timestamp` and whose URLs parse. -/
structure RTVIMessage.Ordinary (m : RTVIMessage) (engine : Engine) : Prop where
  safe : ∀ n ∈ m.integers, Safe n
  stamped : (∀ r ∈ m.body.results, ∃ t : UtcTime, r.timestamp = t.utcTimestamp) ∧
    ∀ entry ∈ m.body.transcript, ∃ t : UtcTime, entry.timestamp = t.utcTimestamp
  parses : ∀ r ∈ m.body.results, ∀ c ∈ r.citations, (engine.protocol? c.url).isSome = true

/-- What the browser's engine is documented to do. -/
structure Engine.Documented (engine : Engine) : Prop where
  schemes : engine.ReadsSchemes
  dates : ∀ t : UtcTime, engine.parsesDate t.utcTimestamp = true

theorem identical_arrives {n : ℤ} (hn : Safe n) : identical (some (arrives beyond n)) (some (arrives beyond n)) = true := by
  rw [arrives_of_safe hn]
  simp [identical]

theorem get?_originEpoch_wirePayload (b : Body) (includeWorkStatus : Bool) :
    (b.wirePayload beyond includeWorkStatus).get? "origin_epoch" = some (dumpEpoch beyond b.originEpoch) := by
  rcases b with s | p
  · rfl
  · cases p <;> rfl

theorem validResult_of_ordinary (hd : engine.Documented) {m : RTVIMessage} (ho : m.Ordinary engine) {r : GroundedResult}
    (hr : r ∈ m.body.results) (hsafe : ∀ n ∈ r.originEpoch.map (Nat.cast : ℕ → ℤ), Safe n) :
    validResult engine (r.modelDump beyond) = decide r.Legible := by
  obtain ⟨t, ht⟩ := ho.stamped.1 r hr
  exact validResult_modelDump hd.schemes r hsafe (ht ▸ validTimestamp_utcTimestamp t (hd.dates t)) (m.citations_match r hr)
    (ho.parses r hr)

theorem validTranscript_of_ordinary (hd : engine.Documented) {m : RTVIMessage} (ho : m.Ordinary engine)
    {entry : TranscriptEntry} (hentry : entry ∈ m.body.transcript)
    (hsafe : ∀ n ∈ entry.originEpoch.map (Nat.cast : ℕ → ℤ), Safe n) :
    validTranscript engine (entry.modelDump beyond) = true := by
  obtain ⟨t, ht⟩ := ho.stamped.2 entry hentry
  exact validTranscript_modelDump entry hsafe (ht ▸ validTimestamp_utcTimestamp t (hd.dates t))

/-- **The browser lets a snapshot in if it can read all its results.** -/
theorem validSnapshot_wirePayload (hd : engine.Documented) {m : RTVIMessage} (ho : m.Ordinary engine) {s : RuntimeSnapshot}
    (hbody : m.body = .snapshot s) {message : Json} (hsession : message.get? "session_id" = some (.str m.sessionId))
    (hsequence : message.get? "sequence" = some (arrives beyond m.sequence)) (includeWorkStatus : Bool) :
    validSnapshot engine message (s.wirePayload beyond includeWorkStatus) = s.results.all fun r => decide r.Legible := by
  obtain ⟨hsid, hseq⟩ := m.snapshot_eq s hbody
  have hsafe : ∀ n ∈ (Body.snapshot s).integers, Safe n := fun n hn =>
    ho.safe n (List.mem_cons_of_mem _ (List.mem_cons_of_mem _ (hbody ▸ hn)))
  rw [Body.integers] at hsafe
  simp only [List.forall_mem_append] at hsafe
  obtain ⟨⟨⟨⟨⟨hsafeWorkers, hsafeResults⟩, hsafeSpeech⟩, hsafeRouting⟩, hsafeTranscript⟩, hsafeStatuses⟩ := hsafe
  have hsafeSequence : Safe s.snapshotSequence := ho.safe s.snapshotSequence (hseq ▸ List.mem_cons_self)
  have hsafeEpoch : ∀ n ∈ s.originEpoch.map (Nat.cast : ℕ → ℤ), Safe n := by
    intro n hn
    have hepoch := m.epoch_eq
    rw [hbody, Body.originEpoch] at hepoch
    rw [hepoch] at hn
    cases hn
    exact ho.safe _ (List.mem_cons_of_mem _ List.mem_cons_self)
  have horigin : validOrigin (some (dumpEpoch beyond (s.originEpoch.map Nat.cast))) = true :=
    validOrigin_dumpEpoch_nat hsafeEpoch
  have hcount : isCount (some (arrives beyond s.snapshotSequence)) = true :=
    isCount_arrives hsafeSequence (Int.natCast_nonneg _)
  have hsame : identical (message.get? "sequence") (some (arrives beyond s.snapshotSequence)) = true := by
    rw [hsequence, ← hseq]
    exact identical_arrives hsafeSequence
  have hsessions : identical (message.get? "session_id") (some (.str s.sessionId)) = true := by
    rw [hsession, hsid]
    simp [identical]
  have hname : s.sessionId ≠ "" := hsid ▸ m.sessionId_ne
  have hworkers : isListOf validWorker (some (.arr (s.workers.map (WorkerState.modelDump beyond)))) = true :=
    isListOf_map_true fun w hw => validWorker_modelDump w fun n hn =>
      hsafeWorkers n (List.mem_flatMap.mpr ⟨w, hw, Option.mem_toList.mpr hn⟩)
  have hspeech : isListOf validSpeech (some (.arr (s.speechProgress.map (SpeechProgress.modelDump beyond)))) = true :=
    isListOf_map_true fun p hp => validSpeech_modelDump p fun n hn =>
      hsafeSpeech n (List.mem_flatMap.mpr ⟨p, hp, Option.mem_toList.mpr hn⟩)
  have hstatuses : isListOf validWorkStatus (some (.arr (s.workStatus.map (dumpWorkStatus beyond)))) = true :=
    isListOf_map_true fun w hw => validWorkStatus_dump w fun n hn => hsafeStatuses n (List.mem_flatMap.mpr ⟨w, hw, hn⟩)
  have htranscript : isListOf (validTranscript engine) (some (.arr (s.transcript.map (TranscriptEntry.modelDump beyond))))
      = true :=
    isListOf_map_true fun t ht => validTranscript_of_ordinary hd ho (hbody ▸ ht) fun n hn =>
      hsafeTranscript n (List.mem_flatMap.mpr ⟨t, ht, Option.mem_toList.mpr hn⟩)
  have hrouting : (isNull (some (s.routing.elim .null (RoutingState.modelDump beyond))) ||
      validRouting (s.routing.elim .null (RoutingState.modelDump beyond))) = true := by
    rcases hr : s.routing with _ | r
    · rfl
    · have hvalid : validRouting (r.modelDump beyond) = true := validRouting_modelDump r fun n hn =>
        hsafeRouting n (List.mem_flatMap.mpr ⟨r, Option.mem_toList.mpr hr, Option.mem_toList.mpr hn⟩)
      rw [Option.elim_some, hvalid, Bool.or_true]
  have hresults : isListOf (validResult engine) (some (.arr (s.results.map (GroundedResult.modelDump beyond))))
      = s.results.all fun r => decide r.Legible :=
    isListOf_map fun r hr => validResult_of_ordinary hd ho (hbody ▸ hr) fun n hn =>
      hsafeResults n (List.mem_flatMap.mpr ⟨r, hr, Option.mem_toList.mpr hn⟩)
  cases includeWorkStatus <;>
  simp [validSnapshot, RuntimeSnapshot.wirePayload, hasExactKeys, runtimeSnapshotKeys, onlyKeys, ownKeys, hasOwn, get?_obj,
    Dict.find, truthy, isObject, isArray, isName, asStr, isOneOf_str, hname, horigin, hcount, hsame, hsessions, hworkers,
    hspeech, htranscript, hrouting, hresults, hstatuses]

variable (beyond) in
/-- What the browser asks of a payload, whatever its kind. -/
theorem validData_wirePayload (hd : engine.Documented) {m : RTVIMessage} (ho : m.Ordinary engine) (includeWorkStatus : Bool) :
    validData engine (m.wirePayload beyond includeWorkStatus) (m.body.wirePayload beyond includeWorkStatus) m.body.kind
      = m.body.results.all fun r => decide r.Legible := by
  have hsafe : ∀ n ∈ m.body.integers, Safe n := fun n hn =>
    ho.safe n (List.mem_cons_of_mem _ (List.mem_cons_of_mem _ hn))
  have hepoch : ∀ p, m.body = .event p → (∀ n ∈ p.originEpoch, Safe n) := by
    intro p hp n hn
    have heq := m.epoch_eq
    rw [hp, Body.originEpoch] at heq
    rw [heq] at hn
    cases hn
    exact ho.safe _ (List.mem_cons_of_mem _ List.mem_cons_self)
  rcases hbody : m.body with s | p
  · exact validSnapshot_wirePayload hd ho hbody rfl rfl includeWorkStatus
  · have hp := hepoch p hbody
    cases p with
    | worker w => exact validWorker_modelDump w hp
    | routing r => exact validRouting_modelDump r hp
    | transcript t =>
      have hvalid : validTranscript engine (t.modelDump beyond) = true :=
        validTranscript_of_ordinary hd ho (by rw [hbody]; exact List.mem_singleton_self t) hp
      rcases hrole : t.role with _ | _
      all_goals
        simp [validData, Body.kind, Body.wirePayload, Body.results, hrole, hvalid]
        simp [TranscriptEntry.modelDump, get?_obj, Dict.find, isOneOf_str, hrole, TranscriptRole.name]
    | result r =>
      have hvalid : validResult engine (r.modelDump beyond) = decide r.Legible :=
        validResult_of_ordinary hd ho (by rw [hbody]; exact List.mem_singleton_self r) hp
      exact hvalid.trans (Bool.and_true _).symm
    | speechProgress p => exact validSpeech_modelDump p hp
    | workStatus w => exact validWorkStatus_dump w (by rw [hbody] at hsafe; exact hsafe)

variable (beyond) in
theorem wirePayload_closed (b : Body) (includeWorkStatus : Bool) :
    (b.wirePayload beyond includeWorkStatus).truthy = true ∧ (b.wirePayload beyond includeWorkStatus).isObject = true ∧
      ["raw_logs", "prompt", "context"].all (!(b.wirePayload beyond includeWorkStatus).hasOwn ·) = true := by
  rcases b with s | p
  · cases includeWorkStatus <;> exact ⟨rfl, rfl, rfl⟩
  · cases p <;> exact ⟨rfl, rfl, rfl⟩

/-- **The browser drops exactly what it cannot read**: it lets an envelope of the server in if and only if
neither text of any result in it is made of byte order marks and white space alone. -/
theorem validateServerMessage_wirePayload_iff (hd : engine.Documented) {m : RTVIMessage} (ho : m.Ordinary engine)
    (includeWorkStatus : Bool) :
    validateServerMessage engine (m.wirePayload beyond includeWorkStatus) = true ↔ ∀ r ∈ m.body.results, r.Legible := by
  have hsafeSequence : Safe m.sequence := ho.safe _ List.mem_cons_self
  have hsafeEpoch : Safe m.originEpoch := ho.safe _ (List.mem_cons_of_mem _ List.mem_cons_self)
  have hsequence : isCount (some (arrives beyond m.sequence)) = true := isCount_arrives hsafeSequence (Int.natCast_nonneg _)
  have hepoch : isCount (some (arrives beyond m.originEpoch)) = true := isCount_arrives hsafeEpoch (Int.natCast_nonneg _)
  have hsame : identical ((m.body.wirePayload beyond includeWorkStatus).get? "origin_epoch")
      (some (arrives beyond m.originEpoch)) = true := by
    rw [get?_originEpoch_wirePayload, m.epoch_eq]
    exact identical_arrives hsafeEpoch
  obtain ⟨htruthy, hobject, hclosed⟩ := wirePayload_closed beyond m.body includeWorkStatus
  have hdata := validData_wirePayload beyond hd ho includeWorkStatus
  have hall : (∀ r ∈ m.body.results, r.Legible) ↔ (m.body.results.all fun r => decide r.Legible) = true := by
    rw [List.all_eq_true]
    exact forall₂_congr fun r _ => decide_eq_true_iff.symm
  rw [hall, ← hdata, ← Bool.eq_iff_iff]
  set message := m.wirePayload beyond includeWorkStatus
  set data := m.body.wirePayload beyond includeWorkStatus
  have hkind : message.get? "kind" = some (.str m.body.kind) := rfl
  have hget : message.get? "data" = some data := rfl
  have hgetSequence : message.get? "sequence" = some (arrives beyond m.sequence) := rfl
  have hgetEpoch : message.get? "origin_epoch" = some (arrives beyond m.originEpoch) := rfl
  have hname : isName (message.get? "session_id") = true := decide_eq_true m.sessionId_ne
  have hversion : isOneOf (message.get? "contract_version") [contractVersion] = true := rfl
  have hkeys : onlyKeys message ["contract_version", "session_id", "sequence", "kind", "data", "origin_epoch"] = true := rfl
  have hshape : message.truthy = true ∧ message.isObject = true := ⟨rfl, rfl⟩
  clear_value message
  simp only [validateServerMessage, hshape, hkeys, hname, hversion, hkind, hget, hgetSequence, hgetEpoch, hsequence, hepoch,
    hsame, htruthy, hobject, hclosed, isString, asStr, Option.bind_some, Option.isSome_some, Option.any_some, Bool.true_and,
    Bool.and_true]

/-- An engine that parses what matches the pattern, and reads the two schemes. -/
def plainEngine : Engine where
  parsesDate s := (matchTimestamp s.toList).isSome
  protocol? url :=
    if "http://".toList.isPrefixOf url.toList then some "http:"
    else if "https://".toList.isPrefixOf url.toList then some "https:"
    else none

theorem plainEngine_documented : plainEngine.Documented where
  schemes := by
    refine ⟨fun url hprefix protocol hprotocol => ?_, fun url hprefix protocol hprotocol => ?_⟩
    · rw [plainEngine] at hprotocol
      dsimp only at hprotocol
      rw [if_pos (List.isPrefixOf_iff_prefix.mpr hprefix)] at hprotocol
      exact (Option.some.inj hprotocol).symm
    · have hother : ¬("http://".toList.isPrefixOf url.toList = true) := by
        obtain ⟨rest, hrest⟩ := hprefix
        rw [← hrest]
        exact Bool.false_ne_true
      rw [plainEngine] at hprotocol
      dsimp only at hprotocol
      rw [if_neg hother, if_pos (List.isPrefixOf_iff_prefix.mpr hprefix)] at hprotocol
      exact (Option.some.inj hprotocol).symm
  dates t := by
    rw [plainEngine]
    dsimp only
    rw [UtcTime.utcTimestamp, String.toList_ofList, matchTimestamp_chars]
    rfl

/-- Noon on the last day of February. -/
def leapNoon : UtcTime where
  year := 2028
  month := 2
  day := 29
  hour := 12
  minute := 0
  second := 0
  microsecond := 250000
  year_mem := by decide
  month_mem := by decide
  day_mem := by decide
  clock := by decide

/-- A page on the web. -/
def timetable : Citation := ⟨"Timetable", "https://example.com/a"⟩

/-- An envelope with one result that says `text`. -/
def resultMessage (text : String) (htext : Text.strip text ≠ "") : RTVIMessage where
  sessionId := "session"
  sequence := 7
  originEpoch := 1
  body := .event (.result
    { resultId := "r0", workerId := "flight_search", turnId := "turn-1", timestamp := leapNoon.utcTimestamp, text,
      citations := [timetable], spokenText := "Two flights.", originEpoch := some 1,
      identified := by decide +kernel, projected := ⟨htext, by decide⟩ })
  sessionId_ne := by decide
  epoch_eq := rfl
  snapshot_eq := nofun
  citations_match r hr c hc := by
    cases List.mem_singleton.mp hr
    cases List.mem_singleton.mp hc
    decide +kernel

theorem resultMessage_ordinary (text : String) (htext : Text.strip text ≠ "") :
    (resultMessage text htext).Ordinary plainEngine where
  safe n hn := by
    have hmem : n = 7 ∨ n = 1 ∨ n = 1 := by simpa [RTVIMessage.integers, resultMessage, Body.integers, Payload.originEpoch] using hn
    rcases hmem with rfl | rfl | rfl <;> decide
  stamped := ⟨fun r hr => ⟨leapNoon, by cases List.mem_singleton.mp hr; rfl⟩, nofun⟩
  parses r hr c hc := by
    cases List.mem_singleton.mp hr
    cases List.mem_singleton.mp hc
    decide +kernel

/-- A result the browser can read is let in. -/
theorem validateServerMessage_two_flights :
    validateServerMessage plainEngine ((resultMessage "Two flights." (by decide)).wirePayload (fun _ => .null) true) = true :=
  (validateServerMessage_wirePayload_iff plainEngine_documented (resultMessage_ordinary "Two flights." (by decide)) true).mpr
    fun r hr => by
      cases List.mem_singleton.mp hr
      exact ⟨⟨'T', by decide⟩, ⟨'T', by decide⟩⟩

/-- **A result that is one byte order mark is sent and dropped.** -/
theorem byte_order_mark_dropped :
    plainEngine.Documented ∧ (resultMessage "\uFEFF" (by decide)).Ordinary plainEngine ∧
      validateServerMessage plainEngine ((resultMessage "\uFEFF" (by decide)).wirePayload (fun _ => .null) true) = false :=
  ⟨plainEngine_documented, resultMessage_ordinary "\uFEFF" (by decide), by decide +kernel⟩

end Session

end SubagentsLab

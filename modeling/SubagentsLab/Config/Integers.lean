import SubagentsLab.Config.Precedence

/-!
# Config/Integers — how integer settings are used

An integer setting is used as the integer its value denotes, or `load_config` raises `ConfigError`
(`IntegersExact`).  This fails for the two settings that `config.toml` can give a value of another type:
`max_citations` is truncated or read as a truth value, and infinity raises `OverflowError`; a port whose value
has no text raises `ValueError`.  It also fails for a file that cannot be read: of what `tomllib.load` raises,
only `TOMLDecodeError` is caught (`integers_exact_iff`).
-/

namespace SubagentsLab

open Machinery

namespace ServerConfig

/-- The integer a value denotes. -/
def Value.denoted : Value → Option ℤ
  | .str s => s.readInteger
  | .int n => some n
  | .float x => x.whole?
  | .bool _ | .compound _ => none

def workItemsKey : PyStr := .ofString "WEBSEARCH_MAX_WORK_ITEMS_PER_TURN"

def waitTimeoutKey : PyStr := .ofString "WEBSEARCH_MULTI_INTENT_WAIT_TIMEOUT_MS"

def citationsKey : PyStr := .ofString "WEBSEARCH_MAX_CITATIONS"

def bindPortKey : PyStr := .ofString "WEBSEARCH_BIND_PORT"

section

variable (rt : Runtime) (layers : List (ℤ × Mapping))

/-- Every integer setting that is set is the integer its value denotes. -/
structure ExactlyUsed (cfg : ServerConfig) : Prop where
  workItems : ∀ v, merged rt workItemsKey layers = some v → v.denoted = some cfg.maxWorkItemsPerTurn
  waitTimeout : ∀ v, merged rt waitTimeoutKey layers = some v → v.denoted = some cfg.multiIntentWaitTimeoutMs
  citations : ∀ v, merged rt citationsKey layers = some v → v.denoted = some cfg.maxCitations
  bindPort : ∀ v, merged rt bindPortKey layers = some v → v.denoted = some cfg.bindPort
  ttsPort : Selects rt (merged rt · layers) layers ttsEndpointMembers (some .hostPort) →
    ∀ v, merged rt ttsPortKey layers = some v → ∃ port digits host, v.denoted = some port ∧
      Numeral.intText port = some digits ∧ textOrNone rt (merged rt ttsHostKey layers) = .ok host ∧
      cfg.ttsEndpoint = some (.ofString "ws", host ++ .ofString ":" ++ digits.map CodePoint.ofChar)

/-- `load_config` returns a configuration that uses the integer settings as they are, or raises `ConfigError`. -/
def IntegersExact (inp : Inputs) : Prop :=
  (∃ cfg, loadConfig rt inp = .ok cfg ∧ ExactlyUsed rt layers cfg) ∨
    ∃ message, loadConfig rt inp = .error (.configError message)

/-- The other settings are valid: every step that reads no integer setting returns, every spelling of an
endpoint but the pair can be built where it is set, and with the packaged integers the checks pass. -/
structure OthersLoad (inp : Inputs) (values : Mapping) (credentials : Credentials) (services : Services)
    (policies : Policies) : Prop where
  loadsValues : loadValues rt inp = .ok (values, layers)
  loadsCredentials : loadCredentials rt values = .ok credentials
  loadsServices : loadServices rt values = .ok services
  loadsPolicies : loadPolicies rt values = .ok policies
  legible : ∀ family : Family, ∀ key ∈ familyKeys family.members, key ≠ ttsPortKey →
    Legible rt values.get? layers key
  builds : ∀ family : Family, ∀ m ∈ family.members, m.1 ≠ .hostPort → Complete rt values.get? m →
    ∃ endpoint, family.build rt (some m.1) values = .ok endpoint
  passes : ∀ c ∈ checks rt ⟨credentials, ⟨2, 10000, 12⟩, services, policies, ⟨none, none⟩, 7860⟩, c = .ok ()

def OthersValid (inp : Inputs) : Prop :=
  ∃ values credentials services policies, OthersLoad rt layers inp values credentials services policies

/-! ## When they are not -/

/-- `int` returns for the value, if there is one. -/
def Converts (x : Option Value) : Prop := ∀ v, x = some v → ∃ n, v.toInt = .ok n

/-- `int` returns such a number for the value, if there is one. -/
def ConvertsTo (p : ℤ → Prop) (x : Option Value) : Prop := ∀ v, x = some v → ∃ n, v.toInt = .ok n ∧ p n

/-- The value is `true`, or no whole number, and between the bounds of `max_citations` when it is truncated. -/
def Truncated (x : Option Value) : Prop :=
  x = some (.bool true) ∨ ∃ q : ℚ, x = some (.float (.finite q)) ∧ q.den ≠ 1 ∧ 1 < q ∧ q < 51

/-- A value whose text is read as a port. -/
def PortRead (value : Option Value) : Prop :=
  ∃ text n, textOrNone rt value = .ok text ∧ text.readInteger = some n ∧ 1 ≤ n ∧ n ≤ 65535

/-- The integer settings but `max_citations` are accepted. -/
structure OthersAccepted : Prop where
  workItems : ConvertsTo (· ∈ [2, 3, 4]) (merged rt workItemsKey layers)
  waitTimeout : ConvertsTo (0 < ·) (merged rt waitTimeoutKey layers)
  bindPort : ConvertsTo (fun n => 1 ≤ n ∧ n ≤ 65535) (merged rt bindPortKey layers)
  pair : ¬(HalfSet rt (merged rt · layers) ∧ PairHigher rt (merged rt · layers) layers)
  ttsPort : Selects rt (merged rt · layers) layers ttsEndpointMembers (some .hostPort) →
    PortRead rt (merged rt ttsPortKey layers)

/-- The layers that `load_config` misreads: `max_citations` is infinite, and the integers read before it
convert; or the port of text-to-speech has no text where it is looked at, and the integers read before it
convert; or `max_citations` is truncated, and everything else is accepted. -/
def Misread : Prop :=
  ((∃ negative, merged rt citationsKey layers = some (.float (.inf negative))) ∧
      Converts (merged rt workItemsKey layers) ∧ Converts (merged rt waitTimeoutKey layers)) ∨
    (¬Legible rt (merged rt · layers) layers ttsPortKey ∧ Converts (merged rt workItemsKey layers) ∧
      Converts (merged rt waitTimeoutKey layers) ∧ Converts (merged rt citationsKey layers) ∧
      Converts (merged rt bindPortKey layers)) ∨
    (Truncated (merged rt citationsKey layers) ∧ Legible rt (merged rt · layers) layers ttsPortKey ∧ OthersAccepted rt layers)

end

/-- A file that `load_config` comes to cannot be read, and that not for the TOML in it. -/
def Unreadable (inp : Inputs) : Prop :=
  (∃ failure, inp.configFile = .unreadable failure) ∨
    (∃ toml, tomlLayer inp.configFile = .ok toml) ∧ ∃ failure, inp.envFile = .unreadable failure

/-! ## Converting an integer -/

/-- What a setting is read as. -/
def ReadAs (x : Option Value) (default n : ℤ) : Prop := (x = none ∧ n = default) ∨ ∃ v, x = some v ∧ v.toInt = .ok n

theorem toInt_eq_error {v : Value} {failure : Failure} (h : v.toInt = .error failure) :
    failure = .valueError ∨ failure = .typeError ∨ failure = .overflowError ∧ ∃ negative, v = .float (.inf negative) := by
  cases v with
  | str s => exact .inl (orRaise_eq_error_iff.mp h).2.symm
  | int n => cases h
  | bool b => cases h
  | compound c => cases h; exact .inr (.inl rfl)
  | float x =>
    cases x with
    | finite x => cases h
    | negZero => cases h
    | nan => cases h; exact .inl rfl
    | inf negative => cases h; exact .inr (.inr ⟨rfl, negative, rfl⟩)

variable {values : Mapping}

/-- An integer setting converts, or it is refused, or it is infinite. -/
theorem readInteger_cases (values : Mapping) (name : String) :
    (∃ x, readInteger values name = .ok x ∧ Converts (values.get? (.ofString name)) ∧
        ∀ default, ReadAs (values.get? (.ofString name)) default (x.getD default)) ∨
      (∃ message, readInteger values name = .error (.configError message) ∧ ¬Converts (values.get? (.ofString name)) ∧
        ∀ negative, values.get? (.ofString name) ≠ some (.float (.inf negative))) ∨
      (readInteger values name = .error .overflowError ∧ ¬Converts (values.get? (.ofString name)) ∧
        ∃ negative, values.get? (.ofString name) = some (.float (.inf negative))) := by
  rw [readInteger]
  rcases values.get? (.ofString name) with _ | v
  · exact .inl ⟨none, rfl, fun v hv => (nomatch hv), fun default => .inl ⟨rfl, rfl⟩⟩
  · dsimp only
    rcases hint : v.toInt with failure | n
    · have hnot : ¬Converts (some v) := by
        intro hc
        obtain ⟨n, hn⟩ := hc v rfl
        rw [hint] at hn
        cases hn
      have hinf : ∀ negative, some v = some (.float (.inf negative)) → failure = .overflowError := by
        rintro negative ⟨⟩
        cases hint
        rfl
      rcases toInt_eq_error hint with rfl | rfl | ⟨rfl, negative, rfl⟩
      · exact .inr (.inl ⟨_, rfl, hnot, fun negative hc => (nomatch hinf negative hc)⟩)
      · exact .inr (.inl ⟨_, rfl, hnot, fun negative hc => (nomatch hinf negative hc)⟩)
      · exact .inr (.inr ⟨rfl, hnot, negative, rfl⟩)
    · refine .inl ⟨some n, rfl, fun v' hv' => ?_, fun default => .inr ⟨v, rfl, hint⟩⟩
      cases hv'
      exact ⟨n, hint⟩

/-- A setting that can only be a string is not infinite. -/
theorem ne_inf {x : Option Value} (h : ∀ v, x = some v → ∃ s, v = .str s) (negative : Bool) :
    x ≠ some (.float (.inf negative)) := by
  intro hc
  obtain ⟨s, hs⟩ := h _ hc
  cases hs

/-- The limits of a turn are read, or refused, or `max_citations` is infinite. -/
theorem loadLimits_cases (hwork : ∀ v, values.get? workItemsKey = some v → ∃ s, v = .str s)
    (hwait : ∀ v, values.get? waitTimeoutKey = some v → ∃ s, v = .str s) :
    (∃ limits, loadLimits values = .ok limits ∧ Converts (values.get? workItemsKey) ∧
        Converts (values.get? waitTimeoutKey) ∧ Converts (values.get? citationsKey) ∧
        ReadAs (values.get? workItemsKey) 2 limits.maxWorkItemsPerTurn ∧
        ReadAs (values.get? waitTimeoutKey) 10000 limits.multiIntentWaitTimeoutMs ∧
        ReadAs (values.get? citationsKey) 12 limits.maxCitations) ∨
      (∃ message, loadLimits values = .error (.configError message) ∧
        ¬(Converts (values.get? workItemsKey) ∧ Converts (values.get? waitTimeoutKey) ∧
          ((∃ negative, values.get? citationsKey = some (.float (.inf negative))) ∨
            Converts (values.get? citationsKey)))) ∨
      (loadLimits values = .error .overflowError ∧ Converts (values.get? workItemsKey) ∧
        Converts (values.get? waitTimeoutKey) ∧ ∃ negative, values.get? citationsKey = some (.float (.inf negative))) := by
  rcases readInteger_cases values "WEBSEARCH_MAX_WORK_ITEMS_PER_TURN" with
    ⟨work, hread, hconverts, hwork'⟩ | ⟨message, hread, hnot, -⟩ | ⟨-, -, negative, hinf⟩
  · rcases readInteger_cases values "WEBSEARCH_MULTI_INTENT_WAIT_TIMEOUT_MS" with
      ⟨wait, hread', hconverts', hwait'⟩ | ⟨message, hread', hnot, -⟩ | ⟨-, -, negative, hinf⟩
    · rcases readInteger_cases values "WEBSEARCH_MAX_CITATIONS" with
        ⟨citations, hread'', hconverts'', hcitations⟩ | ⟨message, hread'', hnot, hinf⟩ | ⟨hread'', -, hinf⟩
      · refine .inl ⟨⟨work.getD 2, wait.getD 10000, citations.getD 12⟩, ?_, hconverts, hconverts', hconverts'',
          hwork' 2, hwait' 10000, hcitations 12⟩
        rw [loadLimits, hread, hread', hread'']
        rfl
      · refine .inr (.inl ⟨message, ?_, ?_⟩)
        · rw [loadLimits, hread, hread', hread'']
          rfl
        · rintro ⟨-, -, ⟨negative, hc⟩ | hc⟩
          · exact hinf negative hc
          · exact hnot hc
      · refine .inr (.inr ⟨?_, hconverts, hconverts', hinf⟩)
        rw [loadLimits, hread, hread', hread'']
        rfl
    · refine .inr (.inl ⟨message, ?_, fun hc => hnot hc.2.1⟩)
      rw [loadLimits, hread, hread']
      rfl
    · exact absurd hinf (ne_inf hwait negative)
  · refine .inr (.inl ⟨message, ?_, fun hc => hnot hc.1⟩)
    rw [loadLimits, hread]
    rfl
  · exact absurd hinf (ne_inf hwork negative)

/-- The port to bind is read, or refused. -/
theorem loadBindPort_cases (hbind : ∀ v, values.get? bindPortKey = some v → ∃ s, v = .str s) :
    (∃ port, loadBindPort values = .ok port ∧ Converts (values.get? bindPortKey) ∧
        ReadAs (values.get? bindPortKey) 7860 port) ∨
      ∃ message, loadBindPort values = .error (.configError message) ∧ ¬Converts (values.get? bindPortKey) := by
  rw [loadBindPort]
  rcases hvalue : values.get? (.ofString "WEBSEARCH_BIND_PORT") with _ | v
  · have hnone : values.get? bindPortKey = none := hvalue
    rw [hnone]
    exact .inl ⟨7860, rfl, fun v hv => (nomatch hv), .inl ⟨rfl, rfl⟩⟩
  · obtain ⟨s, rfl⟩ := hbind v hvalue
    have hsome : values.get? bindPortKey = some (.str s) := hvalue
    dsimp only
    rw [hsome]
    rcases hint : s.readInteger with _ | n
    · refine .inr ⟨PyStr.ofString "WEBSEARCH_BIND_PORT must be an integer", ?_, fun hc => ?_⟩
      · rw [Value.toInt, hint]
        rfl
      · obtain ⟨n, hn⟩ := hc _ rfl
        rw [Value.toInt, hint] at hn
        cases hn
    · have hconverts : (Value.str s).toInt = .ok n := by
        rw [Value.toInt, hint]
        rfl
      refine .inl ⟨n, ?_, fun v hv => ⟨n, ?_⟩, .inr ⟨_, rfl, hconverts⟩⟩
      · rw [hconverts]
        rfl
      · cases hv
        exact hconverts

/-- A string is read as the integer it denotes. -/
theorem denoted_of_readAs {x : Option Value} (h : ∀ v, x = some v → ∃ s, v = .str s) {default n : ℤ}
    (hread : ReadAs x default n) : ∀ v, x = some v → v.denoted = some n := by
  intro v hv
  obtain ⟨s, rfl⟩ := h v hv
  rcases hread with ⟨hnone, -⟩ | ⟨v', hv', hint⟩
  · rw [hv] at hnone
    cases hnone
  · rw [hv] at hv'
    cases hv'
    exact orRaise_eq_ok_iff.mp hint

theorem convertsTo_iff_of_readAs {x : Option Value} {default n : ℤ} {p : ℤ → Prop} (hdefault : p default)
    (hread : ReadAs x default n) : ConvertsTo p x ↔ p n := by
  rcases hread with ⟨rfl, rfl⟩ | ⟨v, rfl, hint⟩
  · exact iff_of_true (fun v hv => (nomatch hv)) hdefault
  · constructor
    · intro h
      obtain ⟨m, hm, hp⟩ := h v rfl
      rw [hint] at hm
      cases hm
      exact hp
    · rintro hp v' ⟨⟩
      exact ⟨n, hint, hp⟩

/-! ## The endpoint families -/

variable {rt : Runtime} {layers : List (ℤ × Mapping)}

theorem familyKeySet_eq_error {value : Option Value} {failure : Failure} (h : familyKeySet rt value = .error failure) :
    failure = .valueError := by
  rcases value with _ | v
  · cases h
  · exact (Value.text_eq_error rt (Checks.map_eq_error_iff.mp h)).1

/-- Resolving a family raises nothing but `ValueError`. -/
theorem resolveFamily_eq_error {family : Family} {failure : Failure}
    (h : resolveFamily rt values layers family = .error failure) : failure = .valueError := by
  have hlayer : ∀ key failure, familyLayer rt values layers key = .error failure → failure = .valueError := by
    intro key failure h
    rcases Checks.bind_eq_error_iff.mp h with h | ⟨set, -, h⟩
    · exact familyKeySet_eq_error h
    · cases set with
      | false => cases h
      | true =>
        rcases Checks.bind_eq_error_iff.mp h with h | ⟨flagged, -, h⟩
        · obtain ⟨e, -, he⟩ := Checks.exists_of_mapM_eq_error h
          exact familyKeySet_eq_error (Checks.map_eq_error_iff.mp he)
        · cases h
  rcases hlayers : familyLayers rt values layers (familyKeys family.members) with failure' | found
  · rw [resolveFamily, hlayers] at h
    obtain ⟨key, -, hkey⟩ := Checks.exists_of_mapM_eq_error hlayers
    cases h
    exact hlayer key _ (Checks.map_eq_error_iff.mp hkey)
  · obtain ⟨r, hr⟩ := exists_resolveFamily_iff.mpr (exists_familyLayers_iff.mp ⟨found, hlayers⟩)
    rw [hr] at h
    cases h

/-- A number of a few digits is written. -/
theorem exists_intText {n : ℤ} (h : 1 ≤ n ∧ n ≤ 65535) : ∃ digits, Numeral.intText n = some digits := by
  have hlength : (Numeral.natText n.natAbs).length ≤ Numeral.maxStrDigits :=
    (Nat.length_toDigits_le_iff (by decide) (by decide)).mpr
      ((by omega : n.natAbs < 10 ^ 5).trans_le (Nat.pow_le_pow_right (by decide) (by decide)))
  rw [Numeral.intText, if_neg (not_lt.mpr hlength)]
  split_ifs <;> exact ⟨_, rfl⟩

theorem exists_textOrNone {value : Option Value} (h : ∀ v, value = some v → ∃ text, v.text rt = .ok text) :
    ∃ text, textOrNone rt value = .ok text := by
  rcases value with _ | v
  · exact ⟨_, rfl⟩
  · exact h v rfl

/-- The pair is built, or its port is refused. -/
theorem buildHostPort_cases {hostText portText : PyStr} (hhost : textOrNone rt (values.get? ttsHostKey) = .ok hostText)
    (hport : textOrNone rt (values.get? ttsPortKey) = .ok portText) :
    (∃ port digits, portText.readInteger = some port ∧ (1 ≤ port ∧ port ≤ 65535) ∧
        Numeral.intText port = some digits ∧
        buildHostPort rt values = .ok (.ofString "ws", hostText ++ .ofString ":" ++ digits.map CodePoint.ofChar)) ∨
      ((∀ port, portText.readInteger = some port → ¬(1 ≤ port ∧ port ≤ 65535)) ∧
        ∃ message, buildHostPort rt values = .error (.configError message)) := by
  rcases hread : portText.readInteger with _ | port
  · refine .inr ⟨fun port hc => (nomatch hc), PyStr.ofString "WEBSEARCH_TTS_WS_PORT must be an integer", ?_⟩
    simp only [buildHostPort, hport, hread, bind, Except.bind, orRaise, wrapValueError, refused]
  · by_cases hrange : 1 ≤ port ∧ port ≤ 65535
    · obtain ⟨digits, hdigits⟩ := exists_intText hrange
      refine .inl ⟨port, digits, rfl, hrange, hdigits, ?_⟩
      simp only [buildHostPort, hport, hread, hhost, bind, Except.bind, orRaise, wrapValueError, hrange, and_self, not_true,
        if_false, Value.text, hdigits, Option.map_some]
      rfl
    · refine .inr ⟨?_, PyStr.ofString "WEBSEARCH_TTS_WS_PORT must be between 1 and 65535", ?_⟩
      · rintro _ ⟨⟩
        exact hrange
      · simp only [buildHostPort, hport, hread, bind, Except.bind, orRaise, wrapValueError, hrange, not_false_eq_true,
          if_true, refused]

/-- A value whose text is read as an integer denotes it. -/
theorem denoted_of_text {v : Value} {text : PyStr} {n : ℤ} (htext : v.text rt = .ok text)
    (hread : text.readInteger = some n) : v.denoted = some n := by
  cases v with
  | str s =>
    cases htext
    exact hread
  | int m =>
    obtain ⟨digits, hdigits, rfl⟩ := Option.map_eq_some_iff.mp (orRaise_eq_ok_iff.mp htext)
    rw [PyStr.readInteger_intText hdigits] at hread
    exact hread
  | bool b =>
    have hbool : ∀ b : Bool, (PyStr.ofString (if b then "True" else "False")).readInteger = none := by
      intro b
      cases b <;> rfl
    cases htext
    rw [hbool b] at hread
    cases hread
  | float x =>
    cases htext
    rw [(rt.floatText_spec x).2] at hread
    cases hread
  | compound c =>
    rw [(c.text_spec text (orRaise_eq_ok_iff.mp htext)).2] at hread
    cases hread

/-! ## The checks -/

theorem refuseIf_eq_ok_iff {p : Prop} [Decidable p] {message : String} : refuseIf p message = .ok () ↔ ¬p := by
  rw [refuseIf]
  split_ifs with hp <;> simp [hp]

theorem refuseIf_cases (p : Prop) [Decidable p] (message : String) :
    refuseIf p message = .ok () ∨ ∃ text, refuseIf p message = .error (.configError text) := by
  rw [refuseIf]
  split_ifs
  · exact .inr ⟨_, rfl⟩
  · exact .inl rfl

variable {credentials : Credentials} {limits : Limits} {services : Services} {policies : Policies}
  {endpoints : Endpoints} {bindPort : ℤ}

/-- Where the checks pass with some integers, they pass with others exactly if these are in range, and raise
`ConfigError` otherwise. -/
theorem checks_cases (h : ∀ c ∈ checks rt ⟨credentials, limits, services, policies, endpoints, bindPort⟩, c = .ok ())
    (limits : Limits) (endpoints : Endpoints) (bindPort : ℤ) :
    (∀ c ∈ checks rt ⟨credentials, limits, services, policies, endpoints, bindPort⟩,
        c = .ok () ∨ ∃ message, c = .error (.configError message)) ∧
      ((∀ c ∈ checks rt ⟨credentials, limits, services, policies, endpoints, bindPort⟩, c = .ok ()) ↔
        limits.maxWorkItemsPerTurn ∈ [2, 3, 4] ∧ 0 < limits.multiIntentWaitTimeoutMs ∧
          (1 ≤ limits.maxCitations ∧ limits.maxCitations ≤ 50) ∧ 1 ≤ bindPort ∧ bindPort ≤ 65535) := by
  simp only [checks, List.forall_mem_cons] at h ⊢
  obtain ⟨-, -, h3, h4, h5, h6, h7, h8, h9, h10, -, h12, h13, h14, -, h16, h17, h18, h19, h20, h21, h22, h23, h24, h25, h26,
    h27, h28, h29, h30, h31, h32, h33, h34, h35, hnil⟩ := h
  refine ⟨⟨refuseIf_cases _ _, refuseIf_cases _ _, .inl h3, .inl h4, .inl h5, .inl h6, .inl h7, .inl h8, .inl h9, .inl h10,
    refuseIf_cases _ _, .inl h12, .inl h13, .inl h14, refuseIf_cases _ _, .inl h16, .inl h17, .inl h18, .inl h19, .inl h20,
    .inl h21, .inl h22, .inl h23, .inl h24, .inl h25, .inl h26, .inl h27, .inl h28, .inl h29, .inl h30, .inl h31, .inl h32,
    .inl h33, .inl h34, .inl h35, fun c hc => absurd hc List.not_mem_nil⟩, ?_⟩
  constructor
  · rintro ⟨hwork, hwait, -, -, -, -, -, -, -, -, hcitations, -, -, -, hbind, -⟩
    rw [refuseIf_eq_ok_iff] at hwork hwait hcitations hbind
    exact ⟨not_not.mp hwork, not_le.mp hwait, not_not.mp hcitations, not_not.mp hbind⟩
  · rintro ⟨hwork, hwait, hcitations, hbind⟩
    exact ⟨refuseIf_eq_ok_iff.mpr (not_not.mpr hwork), refuseIf_eq_ok_iff.mpr (not_le.mpr hwait), h3, h4, h5, h6, h7, h8, h9,
      h10, refuseIf_eq_ok_iff.mpr (not_not.mpr hcitations), h12, h13, h14, refuseIf_eq_ok_iff.mpr (not_not.mpr hbind), h16,
      h17, h18, h19, h20, h21, h22, h23, h24, h25, h26, h27, h28, h29, h30, h31, h32, h33, h34, h35, hnil⟩

/-! ## What `load_config` comes to -/

variable {inp : Inputs}

theorem OthersLoad.loadConfig_limits (h : OthersLoad rt layers inp values credentials services policies) {failure : Failure}
    (hlimits : loadLimits values = .error failure) : loadConfig rt inp = .error failure := by
  simp only [loadConfig, loadSettings, h.loadsValues, h.loadsCredentials, hlimits, bind, Except.bind]

theorem OthersLoad.loadConfig_bindPort (h : OthersLoad rt layers inp values credentials services policies)
    (hlimits : loadLimits values = .ok limits) {failure : Failure} (hbind : loadBindPort values = .error failure) :
    loadConfig rt inp = .error failure := by
  simp only [loadConfig, loadSettings, h.loadsValues, h.loadsCredentials, hlimits, h.loadsServices, hbind, bind, Except.bind]

theorem OthersLoad.loadConfig_endpoints (h : OthersLoad rt layers inp values credentials services policies)
    (hlimits : loadLimits values = .ok limits) (hbind : loadBindPort values = .ok bindPort) :
    loadConfig rt inp = loadEndpoints rt values layers >>= fun endpoints =>
      Checks.runAll (checks rt ⟨credentials, limits, services, policies, endpoints, bindPort⟩) >>= fun _ =>
        pure ⟨credentials, limits, services, policies, endpoints, bindPort⟩ := by
  simp only [loadConfig, loadSettings, h.loadsValues, h.loadsCredentials, hlimits, h.loadsServices, hbind, h.loadsPolicies,
    Settings.config, bind, Except.bind, pure, Except.pure]

/-- The endpoints are built, or their port is refused. -/
theorem OthersLoad.loadEndpoints_cases (h : OthersLoad rt layers inp values credentials services policies)
    (hnonneg : ∀ e ∈ layers, 0 ≤ e.1) (hport : Legible rt values.get? layers ttsPortKey) :
    (∃ endpoints, loadEndpoints rt values layers = .ok endpoints ∧
        ¬(HalfSet rt values.get? ∧ PairHigher rt values.get? layers) ∧
        (Selects rt values.get? layers ttsEndpointMembers (some .hostPort) →
          ∃ text port digits host, textOrNone rt (values.get? ttsPortKey) = .ok text ∧ text.readInteger = some port ∧
            (1 ≤ port ∧ port ≤ 65535) ∧ Numeral.intText port = some digits ∧
            textOrNone rt (values.get? ttsHostKey) = .ok host ∧ endpoints.ttsEndpoint =
              some (.ofString "ws", host ++ .ofString ":" ++ digits.map CodePoint.ofChar))) ∨
      ((∃ message, loadEndpoints rt values layers = .error (.configError message)) ∧
        (HalfSet rt values.get? ∧ PairHigher rt values.get? layers ∨
          Selects rt values.get? layers ttsEndpointMembers (some .hostPort) ∧
            ¬PortRead rt (values.get? ttsPortKey))) := by
  have hlegible : ∀ family : Family, ∀ key ∈ familyKeys family.members, Legible rt values.get? layers key := by
    intro family key hkey
    by_cases hne : key = ttsPortKey
    · exact hne ▸ hport
    · exact h.legible family key hkey hne
  have hbuild : ∀ (family : Family) (winner : Option Spelling), Selects rt values.get? layers family.members winner →
      winner ≠ some .hostPort → ∃ endpoint, family.build rt winner values = .ok endpoint := by
    intro family winner hselects hne
    rcases winner with _ | name
    · cases family <;> exact ⟨none, rfl⟩
    · obtain ⟨before, keys, after, hmembers, hcomplete, -⟩ := hselects
      exact h.builds family (name, keys) (by simp [hmembers]) (fun hc => hne (congrArg some hc)) hcomplete
  obtain ⟨stt, hstt⟩ := exists_resolveFamily_iff.mpr (hlegible .sttEndpoint)
  obtain ⟨tts, htts⟩ := exists_resolveFamily_iff.mpr (hlegible .ttsEndpoint)
  have hsttSelects := (resolveFamily_ok hnonneg hstt).1
  obtain ⟨httsSelects, httsLayers⟩ := resolveFamily_ok hnonneg htts
  have hunique : ∀ winner, Selects rt values.get? layers ttsEndpointMembers winner → tts.winner = winner :=
    fun winner hwinner => httsSelects.unique
      (fun m hm => ⟨_, httsLayers m.2 fun key hkey => List.mem_flatMap.mpr ⟨m, hm, hkey⟩⟩) hwinner
  have hsttName : stt.winner ≠ some .hostPort := by
    intro hc
    rw [hc] at hsttSelects
    obtain ⟨before, keys, after, hmembers, -⟩ := hsttSelects
    have hname : Spelling.hostPort ∈ Family.sttEndpoint.members.map Prod.fst := by simp [hmembers]
    exact absurd hname (by decide)
  obtain ⟨sttEndpoint, hsttBuild⟩ := hbuild .sttEndpoint stt.winner hsttSelects hsttName
  have hguard := guardHalfPair_eq hnonneg htts
  by_cases hhalf : HalfSet rt values.get? ∧ PairHigher rt values.get? layers
  · refine .inr ⟨⟨ttsHostKey ++ .ofString " and " ++ ttsPortKey ++ .ofString " must be set together", ?_⟩, .inl hhalf⟩
    exact (loadEndpoints_eq_halfPair_iff hnonneg hlegible).mpr hhalf
  · rw [if_neg hhalf] at hguard
    have hload : loadEndpoints rt values layers =
        Family.ttsEndpoint.build rt tts.winner values >>= fun ttsEndpoint => pure ⟨sttEndpoint, ttsEndpoint⟩ := by
      simp only [loadEndpoints, hstt, htts, hguard, hsttBuild, bind, Except.bind]
    by_cases hwinner : tts.winner = some .hostPort
    · obtain ⟨host, hhost⟩ := exists_textOrNone (hlegible .ttsEndpoint ttsHostKey (ttsPair_subset (by simp))).1
      obtain ⟨text, htext⟩ := exists_textOrNone hport.1
      rw [hwinner] at hload httsSelects
      rcases buildHostPort_cases hhost htext with ⟨port, digits, hread, hrange, hdigits, hbuilt⟩ | ⟨hrefused, message, hbuilt⟩
      · refine .inl ⟨⟨sttEndpoint, some _⟩, ?_, hhalf, fun _ =>
          ⟨text, port, digits, host, htext, hread, hrange, hdigits, hhost, rfl⟩⟩
        rw [hload, Family.build, buildTtsEndpoint, hbuilt]
        rfl
      · refine .inr ⟨⟨message, ?_⟩, .inr ⟨httsSelects, ?_⟩⟩
        · rw [hload, Family.build, buildTtsEndpoint, hbuilt]
          rfl
        · rintro ⟨text', n, htext', hn, hrange⟩
          rw [htext] at htext'
          cases htext'
          exact hrefused n hn hrange
    · obtain ⟨ttsEndpoint, httsBuild⟩ := hbuild .ttsEndpoint tts.winner httsSelects hwinner
      refine .inl ⟨⟨sttEndpoint, ttsEndpoint⟩, ?_, hhalf, fun hselects => absurd (hunique _ hselects) hwinner⟩
      rw [hload, httsBuild]
      rfl

theorem OthersLoad.loadEndpoints_illegible (h : OthersLoad rt layers inp values credentials services policies)
    (hport : ¬Legible rt values.get? layers ttsPortKey) : loadEndpoints rt values layers = .error .valueError := by
  have hsttKeys : ∀ key ∈ familyKeys Family.sttEndpoint.members, key ≠ ttsPortKey := by
    rintro key hkey rfl
    simp [familyKeys, Family.members, sttEndpointMembers, ttsPortKey, PyStr.ofString_injective.eq_iff] at hkey
  obtain ⟨stt, hstt⟩ := exists_resolveFamily_iff.mpr fun key hkey => h.legible .sttEndpoint key hkey (hsttKeys key hkey)
  rcases htts : resolveFamily rt values layers .ttsEndpoint with failure | tts
  · obtain rfl := resolveFamily_eq_error htts
    simp only [loadEndpoints, hstt, htts, bind, Except.bind]
  · exact absurd (exists_resolveFamily_iff.mp ⟨tts, htts⟩ ttsPortKey (ttsPair_subset (by simp))) hport

/-! ## Truncation -/

theorem truncate_of_toInt {q : ℚ} {n : ℤ} (h : (Value.float (.finite q)).toInt = .ok n) :
    (PyFloat.finite q).truncate = some n := by
  cases h
  rfl

theorem Truncated.converts {x : Option Value} (h : Truncated x) : Converts x := by
  rcases h with rfl | ⟨q, rfl, -⟩
  · rintro v ⟨⟩
    exact ⟨1, rfl⟩
  · rintro v ⟨⟩
    exact ⟨_, rfl⟩

theorem Truncated.range {x : Option Value} (h : Truncated x) {default n : ℤ} (hread : ReadAs x default n) :
    1 ≤ n ∧ n ≤ 50 := by
  rcases h with rfl | ⟨q, rfl, -, hlow, hhigh⟩ <;> rcases hread with ⟨hnone, -⟩ | ⟨v, hv, hint⟩
  · cases hnone
  · cases hv
    cases hint
    decide
  · cases hnone
  · cases hv
    obtain ⟨m, hm, hrange⟩ := (PyFloat.truncate_between_iff q (by decide : (0 : ℤ) < 1) 50).mpr
      ⟨by exact_mod_cast hlow.le, by norm_num; exact hhigh⟩
    have hmn : m = n := Option.some.inj (hm.symm.trans (truncate_of_toInt hint))
    exact hmn ▸ hrange

/-- A number in range is the one its value denotes, unless it is truncated. -/
theorem denoted_iff_not_truncated {x : Option Value} {default n : ℤ} (hread : ReadAs x default n)
    (hrange : 1 ≤ n ∧ n ≤ 50) : (∀ v, x = some v → v.denoted = some n) ↔ ¬Truncated x := by
  constructor
  · rintro h (rfl | ⟨q, rfl, hden, -⟩)
    · exact nomatch h _ rfl
    · have hq := h _ rfl
      rw [Value.denoted, PyFloat.whole?, if_neg hden] at hq
      cases hq
  · rintro hnot v rfl
    rcases hread with ⟨hnone, -⟩ | ⟨v', hv', hint⟩
    · cases hnone
    · cases hv'
      cases v with
      | str s => exact orRaise_eq_ok_iff.mp hint
      | int m => cases hint; rfl
      | compound c => cases hint
      | bool b =>
        cases b
        · cases hint
          exact absurd hrange (by decide)
        · exact absurd (.inl rfl) hnot
      | float q =>
        cases q with
        | nan => cases hint
        | inf negative => cases hint
        | negZero => cases hint; rfl
        | finite q =>
          have htruncate : (PyFloat.finite q).truncate = some n := truncate_of_toInt hint
          obtain ⟨hlow, hhigh⟩ := (PyFloat.truncate_between_iff q (by decide : (0 : ℤ) < 1) 50).mp
            ⟨n, htruncate, hrange⟩
          by_cases hden : q.den = 1
          · have hwhole : (PyFloat.finite q).whole? = some q.num := if_pos hden
            rw [Value.denoted, hwhole, ← htruncate, PyFloat.truncate_of_whole? hwhole]
          · refine absurd (.inr ⟨q, rfl, hden, lt_of_le_of_ne (by exact_mod_cast hlow) ?_, ?_⟩) hnot
            · rintro rfl
              exact hden rfl
            · norm_num at hhigh
              exact hhigh

/-! ## The integer settings -/

theorem OthersAccepted.converts (h : OthersAccepted rt layers) :
    Converts (merged rt workItemsKey layers) ∧ Converts (merged rt waitTimeoutKey layers) ∧
      Converts (merged rt bindPortKey layers) := by
  have hto : ∀ {p : ℤ → Prop} {x : Option Value}, ConvertsTo p x → Converts x := fun hx v hv =>
    (hx v hv).imp fun _ hn => hn.1
  exact ⟨hto h.workItems, hto h.waitTimeout, hto h.bindPort⟩

theorem not_misread_of_not_converts (h : ¬(Converts (merged rt workItemsKey layers) ∧
    Converts (merged rt waitTimeoutKey layers) ∧
      ((∃ negative, merged rt citationsKey layers = some (.float (.inf negative))) ∨
        Converts (merged rt citationsKey layers)))) : ¬Misread rt layers := by
  rintro (⟨hinf, hwork, hwait⟩ | ⟨-, hwork, hwait, hcitations, -⟩ | ⟨htruncated, -, haccepted⟩)
  · exact h ⟨hwork, hwait, .inl hinf⟩
  · exact h ⟨hwork, hwait, .inr hcitations⟩
  · exact h ⟨haccepted.converts.1, haccepted.converts.2.1, .inr htruncated.converts⟩

/-- Where `max_citations` converts and the port has a text, only a truncated `max_citations` is misread. -/
theorem misread_iff_of_converts (hcitations : Converts (merged rt citationsKey layers))
    (hlegible : Legible rt (merged rt · layers) layers ttsPortKey) :
    Misread rt layers ↔ Truncated (merged rt citationsKey layers) ∧ OthersAccepted rt layers := by
  constructor
  · rintro (⟨⟨negative, hinf⟩, -⟩ | ⟨hnot, -⟩ | ⟨htruncated, -, haccepted⟩)
    · obtain ⟨n, hn⟩ := hcitations _ hinf
      cases hn
    · exact absurd hlegible hnot
    · exact ⟨htruncated, haccepted⟩
  · exact fun h => .inr (.inr ⟨h.1, hlegible, h.2⟩)

/-- Everything is converted: what is left are the endpoints and the checks. -/
theorem OthersLoad.exact_iff (h : OthersLoad rt layers inp values credentials services policies)
    (hnonneg : ∀ e ∈ layers, 0 ≤ e.1) (hlimits : loadLimits values = .ok limits)
    (hbindPort : loadBindPort values = .ok bindPort) (hlegible : Legible rt values.get? layers ttsPortKey)
    (hfamily : ∀ key ∈ familyKeys ttsEndpointMembers, values.get? key = merged rt key layers)
    (dwork : ∀ v, merged rt workItemsKey layers = some v → v.denoted = some limits.maxWorkItemsPerTurn)
    (dwait : ∀ v, merged rt waitTimeoutKey layers = some v → v.denoted = some limits.multiIntentWaitTimeoutMs)
    (dbind : ∀ v, merged rt bindPortKey layers = some v → v.denoted = some bindPort)
    (rwork : ReadAs (merged rt workItemsKey layers) 2 limits.maxWorkItemsPerTurn)
    (rwait : ReadAs (merged rt waitTimeoutKey layers) 10000 limits.multiIntentWaitTimeoutMs)
    (rcitations : ReadAs (merged rt citationsKey layers) 12 limits.maxCitations)
    (rbind : ReadAs (merged rt bindPortKey layers) 7860 bindPort) :
    IntegersExact rt layers inp ↔ ¬(Truncated (merged rt citationsKey layers) ∧ OthersAccepted rt layers) := by
  have hload := h.loadConfig_endpoints hlimits hbindPort
  have hhost := hfamily ttsHostKey (ttsPair_subset (by simp))
  have hport := hfamily ttsPortKey (ttsPair_subset (by simp))
  have hselects : ∀ winner, Selects rt (merged rt · layers) layers ttsEndpointMembers winner ↔
      Selects rt values.get? layers ttsEndpointMembers winner := fun winner =>
    ⟨fun hs => hs.congr fun key hkey => (hfamily key hkey).symm, fun hs => hs.congr hfamily⟩
  have hpair : HalfSet rt (merged rt · layers) ∧ PairHigher rt (merged rt · layers) layers ↔
      HalfSet rt values.get? ∧ PairHigher rt values.get? layers := by
    refine and_congr ?_ ⟨fun hp => hp.congr fun key hkey => (hfamily key hkey).symm, fun hp => hp.congr hfamily⟩
    rw [HalfSet, HalfSet, hhost, hport]
  rcases h.loadEndpoints_cases hnonneg hlegible with ⟨endpoints, hendpoints, hwhole, htts⟩ | ⟨⟨message, herr⟩, hrefused⟩
  · obtain ⟨hcases, hranges⟩ := checks_cases h.passes limits endpoints bindPort
    by_cases hchecks : ∀ c ∈ checks rt ⟨credentials, limits, services, policies, endpoints, bindPort⟩, c = .ok ()
    · -- the configuration is returned
      obtain ⟨hwork, hwait, hcitations, hbind⟩ := hranges.mp hchecks
      have hreturned : loadConfig rt inp = .ok ⟨credentials, limits, services, policies, endpoints, bindPort⟩ := by
        rw [hload, hendpoints]
        exact Checks.check_eq_ok_iff.mpr ⟨Checks.runAll_eq_ok_iff.mpr hchecks, rfl⟩
      have haccepted : OthersAccepted rt layers := by
        refine ⟨(convertsTo_iff_of_readAs (by decide) rwork).mpr hwork, (convertsTo_iff_of_readAs (by decide) rwait).mpr hwait,
          (convertsTo_iff_of_readAs (by decide) rbind).mpr hbind, fun hc => hwhole (hpair.mp hc), fun hs => ?_⟩
        obtain ⟨text, port, digits, host, htext, hread, hrange, -⟩ := htts ((hselects _).mp hs)
        exact ⟨text, port, hport ▸ htext, hread, hrange⟩
      rw [and_iff_left haccepted, ← denoted_iff_not_truncated rcitations hcitations]
      constructor
      · rintro (⟨cfg, hcfg, hused⟩ | ⟨message, herr⟩)
        · rw [hreturned] at hcfg
          cases hcfg
          exact hused.citations
        · rw [hreturned] at herr
          cases herr
      · intro hdenoted
        refine .inl ⟨_, hreturned, dwork, dwait, hdenoted, dbind, fun hs v hv => ?_⟩
        obtain ⟨text, port, digits, host, htext, hread, -, hdigits, hhostText, hbuilt⟩ := htts ((hselects _).mp hs)
        rw [hport, hv] at htext
        exact ⟨port, digits, host, denoted_of_text htext hread, hdigits, hhost ▸ hhostText, hbuilt⟩
    · -- some integer is out of range
      rcases hrun : Checks.runAll (checks rt ⟨credentials, limits, services, policies, endpoints, bindPort⟩) with failure | _
      · have hfailure : ∃ message, failure = .configError message := by
          rcases hcases _ (Checks.mem_of_runAll_eq_error hrun) with hok | ⟨message, herr⟩
          · cases hok
          · exact ⟨message, Except.error.inj herr⟩
        obtain ⟨message, rfl⟩ := hfailure
        refine iff_of_true (.inr ⟨message, ?_⟩) fun hmis => hchecks (hranges.mpr
          ⟨(convertsTo_iff_of_readAs (by decide) rwork).mp hmis.2.workItems,
            (convertsTo_iff_of_readAs (by decide) rwait).mp hmis.2.waitTimeout, hmis.1.range rcitations,
            (convertsTo_iff_of_readAs (by decide) rbind).mp hmis.2.bindPort⟩)
        rw [hload]
        exact Checks.bind_eq_error_iff.mpr (.inr ⟨endpoints, hendpoints, Checks.bind_eq_error_iff.mpr (.inl hrun)⟩)
      · exact absurd (Checks.runAll_eq_ok_iff.mp hrun) hchecks
  · refine iff_of_true (.inr ⟨message, by rw [hload, herr]; rfl⟩) fun hmis => ?_
    rcases hrefused with hhalf | ⟨hs, hnot⟩
    · exact hmis.2.pair (hpair.mpr hhalf)
    · exact hnot (hport ▸ hmis.2.ttsPort ((hselects _).mpr hs))

theorem integer_keys_ne (r : Role) : workItemsKey ≠ r.effortKey ∧ waitTimeoutKey ≠ r.effortKey ∧
    citationsKey ≠ r.effortKey ∧ bindPortKey ≠ r.effortKey := by
  cases r <;>
    exact ⟨PyStr.ofString_injective.ne (by simp), PyStr.ofString_injective.ne (by simp),
      PyStr.ofString_injective.ne (by simp), PyStr.ofString_injective.ne (by simp)⟩

theorem env_keys_ne : (∀ row ∈ tomlSurface, workItemsKey ≠ .ofString row.2.2) ∧
    (∀ row ∈ tomlSurface, waitTimeoutKey ≠ .ofString row.2.2) ∧ ∀ row ∈ tomlSurface, bindPortKey ≠ .ofString row.2.2 := by
  have hne : ∀ row ∈ tomlSurface, "WEBSEARCH_MAX_WORK_ITEMS_PER_TURN" ≠ row.2.2 ∧
      "WEBSEARCH_MULTI_INTENT_WAIT_TIMEOUT_MS" ≠ row.2.2 ∧ "WEBSEARCH_BIND_PORT" ≠ row.2.2 := by
    simp [tomlSurface]
  exact ⟨fun row hrow => PyStr.ofString_injective.ne (hne row hrow).1,
    fun row hrow => PyStr.ofString_injective.ne (hne row hrow).2.1,
    fun row hrow => PyStr.ofString_injective.ne (hne row hrow).2.2⟩

/-! ## Files that cannot be read -/

theorem effectivelySet_eq_error {value : Value} {failure : Failure} (h : effectivelySet rt value = .error failure) :
    failure = .valueError := by
  rw [effectivelySet] at h
  split_ifs at h
  exact (Value.text_eq_error rt (Checks.map_eq_error_iff.mp h)).1

/-- Merging a layer raises nothing but `ValueError`. -/
theorem applyLayer_eq_error {m : Merge} {e : ℤ × Mapping} {failure : Failure} (h : applyLayer rt m e = .error failure) :
    failure = .valueError := by
  rcases Checks.bind_eq_error_iff.mp h with h | ⟨values, -, h⟩
  · obtain ⟨merged, entry, -, hentry⟩ := Checks.exists_of_foldlM_eq_error h
    rw [mergeEntry] at hentry
    split_ifs at hentry
    exact effectivelySet_eq_error (Checks.map_eq_error_iff.mp hentry)
  · rcases Checks.bind_eq_error_iff.mp h with h | ⟨layers, -, h⟩
    · obtain ⟨recorded, key, -, hkey⟩ := Checks.exists_of_foldlM_eq_error h
      rw [recordKey] at hkey
      split at hkey
      · cases hkey
      · exact effectivelySet_eq_error (Checks.map_eq_error_iff.mp hkey)
    · cases h

theorem ReadFailure.failure_ne (failure : ReadFailure) (message : PyStr) : failure.failure ≠ .configError message := by
  cases failure <;> rintro ⟨⟩

/-- **A file that cannot be read** is no `ConfigError`. -/
theorem Unreadable.not_exact (h : Unreadable inp) : ¬IntegersExact rt layers inp := by
  obtain ⟨failure, hload, hne⟩ : ∃ failure, loadValues rt inp = .error failure ∧ ∀ message, failure ≠ .configError message := by
    rcases h with ⟨failure, hfile⟩ | ⟨⟨toml, htoml⟩, failure, hfile⟩
    · refine ⟨failure.failure, Checks.bind_eq_error_iff.mpr (.inl ?_), failure.failure_ne⟩
      rw [hfile, tomlLayer]
    · rcases happly : applyLayers rt [(0, toml)] with failure' | m
      · obtain ⟨m, e, -, herr⟩ := Checks.exists_of_foldlM_eq_error happly
        obtain rfl := applyLayer_eq_error herr
        exact ⟨.valueError, Checks.bind_eq_error_iff.mpr (.inr ⟨toml, htoml, Checks.bind_eq_error_iff.mpr (.inl happly)⟩),
          by rintro _ ⟨⟩⟩
      · refine ⟨failure.failure, Checks.bind_eq_error_iff.mpr (.inr ⟨toml, htoml, Checks.bind_eq_error_iff.mpr
          (.inr ⟨m, happly, Checks.bind_eq_error_iff.mpr (.inl ?_)⟩)⟩), failure.failure_ne⟩
        rw [hfile, envFileLayer]
  have hconfig : loadConfig rt inp = .error failure := by
    simp only [loadConfig, loadSettings, hload, bind, Except.bind]
  rintro (⟨cfg, hcfg, -⟩ | ⟨message, hmessage⟩)
  · rw [hconfig] at hcfg
    cases hcfg
  · rw [hconfig] at hmessage
    exact hne message (Except.error.inj hmessage)

/-- Where the layers were read, no file is unreadable. -/
theorem not_unreadable (h : layerMaps inp = .ok layers) : ¬Unreadable inp := by
  obtain ⟨toml, htoml, h⟩ := Checks.bind_eq_ok_iff.mp h
  obtain ⟨envFile, henvFile, -⟩ := Checks.bind_eq_ok_iff.mp h
  rintro (⟨failure, hfile⟩ | ⟨-, failure, hfile⟩)
  · rw [hfile] at htoml
    cases htoml
  · rw [hfile] at henvFile
    cases henvFile

/-! ## When integer settings are exact -/

/-- Where the files were read and the other settings are valid, only some layers are misread. -/
theorem OthersValid.exact_iff (h : OthersValid rt layers inp) : IntegersExact rt layers inp ↔ ¬Misread rt layers := by
  obtain ⟨values, credentials, services, policies, h⟩ := h
  obtain ⟨hmaps, m, -, -, hget⟩ := loadValues_ok h.loadsValues
  have hnonneg := (layered_layerMaps hmaps).nonneg
  have hwork := hget workItemsKey fun r => (integer_keys_ne r).1
  have hwait := hget waitTimeoutKey fun r => (integer_keys_ne r).2.1
  have hcitations := hget citationsKey fun r => (integer_keys_ne r).2.2.1
  have hbind := hget bindPortKey fun r => (integer_keys_ne r).2.2.2
  have hworkText := fun v (hv : values.get? workItemsKey = some v) => eq_str_of_merged hmaps env_keys_ne.1 (hwork ▸ hv)
  have hwaitText := fun v (hv : values.get? waitTimeoutKey = some v) => eq_str_of_merged hmaps env_keys_ne.2.1 (hwait ▸ hv)
  have hbindText := fun v (hv : values.get? bindPortKey = some v) => eq_str_of_merged hmaps env_keys_ne.2.2 (hbind ▸ hv)
  have hfamily : ∀ key ∈ familyKeys ttsEndpointMembers, values.get? key = merged rt key layers :=
    fun key hkey => hget key (family_keys_ne .ttsEndpoint hkey)
  have hfamily' := fun key hkey => (hfamily key hkey).symm
  have hhost := hfamily ttsHostKey (ttsPair_subset (by simp))
  have hport := hfamily ttsPortKey (ttsPair_subset (by simp))
  have hlegible : Legible rt values.get? layers ttsPortKey ↔ Legible rt (merged rt · layers) layers ttsPortKey := by
    rw [Legible, Legible, hport]
  have hnone : ∀ {failure : Failure}, loadConfig rt inp = .error failure → (∀ message, failure ≠ .configError message) →
      ¬IntegersExact rt layers inp := by
    rintro failure herr hne (⟨cfg, hcfg, -⟩ | ⟨message, hmessage⟩)
    · rw [herr] at hcfg
      cases hcfg
    · rw [herr] at hmessage
      exact hne message (Except.error.inj hmessage)
  rcases loadLimits_cases hworkText hwaitText with
    ⟨limits, hlimits, cwork, cwait, ccitations, rwork, rwait, rcitations⟩ | ⟨message, herr, hnot⟩ | ⟨herr, cwork, cwait, hinf⟩
  · rw [hwork] at cwork rwork
    rw [hwait] at cwait rwait
    rw [hcitations] at ccitations rcitations
    rcases loadBindPort_cases hbindText with ⟨port, hbindPort, cbind, rbind⟩ | ⟨message, herr, hnot⟩
    · rw [hbind] at cbind rbind
      by_cases hport' : Legible rt values.get? layers ttsPortKey
      · rw [misread_iff_of_converts ccitations (hlegible.mp hport')]
        exact h.exact_iff hnonneg hlimits hbindPort hport' hfamily (denoted_of_readAs (hwork ▸ hworkText) rwork)
          (denoted_of_readAs (hwait ▸ hwaitText) rwait) (denoted_of_readAs (hbind ▸ hbindText) rbind) rwork rwait rcitations
          rbind
      · -- the port has no text
        have hload : loadConfig rt inp = .error .valueError := by
          rw [h.loadConfig_endpoints hlimits hbindPort, h.loadEndpoints_illegible hport']
          rfl
        exact iff_of_false (hnone hload (by rintro _ ⟨⟩)) (not_not.mpr (.inr (.inl ⟨fun hc => hport' (hlegible.mpr hc), cwork,
          cwait, ccitations, cbind⟩)))
    · rw [hbind] at hnot
      refine iff_of_true (.inr ⟨message, h.loadConfig_bindPort hlimits herr⟩) ?_
      rintro (⟨⟨negative, hinf⟩, -⟩ | ⟨-, -, -, -, hc⟩ | ⟨-, -, haccepted⟩)
      · obtain ⟨n, hn⟩ := ccitations _ hinf
        cases hn
      · exact hnot hc
      · exact hnot haccepted.converts.2.2
  · rw [hwork, hwait, hcitations] at hnot
    exact iff_of_true (.inr ⟨message, h.loadConfig_limits herr⟩) (not_misread_of_not_converts hnot)
  · rw [hwork] at cwork
    rw [hwait] at cwait
    rw [hcitations] at hinf
    exact iff_of_false (hnone (h.loadConfig_limits herr) (by rintro _ ⟨⟩)) (not_not.mpr (.inl ⟨hinf, cwork, cwait⟩))

/-- **How integer settings are used.**  Where the other settings are valid, `load_config` returns a configuration
that uses the integer settings as they are, or raises `ConfigError`, exactly if no file is unreadable and the layers are
none that it misreads. -/
theorem integers_exact_iff (rt : Runtime) (layers : List (ℤ × Mapping)) (inp : Inputs)
    (h : Unreadable inp ∨ OthersValid rt layers inp) :
    IntegersExact rt layers inp ↔ ¬Unreadable inp ∧ ¬Misread rt layers := by
  rcases h with h | h
  · exact iff_of_false h.not_exact fun hc => hc.1 h
  · obtain ⟨values, credentials, services, policies, hload⟩ := h
    rw [and_iff_right (not_unreadable (loadValues_ok hload.loadsValues).1)]
    exact OthersValid.exact_iff ⟨values, credentials, services, policies, hload⟩

/-- The other settings of a configuration that is returned are valid, if no endpoint is set. -/
theorem OthersValid.of_loadConfig {cfg : ServerConfig} (h : loadConfig rt inp = .ok cfg) (hlayers : layerMaps inp = .ok layers)
    (hfamily : ∀ family : Family, ∀ key ∈ familyKeys family.members, merged rt key layers = none) :
    OthersValid rt layers inp := by
  obtain ⟨s, endpoints, hs, -, rfl, hchecks⟩ := loadConfig_ok h
  obtain ⟨hvalues, hcredentials, -, hservices, -, hpolicies⟩ := loadSettings_ok hs
  obtain rfl : layers = s.layerMaps := by
    have hmaps := (loadValues_ok hvalues).1
    rw [hlayers] at hmaps
    exact Except.ok.inj hmaps
  have hnone : ∀ family : Family, ∀ key ∈ familyKeys family.members, s.values.get? key = none := fun family key hkey =>
    (get?_of_mem_familyKeys hs family hkey).trans (hfamily family key hkey)
  have hunset : ∀ family : Family, ∀ key ∈ familyKeys family.members, ¬KeySet rt (s.values.get? key) := by
    rintro family key hkey ⟨v, text, hv, -⟩
    rw [hnone family key hkey] at hv
    cases hv
  refine ⟨s.values, s.toCredentials, s.toServices, s.toPolicies, hvalues, hcredentials, hservices, hpolicies, ?_, ?_, ?_⟩
  · intro family key hkey _
    refine ⟨fun v hv => ?_, fun hset => absurd hset (hunset family key hkey)⟩
    rw [hnone family key hkey] at hv
    cases hv
  · intro family m hm _ hcomplete
    have hne : ∀ family : Family, ∀ m ∈ family.members, m.2 ≠ [] := by
      intro family
      cases family <;> simp [Family.members, sttEndpointMembers, ttsEndpointMembers]
    obtain ⟨key, hkey⟩ := List.exists_mem_of_ne_nil m.2 (hne family m hm)
    exact absurd (hcomplete key hkey) (hunset family key (List.mem_flatMap.mpr ⟨m, hm, hkey⟩))
  · exact (checks_cases hchecks ⟨2, 10000, 12⟩ ⟨none, none⟩ 7860).2.mpr ⟨by decide, by decide, by decide, by decide⟩

/-- `max_citations` in `config.toml`. -/
def citationsToml (value : Value) : Inputs :=
  ⟨.document (mappingOf [("turn", .table (mappingOf [("max_citations", value)]))]), .absent, ∅⟩

/-- What is evaluated of `max_citations` in `config.toml`. -/
theorem citationsToml_spec (value : Value) (n : ℤ)
    (hload : (loadConfig .sample (citationsToml value)).map (·.maxCitations) = .ok n)
    (hmerged : (layerMaps (citationsToml value)).map (fun layers => merged .sample citationsKey layers ::
      (familyKeys sttEndpointMembers ++ familyKeys ttsEndpointMembers).map (merged .sample · layers)) =
      .ok (some value :: List.replicate 7 none)) :
    ∃ layers cfg, layerMaps (citationsToml value) = .ok layers ∧ loadConfig .sample (citationsToml value) = .ok cfg ∧
      cfg.maxCitations = n ∧ merged .sample citationsKey layers = some value ∧
      (∀ family : Family, ∀ key ∈ familyKeys family.members, merged .sample key layers = none) ∧
      OthersValid .sample layers (citationsToml value) := by
  obtain ⟨cfg, hcfg, hn⟩ := Checks.map_eq_ok_iff.mp hload
  obtain ⟨layers, hlayers, hvalues⟩ := Checks.map_eq_ok_iff.mp hmerged
  obtain ⟨hcitations, hfamilies⟩ := List.cons.inj hvalues
  have hfamily : ∀ family : Family, ∀ key ∈ familyKeys family.members, merged .sample key layers = none := by
    intro family key hkey
    have hmem : key ∈ familyKeys sttEndpointMembers ++ familyKeys ttsEndpointMembers := by
      cases family
      · exact List.mem_append_left _ hkey
      · exact List.mem_append_right _ hkey
    exact List.eq_of_mem_replicate (hfamilies ▸ List.mem_map_of_mem hmem)
  exact ⟨layers, cfg, hlayers, hcfg, hn, hcitations, hfamily, .of_loadConfig hcfg hlayers hfamily⟩

/-- What is evaluated of 20 citations, and of `true` citations. -/
theorem citationsToml_evaluated :
    ((loadConfig .sample (citationsToml (.int 20))).map (·.maxCitations) = .ok 20 ∧
      (layerMaps (citationsToml (.int 20))).map (fun layers => merged .sample citationsKey layers ::
        (familyKeys sttEndpointMembers ++ familyKeys ttsEndpointMembers).map (merged .sample · layers)) =
        .ok (some (.int 20) :: List.replicate 7 none)) ∧
    (loadConfig .sample (citationsToml (.bool true))).map (·.maxCitations) = .ok 1 ∧
      (layerMaps (citationsToml (.bool true))).map (fun layers => merged .sample citationsKey layers ::
        (familyKeys sttEndpointMembers ++ familyKeys ttsEndpointMembers).map (merged .sample · layers)) =
        .ok (some (.bool true) :: List.replicate 7 none) := by
  decide +kernel

theorem integers_exact_iff_whole : ∃ layers, layerMaps (citationsToml (.int 20)) = .ok layers ∧
    OthersValid .sample layers (citationsToml (.int 20)) ∧ IntegersExact .sample layers (citationsToml (.int 20)) := by
  obtain ⟨layers, cfg, hlayers, -, -, hcitations, hfamily, hothers⟩ :=
    citationsToml_spec (.int 20) 20 citationsToml_evaluated.1.1 citationsToml_evaluated.1.2
  have hport := hfamily .ttsEndpoint ttsPortKey (ttsPair_subset (by simp))
  refine ⟨layers, hlayers, hothers, (integers_exact_iff .sample layers _ (.inr hothers)).mpr ⟨not_unreadable hlayers, ?_⟩⟩
  rintro (⟨⟨negative, hinf⟩, -⟩ | ⟨hnot, -⟩ | ⟨htrue | ⟨q, hq, -⟩, -⟩)
  · rw [hcitations] at hinf
    cases hinf
  · refine hnot ⟨fun v hv => ?_, fun hset => ?_⟩
    · exact nomatch hport.symm.trans hv
    · obtain ⟨v, text, hv, -⟩ := hset
      exact nomatch hport.symm.trans hv
  · rw [hcitations] at htrue
    cases htrue
  · rw [hcitations] at hq
    cases hq

/-- `max_citations = true` is taken for 1. -/
theorem citations_true_taken : ∃ layers cfg, layerMaps (citationsToml (.bool true)) = .ok layers ∧
    OthersValid .sample layers (citationsToml (.bool true)) ∧
    merged .sample citationsKey layers = some (.bool true) ∧
    loadConfig .sample (citationsToml (.bool true)) = .ok cfg ∧ cfg.maxCitations = 1 ∧
    ¬IntegersExact .sample layers (citationsToml (.bool true)) := by
  obtain ⟨layers, cfg, hlayers, hcfg, hn, hcitations, -, hothers⟩ :=
    citationsToml_spec (.bool true) 1 citationsToml_evaluated.2.1 citationsToml_evaluated.2.2
  refine ⟨layers, cfg, hlayers, hothers, hcitations, hcfg, hn, ?_⟩
  rintro (⟨cfg', -, hused⟩ | ⟨message, herr⟩)
  · exact nomatch hused.citations _ hcitations
  · rw [hcfg] at herr
    cases herr

end ServerConfig

end SubagentsLab

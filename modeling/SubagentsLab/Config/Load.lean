import SubagentsLab.Config.Families
import SubagentsLab.Machinery.Url

/-!
# Config/Load — `load_config`

The layers are read (`layerMaps`) and merged, every setting is converted (`loadSettings`), the endpoint
families are resolved, and the configuration is checked as `Config.__post_init__` does (`Config.checks`).  What
is not set keeps its default.
-/

namespace SubagentsLab

open Machinery

namespace ServerConfig

/-! ## The layers -/

/-- A value of the TOML document: only tables are looked into. -/
inductive TomlItem
  | table (entries : Mapping)
  | other

/-- What `tomllib.load` can raise besides `TOMLDecodeError`, and `read_text`. -/
inductive ReadFailure
  | osError
  /-- The file is not UTF-8. -/
  | unicodeDecodeError
  /-- A decimal integer has more digits than `int` reads. -/
  | valueError
  /-- Arrays or inline tables are nested too deep. -/
  | recursionError
  deriving DecidableEq, Repr

/-- What is raised of a file. -/
def ReadFailure.failure : ReadFailure → Failure
  | osError => .osError
  | unicodeDecodeError | valueError => .valueError
  | recursionError => .recursionError

/-- What became of `config.toml`. -/
inductive ConfigFile
  | absent
  /-- `tomllib.load` raised `TOMLDecodeError`. -/
  | invalid (path : PyStr)
  /-- It raised something else, or the file could not be opened. -/
  | unreadable (failure : ReadFailure)
  | document (items : Dict PyStr TomlItem)

/-- The env file: the text that `read_text` returned, with one line break at the end of a line, or a mapping. -/
inductive EnvFile
  | absent
  | unreadable (failure : ReadFailure)
  | text (content : PyStr)
  | mapping (values : Dict PyStr PyStr)

/-- The arguments of `load_config`, with what is read from the files. -/
structure Inputs where
  configFile : ConfigFile
  envFile : EnvFile
  env : Dict PyStr PyStr

/-- What `_load_toml_values` maps: the section, its key, and the setting. -/
def tomlSurface : List (String × String × String) :=
  [("features", "enable_early_ack", "WEBSEARCH_ENABLE_EARLY_ACK"),
    ("features", "enable_background_status", "WEBSEARCH_ENABLE_BACKGROUND_STATUS"),
    ("features", "enable_autoplay_policy", "WEBSEARCH_ENABLE_AUTOPLAY_POLICY"),
    ("features", "early_ack_text", "WEBSEARCH_EARLY_ACK_TEXT"),
    ("features", "release_version", "WEBSEARCH_RELEASE_VERSION"),
    ("stt", "stt_service", "WEBSEARCH_STT_SERVICE"),
    ("stt", "provider", "WEBSEARCH_STT_PROVIDER"),
    ("stt", "model", "WEBSEARCH_STT_MODEL"),
    ("stt", "stt_language", "WEBSEARCH_STT_LANGUAGE"),
    ("stt", "stt_ws_socket", "WEBSEARCH_STT_WS_SOCKET"),
    ("turn", "smart_turn_timeout_seconds", "WEBSEARCH_SMART_TURN_TIMEOUT_SECONDS"),
    ("turn", "smart_turn_complete_grace_seconds", "WEBSEARCH_SMART_TURN_COMPLETE_GRACE_SECONDS"),
    ("turn", "speech_start_timeout_seconds", "WEBSEARCH_SPEECH_START_TIMEOUT_SECONDS"),
    ("turn", "speech_transport_grace_seconds", "WEBSEARCH_SPEECH_TRANSPORT_GRACE_SECONDS"),
    ("turn", "pending_dialogue_timeout_seconds", "WEBSEARCH_PENDING_DIALOGUE_TIMEOUT_SECONDS"),
    ("turn", "foreground_search_timeout_seconds", "WEBSEARCH_FOREGROUND_SEARCH_TIMEOUT_SECONDS"),
    ("turn", "router_timeout_seconds", "WEBSEARCH_ROUTER_TIMEOUT_SECONDS"),
    ("turn", "provider_timeout_seconds", "WEBSEARCH_PROVIDER_TIMEOUT_SECONDS"),
    ("turn", "shutdown_grace_seconds", "WEBSEARCH_SHUTDOWN_GRACE_SECONDS"),
    ("turn", "max_citations", "WEBSEARCH_MAX_CITATIONS"),
    ("models", "router_model", "WEBSEARCH_ROUTER_MODEL"),
    ("models", "worker_model", "WEBSEARCH_WORKER_MODEL"),
    ("models", "router_reasoning_effort", "WEBSEARCH_ROUTER_REASONING_EFFORT"),
    ("models", "worker_reasoning_effort", "WEBSEARCH_WORKER_REASONING_EFFORT"),
    ("tts", "tts_ws_uri", "WEBSEARCH_TTS_WS_URI"),
    ("tts", "tts_ws_socket", "WEBSEARCH_TTS_WS_SOCKET"),
    ("tts", "tts_ws_host", "WEBSEARCH_TTS_WS_HOST"),
    ("tts", "tts_ws_port", "WEBSEARCH_TTS_WS_PORT"),
    ("tts", "provider", "WEBSEARCH_TTS_PROVIDER"),
    ("tts", "model", "WEBSEARCH_TTS_MODEL"),
    ("tts", "voice_id", "WEBSEARCH_TTS_VOICE_ID")]

/-- The table of a section, if it is one; a section that is not there is empty. -/
def tomlSection (items : Dict PyStr TomlItem) (name : String) : Option Mapping :=
  match items.get? (.ofString name) with
  | none => some ∅
  | some (.table entries) => some entries
  | some .other => none

/-- A line of `_load_toml_values`: the setting takes the value of the section's key, if it has one. -/
def copyKey (items : Dict PyStr TomlItem) (values : Mapping) (row : String × String × String) : Mapping :=
  match (tomlSection items row.1).bind (·.get? (.ofString row.2.1)) with
  | none => values
  | some value => values.set (.ofString row.2.2) value

/-- `_load_toml_values`. -/
def loadTomlValues (items : Dict PyStr TomlItem) : Except Failure Mapping :=
  if ["stt", "tts", "turn", "models", "features"].all fun name => (tomlSection items name).isSome then
    .ok (tomlSurface.foldl (copyKey items) ∅)
  else .error (refused "[stt], [tts], [turn], [models], and [features] config sections must be tables")

/-- `line.strip() and not line.lstrip().startswith("#") and "=" in line`, and what is then written. -/
def envFileEntry (line : PyStr) : Option (PyStr × PyStr) :=
  match line.partition (.ofChar '=') with
  | (key, true, value) =>
    if (line.dropWhile CodePoint.isSpace).head? = some (.ofChar '#') then none
    else
      some (key.strip, (value.strip.dropWhile (· ∈ PyStr.ofString "\"'")).rdropWhile (· ∈ PyStr.ofString "\"'"))
  | (_, false, _) => none

/-- `str.splitlines` cuts here. -/
def isLineBreak (c : CodePoint) : Bool :=
  c.val ∈ [0x0A, 0x0B, 0x0C, 0x0D, 0x1C, 0x1D, 0x1E, 0x85, 0x2028, 0x2029]

/-- The values of an env file. -/
def envFileValues (content : PyStr) : Dict PyStr PyStr :=
  ((content.splitOnP isLineBreak).filterMap envFileEntry).foldl (fun values e => values.set e.1 e.2) ∅

/-- The lowest layer. -/
def tomlLayer : ConfigFile → Except Failure Mapping
  | .absent => .ok ∅
  | .invalid path => .error (.configError (.ofString "invalid TOML config: " ++ path))
  | .unreadable failure => .error failure.failure
  | .document items => loadTomlValues items

/-- The middle layer, if there is an env file. -/
def envFileLayer : EnvFile → Except Failure (List (ℤ × Mapping))
  | .absent => .ok []
  | .unreadable failure => .error failure.failure
  | .text content => .ok [(1, (envFileValues content).mapValues Value.str)]
  | .mapping values => .ok (if values.entries = [] then [] else [(1, values.mapValues Value.str)])

/-- `layer_maps`. -/
def layerMaps (inp : Inputs) : Except Failure (List (ℤ × Mapping)) := do
  let toml ← tomlLayer inp.configFile
  let envFile ← envFileLayer inp.envFile
  pure ((0, toml) :: (envFile ++ [(2, inp.env.mapValues Value.str)]))

/-! ## Reading a setting -/

section

variable (rt : Runtime) (values : Mapping)

/-- An integer that is set, or none. -/
def readInteger (name : String) : Except Failure (Option ℤ) :=
  match values.get? (.ofString name) with
  | none => .ok none
  | some raw => (wrap (name ++ " must be an integer") raw.toInt).map some

/-- A number that is set, or the default. -/
def readNumber (name : String) (default : ℚ) : Except Failure PyFloat :=
  match values.get? (.ofString name) with
  | none => .ok (.finite default)
  | some raw => wrap (name ++ " must be a number") (raw.toFloat rt)

/-- `if raw := values.get(name)`: the value where it is truthy. -/
def truthyValue (name : String) : Option Value := (values.get? (.ofString name)).filter Value.truthy

/-- The text of a truthy value, or the default. -/
def readText (name : String) (default : PyStr) : Except Failure PyStr :=
  match truthyValue values name with
  | none => .ok default
  | some raw => raw.text rt

/-- `_parse_strict_bool`. -/
def parseStrictBool (name : String) (raw : Value) : Except Failure Bool :=
  match raw with
  | .bool b => .ok b
  | raw => do
    let text := (← raw.text rt).strip.map CodePoint.asciiLower
    if text = PyStr.ofString "true" then .ok true
    else if text = PyStr.ofString "false" then .ok false
    else .error (refused (name ++ " must be 'true' or 'false'"))

/-- A flag that is set; it is on by default. -/
def readFlag (name : String) : Except Failure Bool :=
  match values.get? (.ofString name) with
  | none => .ok true
  | some raw => parseStrictBool rt name raw

/-- A string that is set, or none. -/
def readString (name : String) : Except Failure (Option PyStr) :=
  match values.get? (.ofString name) with
  | none => .ok none
  | some (.str s) => .ok (some s)
  | some _ => .error (refused (name ++ " must be a string"))

end

/-! ## The settings -/

/-- The vendor credentials. -/
structure Credentials where
  openaiApiKey : Option Value
  deepgramApiKey : Option Value
  cartesiaApiKey : Option Value
  cartesiaVoiceId : Option Value
  deriving DecidableEq

/-- The limits of a turn. -/
structure Limits where
  maxWorkItemsPerTurn : ℤ
  multiIntentWaitTimeoutMs : ℤ
  maxCitations : ℤ
  deriving DecidableEq, Repr

/-- The timeouts and the speech services, as far as the host to bind. -/
structure Services where
  foregroundSearchTimeoutSeconds : PyFloat
  routerTimeoutSeconds : PyFloat
  providerTimeoutSeconds : PyFloat
  shutdownGraceSeconds : PyFloat
  pendingDialogueTimeoutSeconds : PyFloat
  sttService : PyStr
  sttProvider : PyStr
  sttModel : PyStr
  sttLanguage : PyStr
  smartTurnTimeoutSeconds : PyFloat
  smartTurnCompleteGraceSeconds : PyFloat
  speechStartTimeoutSeconds : PyFloat
  speechTransportGraceSeconds : PyFloat
  ttsVoiceId : PyStr
  ttsProvider : PyStr
  ttsModel : PyStr
  bindHost : Value
  deriving DecidableEq

/-- The flags, the release identity, the models and the efforts. -/
structure Policies where
  knownClientUrl : Value
  enableEarlyAck : Bool
  enableBackgroundStatus : Bool
  enableAutoplayPolicy : Bool
  earlyAckText : PyStr
  releaseVersion : PyStr
  sourceCommit : Option PyStr
  sourceTreeHash : Option PyStr
  deployedAtUtc : Option PyStr
  openaiApiKeyEnv : Value
  routerModelPolicy : Dict PyStr PyStr
  workerModelPolicy : Dict PyStr PyStr
  routerReasoningEffortPolicy : Dict PyStr PyStr
  workerReasoningEffortPolicy : Dict PyStr PyStr
  deriving DecidableEq

end ServerConfig

/-- `Config`. -/
structure ServerConfig extends ServerConfig.Credentials, ServerConfig.Limits, ServerConfig.Services,
    ServerConfig.Policies, ServerConfig.Endpoints where
  bindPort : ℤ
  deriving DecidableEq

namespace ServerConfig

/-- The model policy of a role. -/
def modelPolicy (cfg : ServerConfig) : Role → Dict PyStr PyStr
  | .router => cfg.routerModelPolicy
  | .worker => cfg.workerModelPolicy

/-- The reasoning-effort policy of a role. -/
def reasoningEffortPolicy (cfg : ServerConfig) : Role → Dict PyStr PyStr
  | .router => cfg.routerReasoningEffortPolicy
  | .worker => cfg.workerReasoningEffortPolicy

section

variable (rt : Runtime) (values : Mapping)

/-- `_winning_alias_key`, and the value of the key: the scoped spelling, or else the bare one. -/
def aliasValue (scopedKey bareKey : PyStr) : Except Failure (Option Value) := do
  if ← familyKeySet rt (values.get? scopedKey) then pure (values.get? scopedKey)
  else if ← familyKeySet rt (values.get? bareKey) then pure (values.get? bareKey)
  else pure none

/-- The credentials of `load_config`. -/
def loadCredentials : Except Failure Credentials := do
  let keyName ← readText rt values "WEBSEARCH_OPENAI_API_KEY_ENV" (.ofString "OPENAI_API_KEY")
  let openai ← aliasValue rt values (.ofString "WEBSEARCH_OPENAI_API_KEY") keyName
  let deepgram ← aliasValue rt values (.ofString "WEBSEARCH_DEEPGRAM_API_KEY") (.ofString "DEEPGRAM_API_KEY")
  let cartesia ← aliasValue rt values (.ofString "WEBSEARCH_CARTESIA_API_KEY") (.ofString "CARTESIA_API_KEY")
  let voiceId ← aliasValue rt values (.ofString "WEBSEARCH_CARTESIA_VOICE_ID") (.ofString "CARTESIA_VOICE_ID")
  pure ⟨openai, deepgram, cartesia, voiceId⟩

/-- The integer settings of a turn. -/
def loadLimits : Except Failure Limits := do
  let workItems ← readInteger values "WEBSEARCH_MAX_WORK_ITEMS_PER_TURN"
  let waitTimeoutMs ← readInteger values "WEBSEARCH_MULTI_INTENT_WAIT_TIMEOUT_MS"
  let citations ← readInteger values "WEBSEARCH_MAX_CITATIONS"
  pure ⟨workItems.getD 2, waitTimeoutMs.getD 10000, citations.getD 12⟩

/-- The timeouts and the speech services, as far as the host to bind. -/
def loadServices : Except Failure Services := do
  let foregroundSearchTimeoutSeconds ← readNumber rt values "WEBSEARCH_FOREGROUND_SEARCH_TIMEOUT_SECONDS" 15
  let routerTimeoutSeconds ← readNumber rt values "WEBSEARCH_ROUTER_TIMEOUT_SECONDS" 12
  let providerTimeoutSeconds ← readNumber rt values "WEBSEARCH_PROVIDER_TIMEOUT_SECONDS" 75
  let shutdownGraceSeconds ← readNumber rt values "WEBSEARCH_SHUTDOWN_GRACE_SECONDS" 2
  let pendingDialogueTimeoutSeconds ← readNumber rt values "WEBSEARCH_PENDING_DIALOGUE_TIMEOUT_SECONDS" 30
  let sttService ← readText rt values "WEBSEARCH_STT_SERVICE" (.ofString "websocket")
  let sttProvider ← readText rt values "WEBSEARCH_STT_PROVIDER" (.ofString "local")
  let sttModel ← readText rt values "WEBSEARCH_STT_MODEL" (.ofString "nova-3-general")
  let sttLanguage ← readText rt values "WEBSEARCH_STT_LANGUAGE" (.ofString "en")
  let smartTurnTimeoutSeconds ← readNumber rt values "WEBSEARCH_SMART_TURN_TIMEOUT_SECONDS" 5
  let smartTurnCompleteGraceSeconds ← readNumber rt values "WEBSEARCH_SMART_TURN_COMPLETE_GRACE_SECONDS" (3 / 2)
  let speechStartTimeoutSeconds ← readNumber rt values "WEBSEARCH_SPEECH_START_TIMEOUT_SECONDS" 10
  let speechTransportGraceSeconds ← readNumber rt values "WEBSEARCH_SPEECH_TRANSPORT_GRACE_SECONDS" 1
  let ttsVoiceId ← readText rt values "WEBSEARCH_TTS_VOICE_ID" (.ofString "azelma")
  let ttsProvider ← readText rt values "WEBSEARCH_TTS_PROVIDER" (.ofString "local")
  let ttsModel ← readText rt values "WEBSEARCH_TTS_MODEL" (.ofString "sonic-3.5")
  let bindHost := (values.get? (.ofString "WEBSEARCH_BIND_HOST")).getD (.str (.ofString "127.0.0.1"))
  pure { foregroundSearchTimeoutSeconds, routerTimeoutSeconds, providerTimeoutSeconds, shutdownGraceSeconds,
         pendingDialogueTimeoutSeconds, sttService, sttProvider, sttModel, sttLanguage, smartTurnTimeoutSeconds,
         smartTurnCompleteGraceSeconds, speechStartTimeoutSeconds, speechTransportGraceSeconds, ttsVoiceId,
         ttsProvider, ttsModel, bindHost }

/-- The port to bind. -/
def loadBindPort : Except Failure ℤ :=
  match values.get? (.ofString "WEBSEARCH_BIND_PORT") with
  | none => .ok 7860
  | some raw => wrapValueError "WEBSEARCH_BIND_PORT must be an integer" raw.toInt

/-- The models of a role: its one label is that of the default. -/
def readModelPolicy (r : Role) (label default : String) : Except Failure (Dict PyStr PyStr) :=
  match (values.get? r.modelKey).filter Value.truthy with
  | none => .ok ((∅ : Dict PyStr PyStr).set (.ofString label) (.ofString default))
  | some raw => (raw.text rt).map fun model => (∅ : Dict PyStr PyStr).set (.ofString label) model

/-- The reasoning efforts of a role, of the labels that are registered (`_registered_policy_labels`). -/
def readReasoningEffortPolicy (r : Role) (modelPolicy : Dict PyStr PyStr) : Except Failure (Dict PyStr PyStr) :=
  match (values.get? r.effortKey).filter Value.truthy with
  | none => .ok ∅
  | some raw => (raw.text rt).map fun effort => modelPolicy.mapValues fun _ => effort

/-- The settings after the port to bind, as far as the endpoint families. -/
def loadPolicies : Except Failure Policies := do
  let knownClientUrl :=
    (values.get? (.ofString "WEBSEARCH_KNOWN_CLIENT_URL")).getD (.str (.ofString "http://127.0.0.1:7860"))
  let enableEarlyAck ← readFlag rt values "WEBSEARCH_ENABLE_EARLY_ACK"
  let enableBackgroundStatus ← readFlag rt values "WEBSEARCH_ENABLE_BACKGROUND_STATUS"
  let enableAutoplayPolicy ← readFlag rt values "WEBSEARCH_ENABLE_AUTOPLAY_POLICY"
  let earlyAckText ← readString values "WEBSEARCH_EARLY_ACK_TEXT"
  let releaseVersion ← readString values "WEBSEARCH_RELEASE_VERSION"
  let sourceCommit ← readString values "PIPECAT_SOURCE_COMMIT"
  let sourceTreeHash ← readString values "PIPECAT_SOURCE_TREE_HASH"
  let deployedAtUtc ← readString values "PIPECAT_DEPLOYED_AT_UTC"
  let openaiApiKeyEnv := (truthyValue values "WEBSEARCH_OPENAI_API_KEY_ENV").getD (.str (.ofString "OPENAI_API_KEY"))
  let routerModelPolicy ← readModelPolicy rt values .router "fast" "gpt-5-mini"
  let workerModelPolicy ← readModelPolicy rt values .worker "deep" "gpt-5"
  let routerReasoningEffortPolicy ← readReasoningEffortPolicy rt values .router routerModelPolicy
  let workerReasoningEffortPolicy ← readReasoningEffortPolicy rt values .worker workerModelPolicy
  pure { knownClientUrl, enableEarlyAck, enableBackgroundStatus, enableAutoplayPolicy,
         earlyAckText := earlyAckText.getD (.ofString "One moment while I look into that."),
         releaseVersion := releaseVersion.getD rt.defaultReleaseVersion, sourceCommit, sourceTreeHash, deployedAtUtc,
         openaiApiKeyEnv, routerModelPolicy, workerModelPolicy, routerReasoningEffortPolicy,
         workerReasoningEffortPolicy }

end

/-! ## The checks of a configuration -/

/-- `if p: raise ConfigError(message)`. -/
def refuseIf (p : Prop) [Decidable p] (message : String) : Except Failure Unit :=
  if p then .error (refused message) else .ok ()

/-- `_is_loopback_host`. -/
def isLoopbackHost (rt : Runtime) (value : PyStr) : Bool :=
  let host := (value.strip.dropWhile (· ∈ PyStr.ofString "[]")).rdropWhile (· ∈ PyStr.ofString "[]")
  host.map CodePoint.asciiLower = PyStr.ofString "localhost" || rt.isLoopback host

/-- `[A-Za-z]{2,3}(?:[-_][A-Za-z]{2,4})?`. -/
def isLanguageCode (s : PyStr) : Bool :=
  let language := s.takeWhile CodePoint.isAsciiLetter
  decide (2 ≤ language.length ∧ language.length ≤ 3) &&
    match s.dropWhile CodePoint.isAsciiLetter with
    | [] => true
    | sep :: region =>
      decide (sep ∈ PyStr.ofString "-_") && decide (2 ≤ region.length ∧ region.length ≤ 4) &&
        region.all CodePoint.isAsciiLetter

/-- `_parse_utc_timestamp`, as far as it raises. -/
def parseUtcTimestamp (rt : Runtime) (value : PyStr) : Except Failure Unit :=
  let text := value.strip
  let text := if text.getLast? ∈ (PyStr.ofString "Zz").map some then text.dropLast ++ PyStr.ofString "+00:00" else text
  match rt.isoformatRaises text with
  | none => .ok ()
  | some raised => .error raised.failure

/-- `_models`. -/
def checkModels (policy : Dict PyStr PyStr) : Except Failure Unit :=
  refuseIf (policy.entries = [] ∨ policy.entries.any fun e => e.1 = [] || e.2 = [])
    "model policies must contain non-empty labels and model IDs"

/-- The body of the loop of `_reasoning_efforts`. -/
def checkEffort (rt : Runtime) (e : PyStr × PyStr) : Except Failure Unit :=
  if e.1 = [] then .error (refused "reasoning-effort policies must contain non-empty labels")
  else if e.2 ∉ rt.validReasoningEfforts then
    .error (.configError (.ofString "unsupported reasoning effort: " ++ rt.quote e.2))
  else .ok ()

/-- The labels of an effort policy are labels of the model policy. -/
def checkLabels (rt : Runtime) (role : String) (efforts models : Dict PyStr PyStr) : Except Failure Unit :=
  let unknown := (efforts.keys.filter (· ∉ models.keys)).mergeSort fun a b => decide (a ≤ b)
  if unknown = [] then .ok ()
  else
    .error (.configError (.ofString (role ++ "_reasoning_effort_policy has labels not present in " ++ role ++
      "_model_policy: [") ++ (PyStr.ofString ", ").intercalate (unknown.map rt.quote) ++ .ofString "]"))

/-- The loop over the timeouts. -/
def checkFinitePositive (name : String) (x : PyFloat) : Except Failure Unit :=
  refuseIf (x.isFinite = false ∨ x.le (.finite 0) = true) (name ++ " must be finite and positive")

/-- `Config.__post_init__`. -/
def checks (rt : Runtime) (cfg : ServerConfig) : List (Except Failure Unit) :=
  [refuseIf (cfg.maxWorkItemsPerTurn ∉ [2, 3, 4]) "max_work_items_per_turn must be 2, 3, or 4",
    refuseIf (cfg.multiIntentWaitTimeoutMs ≤ 0) "multi_intent_wait_timeout_ms must be positive",
    checkFinitePositive "foreground_search_timeout_seconds" cfg.foregroundSearchTimeoutSeconds,
    checkFinitePositive "router_timeout_seconds" cfg.routerTimeoutSeconds,
    checkFinitePositive "provider_timeout_seconds" cfg.providerTimeoutSeconds,
    checkFinitePositive "shutdown_grace_seconds" cfg.shutdownGraceSeconds,
    checkFinitePositive "speech_start_timeout_seconds" cfg.speechStartTimeoutSeconds,
    checkFinitePositive "speech_transport_grace_seconds" cfg.speechTransportGraceSeconds,
    refuseIf (cfg.providerTimeoutSeconds.le cfg.foregroundSearchTimeoutSeconds = true)
      "provider_timeout_seconds must exceed foreground_search_timeout_seconds",
    refuseIf (cfg.providerTimeoutSeconds.lt cfg.routerTimeoutSeconds = true)
      "router_timeout_seconds must not exceed provider_timeout_seconds",
    refuseIf (¬(1 ≤ cfg.maxCitations ∧ cfg.maxCitations ≤ 50)) "max_citations must be between 1 and 50",
    checkFinitePositive "pending_dialogue_timeout_seconds" cfg.pendingDialogueTimeoutSeconds,
    cfg.bindHost.asStr >>= fun host => refuseIf (host.isBlank = true) "bind_host must not be empty",
    cfg.bindHost.asStr >>= fun host => refuseIf (isLoopbackHost rt host = false)
      "bind_host must be loopback; remote deployment requires an authenticated transport",
    refuseIf (¬(1 ≤ cfg.bindPort ∧ cfg.bindPort ≤ 65535)) "bind_port must be between 1 and 65535",
    cfg.knownClientUrl.asStr >>= fun url =>
      orRaise .valueError (ParsedUrl.urlparse rt.acceptsNetloc url) >>= fun parsed =>
        refuseIf (parsed.scheme ∉ ["http", "https"].map PyStr.ofString ∨ parsed.netloc = [])
          "known_client_url must be an absolute http(s) URL",
    cfg.openaiApiKeyEnv.asStr >>= fun name => refuseIf (rt.isIdentifier name = false ∨ rt.isUpper name = false)
      "openai_api_key_env must be an uppercase environment variable name",
    refuseIf (cfg.sttService ≠ .ofString "websocket") "stt_service must be websocket",
    refuseIf (cfg.sttProvider ∉ ["local", "deepgram"].map PyStr.ofString) "stt_provider must be local or deepgram",
    refuseIf (cfg.sttModel.isBlank = true) "stt_model must not be empty",
    refuseIf (cfg.sttLanguage ≠ .ofString "auto" ∧ isLanguageCode cfg.sttLanguage = false)
      "stt_language must be auto or an ISO language code",
    refuseIf (¬(PyFloat.lt (.finite 0) cfg.smartTurnTimeoutSeconds ∧ cfg.smartTurnTimeoutSeconds.le (.finite 60)))
      "smart_turn_timeout_seconds must be between 0 and 60",
    refuseIf (¬(PyFloat.lt (.finite 0) cfg.smartTurnCompleteGraceSeconds ∧
      cfg.smartTurnCompleteGraceSeconds.le (.finite 10))) "smart_turn_complete_grace_seconds must be between 0 and 10",
    refuseIf (cfg.ttsProvider ∉ ["local", "cartesia"].map PyStr.ofString) "tts_provider must be local or cartesia",
    refuseIf (cfg.ttsModel.isBlank = true) "tts_model must not be empty",
    refuseIf (cfg.ttsVoiceId.isBlank = true) "tts_voice_id must not be empty",
    refuseIf (cfg.earlyAckText.isBlank = true) "early_ack_text must not be empty",
    refuseIf (cfg.releaseVersion.isBlank = true) "release_version must not be empty",
    match cfg.deployedAtUtc with
    | none => .ok ()
    | some value => wrapValueError "deployed_at_utc must be an ISO-8601 UTC timestamp" (parseUtcTimestamp rt value),
    checkModels cfg.routerModelPolicy,
    checkModels cfg.workerModelPolicy,
    Checks.runAll (cfg.routerReasoningEffortPolicy.entries.map (checkEffort rt)),
    Checks.runAll (cfg.workerReasoningEffortPolicy.entries.map (checkEffort rt)),
    checkLabels rt "router" cfg.routerReasoningEffortPolicy cfg.routerModelPolicy,
    checkLabels rt "worker" cfg.workerReasoningEffortPolicy cfg.workerModelPolicy]

/-! ## `load_config` -/

/-- The settings before the endpoint families are resolved. -/
structure Settings extends Credentials, Limits, Services, Policies where
  bindPort : ℤ
  values : Mapping
  layerMaps : List (ℤ × Mapping)

/-- The configuration of some settings and endpoints. -/
def Settings.config (s : Settings) (endpoints : Endpoints) : ServerConfig :=
  ⟨s.toCredentials, s.toLimits, s.toServices, s.toPolicies, endpoints, s.bindPort⟩

section

variable (rt : Runtime) (inp : Inputs)

/-- The merged values, after the inherited efforts are cleared, and the layers; the env file is read when the lowest
layer has been applied. -/
def loadValues : Except Failure (Mapping × List (ℤ × Mapping)) := do
  let toml ← tomlLayer inp.configFile
  let m ← applyLayers rt [(0, toml)]
  let envFile ← envFileLayer inp.envFile
  let rest := envFile ++ [(2, inp.env.mapValues Value.str)]
  let m ← rest.foldlM (applyLayer rt) m
  pure (clearInheritedReasoningEffort m, (0, toml) :: rest)

/-- `load_config`, before the endpoint families are resolved. -/
def loadSettings : Except Failure Settings := do
  let (values, layerMaps) ← loadValues rt inp
  let credentials ← loadCredentials rt values
  let limits ← loadLimits values
  let services ← loadServices rt values
  let bindPort ← loadBindPort values
  let policies ← loadPolicies rt values
  pure ⟨credentials, limits, services, policies, bindPort, values, layerMaps⟩

/-- `load_config`. -/
def loadConfig : Except Failure ServerConfig := do
  let s ← loadSettings rt inp
  let endpoints ← loadEndpoints rt s.values s.layerMaps
  Checks.runAll ((s.config endpoints).checks rt)
  pure (s.config endpoints)

end

/-! ## The layers are layers -/

/-- What `config.toml` says of a key that is none of its settings. -/
theorem get?_loadTomlValues {items : Dict PyStr TomlItem} {toml : Mapping} (h : loadTomlValues items = .ok toml)
    {key : PyStr} (hkey : ∀ row ∈ tomlSurface, key ≠ .ofString row.2.2) : toml.get? key = none := by
  have hrows : ∀ (rows : List (String × String × String)) (values : Mapping),
      (∀ row ∈ rows, key ≠ .ofString row.2.2) → values.get? key = none →
      (rows.foldl (copyKey items) values).get? key = none := by
    intro rows
    induction rows with
    | nil => exact fun values _ hnone => hnone
    | cons row rows ih =>
      intro values hne hnone
      refine ih _ (fun row' hrow' => hne row' (List.mem_cons_of_mem _ hrow')) ?_
      rw [copyKey]
      split
      · exact hnone
      · rw [Dict.get?_set, if_neg (hne row List.mem_cons_self), hnone]
  rw [loadTomlValues] at h
  split_ifs at h
  cases h
  exact hrows tomlSurface ∅ hkey rfl

/-- The layer of `config.toml`, and those of strings. -/
theorem layerMaps_ok {inp : Inputs} {layers : List (ℤ × Mapping)} (h : layerMaps inp = .ok layers) :
    ∃ toml rest, layers = (0, toml) :: rest ∧
      (∀ key, (∀ row ∈ tomlSurface, key ≠ .ofString row.2.2) → toml.get? key = none) ∧
      (rest.map Prod.fst = [2] ∨ rest.map Prod.fst = [1, 2]) ∧
      ∀ e ∈ rest, ∃ d : Dict PyStr PyStr, e.2 = d.mapValues Value.str := by
  obtain ⟨toml, htoml, h⟩ := Checks.bind_eq_ok_iff.mp h
  obtain ⟨envFile, hread, heq⟩ := Checks.bind_eq_ok_iff.mp h
  have hsurface : ∀ key, (∀ row ∈ tomlSurface, key ≠ .ofString row.2.2) → toml.get? key = none := by
    intro key hkey
    rcases hfile : inp.configFile with _ | path | failure | items <;> rw [hfile] at htoml
    · cases htoml
      rfl
    · cases htoml
    · cases htoml
    · exact get?_loadTomlValues htoml hkey
  have henvFile : (envFile.map Prod.fst = [] ∨ envFile.map Prod.fst = [1]) ∧
      ∀ e ∈ envFile, ∃ d : Dict PyStr PyStr, e.2 = d.mapValues Value.str := by
    rcases hfile : inp.envFile with _ | failure | content | values <;> rw [hfile] at hread
    · cases hread
      exact ⟨.inl rfl, fun e he => (nomatch he)⟩
    · cases hread
    · cases hread
      exact ⟨.inr rfl, fun e he => ⟨envFileValues content, by rw [List.mem_singleton.mp he]⟩⟩
    · cases hread
      split_ifs
      · exact ⟨.inl rfl, fun e he => (nomatch he)⟩
      · exact ⟨.inr rfl, fun e he => ⟨values, by rw [List.mem_singleton.mp he]⟩⟩
  cases heq
  refine ⟨toml, _, rfl, hsurface, ?_, ?_⟩
  · rw [List.map_append]
    rcases henvFile.1 with hn | hn <;> rw [hn]
    · exact .inl rfl
    · exact .inr rfl
  · intro e he
    rcases List.mem_append.mp he with he | he
    · exact henvFile.2 e he
    · exact ⟨inp.env, by rw [List.mem_singleton.mp he]⟩

theorem eq_str_of_mapValues {d : Dict PyStr PyStr} {key : PyStr} {v : Value}
    (h : (d.mapValues Value.str).get? key = some v) : ∃ s, v = .str s := by
  rw [Dict.get?_mapValues, Option.map_eq_some_iff] at h
  obtain ⟨s, -, rfl⟩ := h
  exact ⟨s, rfl⟩

theorem layered_layerMaps {inp : Inputs} {layers : List (ℤ × Mapping)} (h : layerMaps inp = .ok layers) :
    Layered layers := by
  obtain ⟨toml, rest, rfl, -, hnumbers, hrest⟩ := layerMaps_ok h
  have hfst : (List.map Prod.fst ((0, toml) :: rest)).Pairwise (· < ·) ∧
      ∀ n ∈ List.map Prod.fst ((0, toml) :: rest), (0 : ℤ) ≤ n := by
    rw [List.map_cons]
    rcases hnumbers with hn | hn <;> rw [hn] <;> simp
  refine ⟨List.pairwise_map.mp hfst.1, fun e he => hfst.2 e.1 (List.mem_map_of_mem he), fun e he key v hv => ?_⟩
  obtain ⟨d, hd⟩ := hrest e he
  exact eq_str_of_mapValues (hd ▸ hv)

/-- A setting that `config.toml` does not have is a string. -/
theorem eq_str_of_merged {rt : Runtime} {inp : Inputs} {layers : List (ℤ × Mapping)} (h : layerMaps inp = .ok layers)
    {key : PyStr} (hkey : ∀ row ∈ tomlSurface, key ≠ .ofString row.2.2) {v : Value}
    (hv : merged rt key layers = some v) : ∃ s, v = .str s := by
  obtain ⟨toml, rest, rfl, htoml, -, hrest⟩ := layerMaps_ok h
  have hsaid : ∀ e ∈ (0, toml) :: rest, ∀ v, said rt key e.2 = some v → ∃ s, v = .str s := by
    intro e he v hv
    have hget : e.2.get? key = some v := by
      rw [said] at hv
      split_ifs at hv
      · exact (Option.filter_eq_some_iff.mp hv).1
      · exact hv
    rcases List.mem_cons.mp he with rfl | he
    · rw [htoml key hkey] at hget
      cases hget
    · obtain ⟨d, hd⟩ := hrest e he
      exact eq_str_of_mapValues (hd ▸ hget)
  have hfold : ∀ (maps : List (ℤ × Mapping)), (∀ e ∈ maps, ∀ v, said rt key e.2 = some v → ∃ s, v = .str s) →
      ∀ v, merged rt key maps = some v → ∃ s, v = .str s := by
    intro maps
    induction maps using List.reverseRecOn with
    | nil => exact fun _ v hv => absurd hv (Option.some_ne_none v).symm
    | append_singleton maps e ih =>
      intro hall v hv
      rw [merged_concat, Option.or_eq_some_iff] at hv
      rcases hv with hv | ⟨-, hv⟩
      · exact hall e (by simp) v hv
      · exact ih (fun e' he' => hall e' (List.mem_append_left _ he')) v hv
  exact hfold _ hsaid v hv

/-! ## What a configuration that is returned went through -/

theorem loadValues_ok {rt : Runtime} {inp : Inputs} {values : Mapping} {layers : List (ℤ × Mapping)}
    (h : loadValues rt inp = .ok (values, layers)) :
    layerMaps inp = .ok layers ∧
      ∃ m, applyLayers rt layers = .ok m ∧ values = clearInheritedReasoningEffort m ∧
        ∀ key, (∀ r : Role, key ≠ r.effortKey) → values.get? key = merged rt key layers := by
  obtain ⟨toml, htoml, h⟩ := Checks.bind_eq_ok_iff.mp h
  obtain ⟨m₀, hm₀, h⟩ := Checks.bind_eq_ok_iff.mp h
  obtain ⟨envFile, henvFile, h⟩ := Checks.bind_eq_ok_iff.mp h
  obtain ⟨m, hm, heq⟩ := Checks.bind_eq_ok_iff.mp h
  cases heq
  have hlayers : layerMaps inp = .ok ((0, toml) :: (envFile ++ [(2, inp.env.mapValues Value.str)])) :=
    Checks.bind_eq_ok_iff.mpr ⟨toml, htoml, Checks.bind_eq_ok_iff.mpr ⟨envFile, henvFile, rfl⟩⟩
  have hmerged : applyLayers rt ((0, toml) :: (envFile ++ [(2, inp.env.mapValues Value.str)])) = .ok m := by
    rw [applyLayers, ← List.singleton_append, List.foldlM_append]
    exact Checks.bind_eq_ok_iff.mpr ⟨m₀, hm₀, hm⟩
  exact ⟨hlayers, m, hmerged, rfl, fun key hkey => by
    rw [get?_clearInheritedReasoningEffort_of_ne hkey, get?_applyLayers hmerged]⟩

/-- The settings were loaded one after the other. -/
theorem loadSettings_ok {rt : Runtime} {inp : Inputs} {s : Settings} (h : loadSettings rt inp = .ok s) :
    loadValues rt inp = .ok (s.values, s.layerMaps) ∧ loadCredentials rt s.values = .ok s.toCredentials ∧
      loadLimits s.values = .ok s.toLimits ∧ loadServices rt s.values = .ok s.toServices ∧
      loadBindPort s.values = .ok s.bindPort ∧ loadPolicies rt s.values = .ok s.toPolicies := by
  obtain ⟨⟨values, layers⟩, hvalues, h⟩ := Checks.bind_eq_ok_iff.mp h
  obtain ⟨credentials, hcredentials, h⟩ := Checks.bind_eq_ok_iff.mp h
  obtain ⟨limits, hlimits, h⟩ := Checks.bind_eq_ok_iff.mp h
  obtain ⟨services, hservices, h⟩ := Checks.bind_eq_ok_iff.mp h
  obtain ⟨bindPort, hbindPort, h⟩ := Checks.bind_eq_ok_iff.mp h
  obtain ⟨policies, hpolicies, heq⟩ := Checks.bind_eq_ok_iff.mp h
  cases heq
  exact ⟨hvalues, hcredentials, hlimits, hservices, hbindPort, hpolicies⟩

/-- The configuration is that of the settings and the endpoints, and passes its checks. -/
theorem loadConfig_ok {rt : Runtime} {inp : Inputs} {cfg : ServerConfig} (h : loadConfig rt inp = .ok cfg) :
    ∃ s endpoints, loadSettings rt inp = .ok s ∧ loadEndpoints rt s.values s.layerMaps = .ok endpoints ∧
      cfg = s.config endpoints ∧ ∀ c ∈ cfg.checks rt, c = .ok () := by
  obtain ⟨s, hs, h⟩ := Checks.bind_eq_ok_iff.mp h
  obtain ⟨endpoints, hendpoints, h⟩ := Checks.bind_eq_ok_iff.mp h
  obtain ⟨hchecks, heq⟩ := Checks.check_eq_ok_iff.mp h
  cases heq
  exact ⟨s, endpoints, hs, hendpoints, rfl, Checks.runAll_eq_ok_iff.mp hchecks⟩

/-- The models and the efforts were read one after the other. -/
theorem loadPolicies_ok {rt : Runtime} {values : Mapping} {policies : Policies} (h : loadPolicies rt values = .ok policies) :
    readModelPolicy rt values .router "fast" "gpt-5-mini" = .ok policies.routerModelPolicy ∧
      readModelPolicy rt values .worker "deep" "gpt-5" = .ok policies.workerModelPolicy ∧
      readReasoningEffortPolicy rt values .router policies.routerModelPolicy = .ok policies.routerReasoningEffortPolicy ∧
      readReasoningEffortPolicy rt values .worker policies.workerModelPolicy = .ok policies.workerReasoningEffortPolicy := by
  obtain ⟨_, -, h⟩ := Checks.bind_eq_ok_iff.mp h
  obtain ⟨_, -, h⟩ := Checks.bind_eq_ok_iff.mp h
  obtain ⟨_, -, h⟩ := Checks.bind_eq_ok_iff.mp h
  obtain ⟨_, -, h⟩ := Checks.bind_eq_ok_iff.mp h
  obtain ⟨_, -, h⟩ := Checks.bind_eq_ok_iff.mp h
  obtain ⟨_, -, h⟩ := Checks.bind_eq_ok_iff.mp h
  obtain ⟨_, -, h⟩ := Checks.bind_eq_ok_iff.mp h
  obtain ⟨_, -, h⟩ := Checks.bind_eq_ok_iff.mp h
  obtain ⟨_, hrouterModel, h⟩ := Checks.bind_eq_ok_iff.mp h
  obtain ⟨_, hworkerModel, h⟩ := Checks.bind_eq_ok_iff.mp h
  obtain ⟨_, hrouterEffort, h⟩ := Checks.bind_eq_ok_iff.mp h
  obtain ⟨_, hworkerEffort, heq⟩ := Checks.bind_eq_ok_iff.mp h
  cases heq
  exact ⟨hrouterModel, hworkerModel, hrouterEffort, hworkerEffort⟩

/-! ## A runtime to evaluate with -/

/-- A runtime that reads no numbers with a point, has no users, and takes every name for a good one. -/
def Runtime.sample : Runtime where
  floatText _ := .ofString "nan"
  readFloat _ := none
  quote s := .ofString "'" ++ s ++ .ofString "'"
  expanduser := some
  isLoopback s := s = .ofString "127.0.0.1"
  acceptsNetloc _ := true
  isIdentifier _ := true
  isUpper _ := true
  isoformatRaises _ := none
  validReasoningEfforts := ["none", "minimal", "low", "medium", "high", "xhigh", "max"].map .ofString
  defaultReleaseVersion := .ofString "0.1.4"
  floatText_spec _ := by decide +kernel

/-- A mapping with these values. -/
def mappingOf {α : Type} (values : List (String × α)) : Dict PyStr α :=
  values.foldl (fun d e => d.set (.ofString e.1) e.2) ∅

end ServerConfig

end SubagentsLab

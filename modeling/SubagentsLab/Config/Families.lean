import SubagentsLab.Config.Layers
import SubagentsLab.Machinery.Priority

/-!
# Config/Families — the endpoint families

An endpoint has several spellings, of which the host and port of text-to-speech are one.  `load_config`
takes the spelling that is set at the highest layer, and of several there the one declared first
(`winningFamilyMember`); presence is judged by the merged values, the layer by the layers themselves, so that
a key that a higher layer erased counts nowhere.  `Selects` says the same of the layers alone.
-/

namespace SubagentsLab

open Machinery

namespace ServerConfig

/-- A transport and an address. -/
abbrev Endpoint := PyStr × PyStr

/-- The name of a family member. -/
inductive Spelling
  | endpoint
  | uri
  | socket
  | hostPort
  deriving DecidableEq, Repr

/-- The members of a family, in declaration order, with their keys. -/
abbrev Members := List (Spelling × List PyStr)

def ttsHostKey : PyStr := .ofString "WEBSEARCH_TTS_WS_HOST"

def ttsPortKey : PyStr := .ofString "WEBSEARCH_TTS_WS_PORT"

/-- `_STT_ENDPOINT_MEMBERS`. -/
def sttEndpointMembers : Members :=
  [(.endpoint, [.ofString "WEBSEARCH_STT_ENDPOINT"]),
    (.socket, [.ofString "WEBSEARCH_STT_WS_SOCKET"])]

/-- `_TTS_ENDPOINT_MEMBERS`. -/
def ttsEndpointMembers : Members :=
  [(.endpoint, [.ofString "WEBSEARCH_TTS_ENDPOINT"]),
    (.uri, [.ofString "WEBSEARCH_TTS_WS_URI"]),
    (.socket, [.ofString "WEBSEARCH_TTS_WS_SOCKET"]),
    (.hostPort, [ttsHostKey, ttsPortKey])]

section

variable (rt : Runtime)

/-- `_family_key_set`. -/
def familyKeySet (value : Option Value) : Except Failure Bool :=
  match value with
  | none => .ok false
  | some value => (value.text rt).map fun text => !text.isBlank

/-- `_family_keys`. -/
def familyKeys (members : Members) : List PyStr := members.flatMap Prod.snd

/-- The highest layer that set a key, or `-1`: the values of `_family_layers`. -/
def familyLayer (values : Mapping) (layerMaps : List (ℤ × Mapping)) (key : PyStr) : Except Failure ℤ := do
  if ← familyKeySet rt (values.get? key) then
    let flagged ← layerMaps.mapM fun e => (familyKeySet rt (e.2.get? key)).map fun set => (e.1, set)
    pure (((flagged.filter Prod.snd).map Prod.fst).max?.getD (-1))
  else pure (-1)

/-- `_family_layers`. -/
def familyLayers (values : Mapping) (layerMaps : List (ℤ × Mapping)) (keys : List PyStr) :
    Except Failure (List (PyStr × ℤ)) :=
  keys.mapM fun key => (familyLayer rt values layerMaps key).map fun layer => (key, layer)

/-- `layers.get(key, -1)`. -/
def layerIn (layers : List (PyStr × ℤ)) (key : PyStr) : ℤ := (Dict.find key layers).getD (-1)

/-- `max(layers.get(key, -1) for key in keys)`. -/
def memberLayer (layers : List (PyStr × ℤ)) (keys : List PyStr) : ℤ := ((keys.map (layerIn layers)).max?).getD (-1)

/-- `_winning_family_member`. -/
def winningFamilyMember (values : Mapping) (layers : List (PyStr × ℤ)) (members : Members) :
    Except Failure (Option Spelling) := do
  let flagged ← members.mapM fun m =>
    (m.2.allM fun key => familyKeySet rt (values.get? key)).map fun complete => (m, complete)
  let present := flagged.filter Prod.snd
  pure ((Priority.firstMax (fun p => memberLayer layers p.1.2) present).map fun p => p.1.1)

/-- `_winning_family_layer`. -/
def winningFamilyLayer (layers : List (PyStr × ℤ)) (members : Members) (winner : Option Spelling) : ℤ :=
  match winner with
  | none => -1
  | some name => ((members.find? (·.1 = name)).map fun m => memberLayer layers m.2).getD (-1)

/-! ## Building an endpoint -/

/-- `s.split(sep, 1)`, where the separator occurs. -/
def splitOnce (sep : PyStr) : PyStr → Option (PyStr × PyStr)
  | [] => none
  | c :: s =>
    if sep <+: c :: s then some ([], (c :: s).drop sep.length)
    else (splitOnce sep s).map fun p => (c :: p.1, p.2)

/-- `_expand_socket`. -/
def expandSocket (value : PyStr) : Except Failure PyStr := do
  let address := (← orRaise .valueError (rt.expanduser value)).strip
  if address = [] then .error (refused "service socket path must not be empty") else .ok address

/-- `parse_endpoint`. -/
def parseEndpoint (value : PyStr) : Except Failure Endpoint :=
  match splitOnce (.ofString "://") value with
  | none => .error (refused "service endpoints must use transport://address form")
  | some (transport, address) =>
    if transport ∉ ["uds", "tcp", "ws", "wss"].map PyStr.ofString ∨ address = [] then
      .error (refused "unsupported or empty service endpoint")
    else if transport = .ofString "uds" then (expandSocket rt address).map (transport, ·)
    else .ok (transport, address)

/-- `values[key]`. -/
def subscript (values : Mapping) (key : PyStr) : Except Failure Value := orRaise .keyError (values.get? key)

/-- `str(values.get(key))`. -/
def textOrNone (value : Option Value) : Except Failure PyStr :=
  match value with
  | none => .ok (.ofString "None")
  | some value => value.text rt

/-- `parse_endpoint(str(values[key]))`. -/
def buildParsed (key : String) (values : Mapping) : Except Failure Endpoint := do
  let value ← subscript values (.ofString key)
  parseEndpoint rt (← value.text rt)

/-- `("uds", _expand_socket(str(values[key])))`. -/
def buildSocket (key : String) (values : Mapping) : Except Failure Endpoint := do
  let value ← subscript values (.ofString key)
  (expandSocket rt (← value.text rt)).map (PyStr.ofString "uds", ·)

/-- The host and port of text-to-speech. -/
def buildHostPort (values : Mapping) : Except Failure Endpoint := do
  let port ← wrapValueError "WEBSEARCH_TTS_WS_PORT must be an integer" do
    orRaise .valueError (← textOrNone rt (values.get? ttsPortKey)).readInteger
  if ¬(1 ≤ port ∧ port ≤ 65535) then .error (refused "WEBSEARCH_TTS_WS_PORT must be between 1 and 65535")
  else do
    let host ← textOrNone rt (values.get? ttsHostKey)
    let port ← (Value.int port).text rt
    pure (.ofString "ws", host ++ .ofString ":" ++ port)

/-- `_build_stt_endpoint`. -/
def buildSttEndpoint (member : Option Spelling) (values : Mapping) : Except Failure (Option Endpoint) :=
  match member with
  | some .endpoint => (buildParsed rt "WEBSEARCH_STT_ENDPOINT" values).map some
  | some .socket => (buildSocket rt "WEBSEARCH_STT_WS_SOCKET" values).map some
  | _ => .ok none

/-- `_build_tts_endpoint`. -/
def buildTtsEndpoint (member : Option Spelling) (values : Mapping) : Except Failure (Option Endpoint) :=
  match member with
  | some .endpoint => (buildParsed rt "WEBSEARCH_TTS_ENDPOINT" values).map some
  | some .uri => (buildParsed rt "WEBSEARCH_TTS_WS_URI" values).map some
  | some .socket => (buildSocket rt "WEBSEARCH_TTS_WS_SOCKET" values).map some
  | some .hostPort => (buildHostPort rt values).map some
  | none => .ok none

/-! ## The families of `load_config` -/

/-- A row of `_ENDPOINT_FAMILIES`, by the field of `Config` it is for. -/
inductive Family
  | sttEndpoint
  | ttsEndpoint
  deriving DecidableEq, Repr

def Family.members : Family → Members
  | sttEndpoint => sttEndpointMembers
  | ttsEndpoint => ttsEndpointMembers

def Family.build : Family → Option Spelling → Mapping → Except Failure (Option Endpoint)
  | sttEndpoint => buildSttEndpoint rt
  | ttsEndpoint => buildTtsEndpoint rt

/-- An entry of `endpoint_resolution`. -/
structure Resolution where
  winner : Option Spelling
  layers : List (PyStr × ℤ)
  deriving DecidableEq, Repr

/-- The body of the loop that resolves the families. -/
def resolveFamily (values : Mapping) (layerMaps : List (ℤ × Mapping)) (family : Family) :
    Except Failure Resolution := do
  let layers ← familyLayers rt values layerMaps (familyKeys family.members)
  let winner ← winningFamilyMember rt values layers family.members
  pure ⟨winner, layers⟩

/-- What is raised of half a pair. -/
def halfPairError : Failure :=
  .configError (ttsHostKey ++ .ofString " and " ++ ttsPortKey ++ .ofString " must be set together")

/-- The guard against half a host/port pair. -/
def guardHalfPair (values : Mapping) (tts : Resolution) : Except Failure Unit := do
  let hostSet ← familyKeySet rt (values.get? ttsHostKey)
  let portSet ← familyKeySet rt (values.get? ttsPortKey)
  let halfPairLayer := max (layerIn tts.layers ttsHostKey) (layerIn tts.layers ttsPortKey)
  if hostSet ≠ portSet ∧ halfPairLayer > winningFamilyLayer tts.layers ttsEndpointMembers tts.winner then
    .error halfPairError
  else .ok ()

/-- The endpoints of a configuration. -/
structure Endpoints where
  sttEndpoint : Option Endpoint
  ttsEndpoint : Option Endpoint
  deriving DecidableEq, Repr

/-- The endpoint families of `load_config`. -/
def loadEndpoints (values : Mapping) (layerMaps : List (ℤ × Mapping)) : Except Failure Endpoints := do
  let stt ← resolveFamily rt values layerMaps .sttEndpoint
  let tts ← resolveFamily rt values layerMaps .ttsEndpoint
  guardHalfPair rt values tts
  let sttEndpoint ← Family.sttEndpoint.build rt stt.winner values
  let ttsEndpoint ← Family.ttsEndpoint.build rt tts.winner values
  pure ⟨sttEndpoint, ttsEndpoint⟩

end

end ServerConfig

end SubagentsLab

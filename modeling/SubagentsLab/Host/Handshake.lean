import Mathlib.Data.Finset.Basic
import Mathlib.Data.List.MinMax
import Mathlib.Data.Rat.Defs
import Mathlib.Algebra.Order.Ring.Rat
import SubagentsLab.Machinery.Dict
import SubagentsLab.Machinery.Runs

/-!
# Host/Handshake — tokens, offers and promotion

A browser asks `session_handshake` for a token, presents it with its offer (`POST`, which redeems it)
and with its candidates (`PATCH`), and the offer's connection is promoted some time later.  Three
stores are written on the way, each on its own: the `HandshakeGate`'s tokens, the `ConnectionArbiter`'s
epoch, and the host's connection.  Every call reads the monotonic clock for itself, so an event carries
its readings.  A `uuid4` is a number that was never drawn before.
-/

namespace SubagentsLab

open Machinery

/-- What `uuid4` draws. -/
abbrev Uuid := ℕ

/-- `CONTRACT_VERSION`. -/
def contractVersion : String := "v1.0"

/-- `SnapshotHandshake`. -/
structure SnapshotHandshake where
  contractVersion : String
  sessionId : String
  resumeToken : Uuid
  proposedEpoch : ℕ
  snapshotSequence : ℕ
  capabilities : List String := []
  capabilitiesPresent : Bool := false
  deriving DecidableEq, Repr

/-! ## The gate -/

/-- `(epoch, expires_at, redeemed)`. -/
structure HandshakeToken where
  epoch : ℕ
  expiresAt : ℚ
  redeemed : Bool
  deriving DecidableEq, Repr

/-- How long a token lives. -/
def tokenLifetime : ℚ := 60

/-- `HandshakeGate._MAX_HANDSHAKE_TOKENS`. -/
def maxHandshakeTokens : ℕ := 32

/-- `HandshakeGate`. -/
structure HandshakeGate where
  tokens : Dict Uuid HandshakeToken := ∅

namespace HandshakeGate

/-- `_prune_handshake_tokens`. -/
def prune (now : ℚ) (tokens : Dict Uuid HandshakeToken) : Dict Uuid HandshakeToken :=
  (tokens.keys.filter fun token => (tokens.get? token).any (·.expiresAt ≤ now)).foldl Dict.pop tokens

/-- The first token that is nearest to its expiry. -/
def oldest (tokens : Dict Uuid HandshakeToken) : Option Uuid :=
  (tokens.entries.argmin fun entry => entry.2.expiresAt).map Prod.fst

/-- Evict while the store is over its cap, for at most so many rounds. -/
def evict : ℕ → Dict Uuid HandshakeToken → Dict Uuid HandshakeToken
  | 0, tokens => tokens
  | rounds + 1, tokens =>
    if maxHandshakeTokens < tokens.keys.length then
      match oldest tokens with
      | none => tokens
      | some token => evict rounds (tokens.pop token)
    else tokens

/-- `issue_token`, with the token it draws and its two readings of the clock. -/
def issueToken (gate : HandshakeGate) (token : Uuid) (epoch : ℕ) (pruneAt issueAt : ℚ) : HandshakeGate :=
  let tokens := (prune pruneAt gate.tokens).set token ⟨epoch, issueAt + tokenLifetime, false⟩
  ⟨evict tokens.keys.length tokens⟩

/-- `validate_handshake_token`, with its two readings of the clock. -/
def validateHandshakeToken (gate : HandshakeGate) (token : Uuid) (proposedEpoch : ℕ) (redeem : Bool)
    (pruneAt readAt : ℚ) : HandshakeGate × Bool :=
  let tokens := prune pruneAt gate.tokens
  match tokens.get? token with
  | none => (⟨tokens⟩, false)
  | some entry =>
    if entry.expiresAt ≤ readAt ∨ entry.epoch ≠ proposedEpoch then (⟨tokens.pop token⟩, false)
    else if redeem then
      if entry.redeemed then (⟨tokens⟩, false)
      else (⟨tokens.set token { entry with redeemed := true }⟩, true)
    else (⟨tokens⟩, entry.redeemed)

end HandshakeGate

/-! ## The arbiter -/

/-- `ConnectionArbiter`, less the identity it checks: `active` is the promoted epoch. -/
structure ConnectionArbiter where
  epoch : ℕ := 0
  active : Option ℕ := none
  deriving DecidableEq, Repr

namespace ConnectionArbiter

/-- `promote`, or `none` where it raises. -/
def promote (a : ConnectionArbiter) (sessionId : String) (resumeToken : Uuid) (h : SnapshotHandshake) :
    Option ConnectionArbiter :=
  if h.contractVersion ≠ contractVersion then none
  else if h.sessionId ≠ sessionId ∨ h.resumeToken ≠ resumeToken then none
  else if a.active.isSome ∧ h.proposedEpoch ≤ a.epoch then none
  else some ⟨h.proposedEpoch, some h.proposedEpoch⟩

/-- `accepts`. -/
def accepts (a : ConnectionArbiter) (epoch : Option ℕ) : Bool := a.active.isSome && epoch = a.active

end ConnectionArbiter

/-! ## The host -/

/-- What the handshake sees of a `ConnectionPipeline`. -/
structure BoundConnection where
  epoch : ℕ
  capabilities : Finset String
  active : Bool := true
  deriving DecidableEq

/-- What the handshake sees of the `SessionHost`. -/
structure HandshakeHost where
  sessionId : String
  resumeToken : Uuid
  gate : HandshakeGate := {}
  arbiter : ConnectionArbiter := {}
  connection : Option BoundConnection := none
  closing : Bool := false
  nextUuid : Uuid
  clock : ℚ := 0

/-- The query of an offer or of a candidate, decoded: a field that is missing or not of its type is
`none`, a missing `snapshot_sequence` is zero, and `wellFormed` says that percent encoding and
capabilities could be decoded at all. -/
structure HandshakeQuery where
  wellFormed : Bool := true
  contractVersion : String := SubagentsLab.contractVersion
  sessionId : Option String
  resumeToken : Option Uuid
  proposedEpoch : Option ℤ
  snapshotSequence : Option ℤ := some 0
  capabilities : Option (List String) := none
  deriving DecidableEq, Repr

/-- What a request comes to. -/
inductive HandshakeOutcome
  | issued (token : Uuid) (epoch : ℕ) (at_ : ℚ)
  | redeemed (token : Uuid) (epoch : ℕ)
  | patched (token : Uuid) (epoch : ℕ)
  | promoted (epoch : ℕ)
  | rejected (status : ℕ)
  | refused
  deriving DecidableEq, Repr

namespace HandshakeHost

variable (h : HandshakeHost)

/-- `SessionHost.accepts`. -/
def accepts (epoch : ℕ) : Bool :=
  !h.closing && h.arbiter.accepts (some epoch) && h.connection.any (·.active)

/-- `session_handshake`. -/
def sessionHandshake (pruneAt issueAt : ℚ) : HandshakeHost × HandshakeOutcome :=
  let proposedEpoch := h.arbiter.epoch + 1
  ({ h with
    gate := h.gate.issueToken h.nextUuid proposedEpoch pruneAt issueAt
    nextUuid := h.nextUuid + 1 },
    .issued h.nextUuid proposedEpoch issueAt)

/-- The handshake a query spells, unless it is malformed. -/
def parse (q : HandshakeQuery) : Option SnapshotHandshake :=
  match q.wellFormed, q.sessionId, q.resumeToken, q.proposedEpoch, q.snapshotSequence with
  | true, some sessionId, some resumeToken, some proposedEpoch, some snapshotSequence =>
    if proposedEpoch < 0 ∨ snapshotSequence < 0 ∨ "" ∈ q.capabilities.getD [] then none
    else
      some
        { contractVersion := q.contractVersion
          sessionId, resumeToken
          proposedEpoch := proposedEpoch.toNat
          snapshotSequence := snapshotSequence.toNat
          capabilities := q.capabilities.getD []
          capabilitiesPresent := q.capabilities.isSome }
  | _, _, _, _, _ => none

/-- `_handshake_from_query`: the handshake with the host's own bearer, or the status of the error. -/
def handshakeFromQuery (q : HandshakeQuery) (redeem : Bool) (pruneAt readAt : ℚ) :
    HandshakeHost × (ℕ ⊕ SnapshotHandshake) :=
  match parse q with
  | none => (h, .inl 400)
  | some value =>
    if value.sessionId ≠ h.sessionId then (h, .inl 401)
    else
      let r := h.gate.validateHandshakeToken value.resumeToken value.proposedEpoch redeem pruneAt readAt
      let h' := { h with gate := r.1 }
      if r.2 then (h', .inr { value with resumeToken := h.resumeToken }) else (h', .inl 401)

/-- `validate_patch_handshake`: whether the capabilities presented are those of the connection. -/
def validatePatchHandshake (value : SnapshotHandshake) : Bool :=
  !value.capabilitiesPresent ||
    value.capabilities.toFinset = (h.connection.map (·.capabilities)).getD ∅

/-- The offer: `POST /api/rtc`, up to the handler that will connect. -/
def offer (q : HandshakeQuery) (pruneAt readAt : ℚ) : HandshakeHost × HandshakeOutcome :=
  match h.handshakeFromQuery q true pruneAt readAt with
  | (h', .inl status) => (h', .rejected status)
  | (h', .inr value) => (h', .redeemed (q.resumeToken.getD 0) value.proposedEpoch)

/-- The candidate: `PATCH /api/rtc`. -/
def iceCandidate (q : HandshakeQuery) (pruneAt readAt : ℚ) : HandshakeHost × HandshakeOutcome :=
  match h.handshakeFromQuery q false pruneAt readAt with
  | (h', .inl status) => (h', .rejected status)
  | (h', .inr value) =>
    if !h'.accepts value.proposedEpoch then (h', .rejected 409)
    else if !h'.validatePatchHandshake value then (h', .rejected 400)
    else (h', .patched (q.resumeToken.getD 0) value.proposedEpoch)

/-- `connect`, from the promotion on. -/
def connect (value : SnapshotHandshake) : HandshakeHost × HandshakeOutcome :=
  if h.closing then (h, .refused)
  else
    match h.arbiter.promote h.sessionId h.resumeToken value with
    | none => (h, .refused)
    | some arbiter =>
      ({ h with
        arbiter
        connection := some ⟨value.proposedEpoch, value.capabilities.toFinset, true⟩ },
        .promoted value.proposedEpoch)

/-- What can happen; requests carry their two readings of the clock. -/
inductive Event
  | sessionHandshake (pruneAt issueAt : ℚ)
  | offer (q : HandshakeQuery) (pruneAt readAt : ℚ)
  | iceCandidate (q : HandshakeQuery) (pruneAt readAt : ℚ)
  | connect (value : SnapshotHandshake)
  /-- The host's connection is fenced. -/
  | deactivate
  /-- `abort_connection` of the host's connection. -/
  | abortConnection
  | setClosing (closing : Bool)
  deriving DecidableEq

/-- The readings of an event, first and last. -/
def Event.readings : Event → Option (ℚ × ℚ)
  | .sessionHandshake first last | .offer _ first last | .iceCandidate _ first last => some (first, last)
  | _ => none

/-- The clock never goes back. -/
def timely (e : Event) : Bool := e.readings.all fun r => h.clock ≤ r.1 && r.1 ≤ r.2

/-- What a request does, the clock apart. -/
def act : Event → HandshakeHost × List HandshakeOutcome
  | .sessionHandshake pruneAt issueAt =>
    ((h.sessionHandshake pruneAt issueAt).1, [(h.sessionHandshake pruneAt issueAt).2])
  | .offer q pruneAt readAt => ((h.offer q pruneAt readAt).1, [(h.offer q pruneAt readAt).2])
  | .iceCandidate q pruneAt readAt =>
    ((h.iceCandidate q pruneAt readAt).1, [(h.iceCandidate q pruneAt readAt).2])
  | .connect value => ((h.connect value).1, [(h.connect value).2])
  | .deactivate => ({ h with connection := h.connection.map ({ · with active := false }) }, [])
  | .abortConnection => ({ h with connection := none }, [])
  | .setClosing closing => ({ h with closing }, [])

/-- One step. -/
def step (h : HandshakeHost) (e : Event) : HandshakeHost × List HandshakeOutcome :=
  let r := h.act e
  ({ r.1 with clock := (e.readings.map Prod.snd).getD h.clock }, r.2)

/-- A host as it is made. -/
def fresh (sessionId : String) : HandshakeHost := { sessionId, resumeToken := 0, nextUuid := 1 }

/-- The host after a run. -/
def after (sessionId : String) (es : List Event) : HandshakeHost :=
  run (fun h e => (step h e).1) (fresh sessionId) es

/-- What came of the requests of a run. -/
def log (sessionId : String) (es : List Event) : List HandshakeOutcome := outputs step (fresh sessionId) es

end HandshakeHost

end SubagentsLab

import SubagentsLab.Session.Browser

/-!
# Session/App — connections of the web client

`createApp` of `web/src/app.js`: what `connect()`, `disconnect()` and the callbacks of a client do.  A connection
attempt takes a generation, and every callback of its client carries it: `current()` compares it with the active
one, which `cleanupConnection` moves on.  `connectPromise` lets one attempt run at a time; whatever it awaits, the
button and the callbacks of any client may come in between.

A callback can leave something to be awaited: a switch of the speaker, or the promise of `audio.play()`.  What comes
after such an `await` does not ask `current()` again, so it is seen in the page whoever is connected by then.

* `no_orphaned_client`: a client that is neither torn down nor known to be disconnected is the client.
* `callbacks_fenced`: what a client of an earlier generation reports never changes anything again, and starts nothing.
* `settling_confined`: what earlier callbacks have left to be awaited comes to the speaker and the diagnostics only.
-/

namespace SubagentsLab

open Machinery

namespace Session

/-! ## The state that is rendered -/

/-- A device, as `withDeviceList` keeps it. -/
structure Device where
  deviceId : String
  label : String
  deriving DecidableEq, Repr

/-- A call of `applySpeaker` that awaits its sink, and whether `setSinkId` has accepted the device. -/
structure SpeakerSwitch where
  deviceId : String
  accepted : Option Bool := none
  deriving DecidableEq, Repr

/-- The state of the page; the track its audio element plays, the sink `createAudioSink` has confirmed, the switches of
the speaker that are under way, and the promises of `audio.play()`, each as what is reported when it is rejected. -/
structure PageState where
  browser : Browser := {}
  connected : Bool := false
  mics : List Device := []
  speakers : List Device := []
  selectedMicId : Option String := none
  selectedSpeakerId : Option String := none
  micEnabled : Bool := false
  message : String := ""
  track : Option ℕ := none
  confirmedSinkId : Option String := none
  switches : List SpeakerSwitch := []
  plays : List String := []

namespace PageState

variable (state : PageState)

/-- `disconnectedState`. -/
def disconnected : PageState :=
  { state with
    connected := false
    micEnabled := false
    mics := []
    speakers := []
    selectedMicId := none
    selectedSpeakerId := none }

/-- Which device `withDeviceList` selects: the preferred one, or else the one that is selected. -/
def resolveDevice (devices : List Device) (preferred selected : Option String) : Option String :=
  let offered (id : Option String) := id.filter fun id => id ≠ "" ∧ devices.any fun device => device.deviceId = id
  (offered preferred).or (offered selected)

/-- `withDeviceList` for the microphones. -/
def withMics (devices : List Device) (preferred : Option String) : PageState :=
  let devices := devices.filter (·.deviceId ≠ "")
  { state with mics := devices, selectedMicId := resolveDevice devices preferred state.selectedMicId }

/-- `withDeviceList` for the speakers. -/
def withSpeakers (devices : List Device) (preferred : Option String) : PageState :=
  let devices := devices.filter (·.deviceId ≠ "")
  { state with speakers := devices, selectedSpeakerId := resolveDevice devices preferred state.selectedSpeakerId }

/-- `report`. -/
def report (message : String) : PageState := { state with message }

/-- `audio.play().catch(() => report(message))`, up to the promise. -/
def play (message : String) : PageState := { state with plays := state.plays ++ [message] }

/-- `audioSink.reset()`; what `setSinkId("")` comes to is not waited for. -/
def resetSink : PageState := { state with confirmedSinkId := none }

/-- `applySpeaker`, up to its `await`: `supported` says whether the audio element has a `setSinkId`. -/
def applySpeaker (deviceId : String) (supported : Bool) : PageState :=
  if deviceId = "" ∨ supported = false then state else { state with switches := state.switches ++ [{ deviceId }] }

/-- `onAvailableSpeakersUpdated`. -/
def hearSpeakers (speakers : List Device) (selected : Option String) (supported : Bool) : PageState :=
  let next := state.withSpeakers speakers (state.confirmedSinkId.or selected)
  match next.selectedSpeakerId with
  | none => next.resetSink
  | some resolved => if next.confirmedSinkId = some resolved then next else next.applySpeaker resolved supported

/-- What the page awaits, and what the user asks of its audio. -/
inductive Settling
  /-- `setSinkId` of a switch has settled. -/
  | sinkSettled (switch : ℕ) (accepted : Bool)
  /-- `applySpeaker` goes on. -/
  | speakerApplied (switch : ℕ)
  /-- A promise of `audio.play()` has settled. -/
  | playSettled (play : ℕ) (started : Bool)

/-- What comes after an `await`. -/
def settle : Settling → PageState
  | .sinkSettled i accepted =>
    match state.switches[i]? with
    | some { deviceId, accepted := none } =>
      { state with
        switches := state.switches.set i { deviceId, accepted := some accepted }
        confirmedSinkId := if accepted then some deviceId else state.confirmedSinkId }
    | _ => state
  | .speakerApplied i =>
    match state.switches[i]? with
    | some { deviceId, accepted := some accepted } =>
      let state := { state with switches := state.switches.eraseIdx i }
      if accepted then { state with selectedSpeakerId := some deviceId }
      else state.report "Failed to switch speaker: device removed"
    | _ => state
  | .playSettled i started =>
    match state.plays[i]? with
    | some message =>
      let state := { state with plays := state.plays.eraseIdx i }
      if started then state else state.report message
    | none => state

/-- What the user does with the controls, the connection apart. -/
inductive Control
  | onPlayAudio
  | onSelectMic (deviceId : String)
  | onSelectSpeaker (deviceId : String) (supported : Bool)
  /-- `enabled` is the opposite of what the client has. -/
  | onToggleMic (enabled : Bool)

/-- A control has been used. -/
def control : Control → PageState
  | .onPlayAudio => state.play "Playback is still blocked; check browser site permissions."
  | .onSelectMic deviceId => if deviceId = "" then state else { state with selectedMicId := some deviceId }
  | .onSelectSpeaker deviceId supported => state.applySpeaker deviceId supported
  | .onToggleMic enabled =>
    { state with micEnabled := enabled, message := if enabled then "Microphone enabled." else "Microphone disabled." }

end PageState

/-- What a client reports.  A server message that does not pass the validator is `none`; with the devices comes the
one the client has selected, and for the speakers whether the audio element has a `setSinkId`. -/
inductive Callback
  | onConnected
  | onDisconnected
  | onError (message : String)
  | onServerMessage (message : Option Message) (now : ℚ)
  | onTrackStarted (track : ℕ) (isLocal isAudio : Bool)
  | onTrackStopped (track : Option ℕ)
  | onAvailableMicsUpdated (mics : List Device) (selected : Option String)
  | onAvailableSpeakersUpdated (speakers : List Device) (selected : Option String) (supported : Bool)

/-- The diagnostics after a message: a gap is told of. -/
def Browser.notice (b : Browser) (m : Message) (message : String) : String :=
  match m with
  | .snapshot _ => message
  | .increment _ sequence _ _ =>
    if b.reception m = .gap then
      s!"State gap detected ({b.lastAppliedSequence + 1}–{sequence - 1}); requesting snapshot."
    else message

/-- What a current callback does to the page, up to what it leaves to be awaited; `onDisconnected` apart. -/
def PageState.hear (cfg : RetentionConfig) (normalizeUrl : String → Option String) (state : PageState) :
    Callback → PageState
  | .onConnected => { state with connected := true }
  | .onDisconnected => state
  | .onError message => state.report (if message = "" then "The RTVI connection reported an error." else message)
  | .onServerMessage none _ => state.report "Ignored malformed or unsupported server message."
  | .onServerMessage (some m) now =>
    { state with
      browser := state.browser.applyServerMessage cfg normalizeUrl m now
      message := state.browser.notice m state.message }
  | .onTrackStarted track isLocal isAudio =>
    if isLocal ∨ isAudio = false then state
    else
      { state with track := some track }.play
        "Assistant audio is ready, but playback was blocked. Click the page or Play audio to allow it."
  | .onTrackStopped track =>
    if state.track.isSome ∧ (track = none ∨ track = state.track) then { state with track := none } else state
  | .onAvailableMicsUpdated mics selected => state.withMics mics selected
  | .onAvailableSpeakersUpdated speakers selected supported => state.hearSpeakers speakers selected supported

/-! ## The connections -/

/-- A client there has been: the generation of its callbacks, whether `teardownClient` has taken it, and whether
`cleanupConnection` has acted on its own report. -/
structure WebClient where
  generation : ℕ
  tornDown : Bool := false
  reported : Bool := false
  deriving DecidableEq, Repr

/-- Nobody has put an end to the client. -/
def WebClient.Live (c : WebClient) : Prop := c.tornDown = false ∧ c.reported = false

/-- What the attempt behind `connectPromise` awaits. -/
inductive ConnectAttempt
  /-- The teardown of the client before. -/
  | disconnecting
  /-- `fetch(sessionUrl)`. -/
  | discovering (generation : ℕ)
  /-- `initDevices()` and `connect()`. -/
  | connecting (generation client : ℕ)
  /-- The teardown of a client that was disconnected while it connected. -/
  | discarding (client : ℕ)
  /-- The teardown of a client that could not connect. -/
  | failing (client : ℕ)
  /-- The promise has settled, and is not cleared yet. -/
  | settled
  deriving DecidableEq, Repr

/-- The closure of `createApp`, with every client there has been. -/
structure App where
  page : PageState := {}
  generation : ℕ := 0
  activeGeneration : ℕ := 0
  connectionActive : Bool := false
  client : Option ℕ := none
  connectPromise : Option ConnectAttempt := none
  clients : ℕ → Option WebClient := fun _ => none
  created : ℕ := 0

/-- How the discovery and the construction of a client end; without discovery the construction follows at once. -/
inductive Discovery
  | failed (error : String)
  /-- The constructor of the transport or of the client throws. -/
  | thrown
  | constructed

/-- How `initDevices()` and `connect()` end. -/
inductive Connection
  | succeeded (micEnabled : Bool)
  | failed (error : String)

namespace App

variable (a : App)

/-- A client is given another record. -/
def setClient (id : ℕ) (c : WebClient) : App := { a with clients := Function.update a.clients id (some c) }

/-- `teardownClient`, up to its `await`. -/
def teardownClient (target : Option ℕ) : App :=
  match target.bind fun id => (a.clients id).map (id, ·) with
  | none => a
  | some (id, c) => if c.tornDown then a else a.setClient id { c with tornDown := true }

/-- `cleanupConnection`. -/
def cleanupConnection (callbackGeneration : ℕ) : App :=
  if a.connectionActive = false ∨ callbackGeneration ≠ a.activeGeneration then a
  else
    { a with
      generation := a.generation + 1
      activeGeneration := a.generation + 1
      connectionActive := false
      page := { a.page.disconnected.resetSink with track := none } }

/-- `disconnect()`, up to its `await`. -/
def disconnect : App := (a.cleanupConnection a.activeGeneration).teardownClient a.client

/-- The attempt takes its generation. -/
def beginConnection : App :=
  { a with
    generation := a.generation + 1
    activeGeneration := a.generation + 1
    connectionActive := true
    connectPromise := some (.discovering (a.generation + 1)) }

/-- `connect()`, up to its first `await`. -/
def connect : App :=
  if a.connectPromise.isSome then a
  else if a.connectionActive then { a.disconnect with connectPromise := some .disconnecting }
  else a.beginConnection

/-- The attempt goes on after the discovery. -/
def discovered (generation : ℕ) : Discovery → App
  | .failed error =>
    { a with
      page := (a.page.report ("Session discovery failed: " ++ error)).disconnected
      connectionActive := false
      connectPromise := some .settled }
  | .thrown => { a with connectPromise := some .settled }
  | .constructed =>
    { a.setClient a.created { generation } with
      created := a.created + 1
      client := some a.created
      connectPromise := some (.connecting generation a.created) }

/-- The attempt goes on after `client.connect()`. -/
def connected (generation client : ℕ) : Connection → App
  | .failed error =>
    { ({ a with page := a.page.report ("Connection failed: " ++ error) }).teardownClient (some client) with
      connectPromise := some (.failing client) }
  | .succeeded micEnabled =>
    if generation ≠ a.activeGeneration then
      { a.teardownClient (some client) with connectPromise := some (.discarding client) }
    else
      { a with
        page := { a.page with connected := true, micEnabled }.play
          "Connected, but browser audio is blocked. Click Play audio to continue."
        connectPromise := some .settled }

/-- `if (client === nextClient) client = undefined`. -/
def forget (client : ℕ) : App := if a.client = some client then { a with client := none } else a

/-- A callback of a client. -/
def callback (cfg : RetentionConfig) (normalizeUrl : String → Option String) (id : ℕ) (cb : Callback) : App :=
  match a.clients id with
  | none => a
  | some c =>
    match cb with
    | .onDisconnected =>
      if a.connectionActive = false ∨ c.generation ≠ a.activeGeneration then a
      else (a.cleanupConnection c.generation).setClient id { c with reported := true }
    | cb => if c.generation = a.activeGeneration then { a with page := a.page.hear cfg normalizeUrl cb } else a

/-- A control is used; without a client there is no microphone to toggle. -/
def control : PageState.Control → App
  | .onToggleMic enabled => if a.client = none then a else { a with page := a.page.control (.onToggleMic enabled) }
  | used => { a with page := a.page.control used }

/-- What may happen next: the button, what the attempt awaits, a callback, another control, or what the page awaits. -/
inductive Event
  | connect
  | disconnect
  | disconnected
  | discovered (result : Discovery)
  | connected (result : Connection)
  | tornDown
  /-- `connectPromise = null`. -/
  | released
  | callback (client : ℕ) (cb : Callback)
  | control (used : PageState.Control)
  | settled (ending : PageState.Settling)

/-- One step. -/
def step (cfg : RetentionConfig) (normalizeUrl : String → Option String) : Event → App
  | .connect => a.connect
  | .disconnect => a.disconnect
  | .disconnected => if a.connectPromise = some .disconnecting then a.beginConnection else a
  | .discovered result =>
    match a.connectPromise with
    | some (.discovering generation) => a.discovered generation result
    | _ => a
  | .connected result =>
    match a.connectPromise with
    | some (.connecting generation client) => a.connected generation client result
    | _ => a
  | .tornDown =>
    match a.connectPromise with
    | some (.discarding client) => { a.forget client with connectPromise := some .settled }
    | some (.failing client) =>
      { a.forget client with
        connectionActive := false
        page := a.page.disconnected
        connectPromise := some .settled }
    | _ => a
  | .released => if a.connectPromise = some .settled then { a with connectPromise := none } else a
  | .callback client cb => a.callback cfg normalizeUrl client cb
  | .control used => a.control used
  | .settled ending => { a with page := a.page.settle ending }

/-! ## Who owns a client -/

variable {a : App} {cfg : RetentionConfig} {normalizeUrl : String → Option String}

/-- Every client there has been has come to its end. -/
def NoneLive (a : App) : Prop := ∀ id c, a.clients id = some c → ¬c.Live

/-- **The invariant.**  A live client is the client, and either its connection is active or the attempt still holds it;
the attempt's generation is the active one as long as nobody has disconnected it. -/
structure Owned (a : App) : Prop where
  active : a.activeGeneration = a.generation
  born : ∀ id c, a.clients id = some c → c.generation ≤ a.generation ∧ id < a.created
  live : ∀ id c, a.clients id = some c → c.Live →
    a.client = some id ∧ (c.generation = a.generation ∧ a.connectionActive = true ∨
      ∃ generation, a.connectPromise = some (.connecting generation id))
  current : ∀ id c, a.clients id = some c → c.generation = a.generation → a.connectionActive = true → a.client = some id
  disconnecting : a.connectPromise = some .disconnecting → a.connectionActive = false ∧ NoneLive a
  discovering : ∀ generation, a.connectPromise = some (.discovering generation) →
    generation ≤ a.generation ∧ (a.connectionActive = true ↔ generation = a.generation) ∧ NoneLive a ∧
      ∀ id c, a.clients id = some c → c.generation ≠ generation
  connecting : ∀ generation id, a.connectPromise = some (.connecting generation id) →
    (a.connectionActive = true ↔ generation = a.generation) ∧
      ∃ c, a.clients id = some c ∧ c.generation = generation ∧ a.client = some id
  discarding : ∀ id, a.connectPromise = some (.discarding id) → a.connectionActive = false ∧ NoneLive a
  failing : ∀ id, a.connectPromise = some (.failing id) → NoneLive a

theorem owned_start : Owned {} where
  active := rfl
  born _ _ h := by cases h
  live _ _ h := by cases h
  current _ _ h := by cases h
  disconnecting h := by cases h
  discovering _ h := by cases h
  connecting _ _ h := by cases h
  discarding _ h := by cases h
  failing _ h := by cases h

theorem clients_setClient (id id' : ℕ) (c : WebClient) :
    (a.setClient id c).clients id' = if id' = id then some c else a.clients id' := Function.update_apply ..

/-- **What a teardown does**: the client it is given is torn down, and the others stay as they are. -/
theorem teardownClient_spec (a : App) (target : Option ℕ) :
    ∃ clients : ℕ → Option WebClient, a.teardownClient target = { a with clients } ∧
      ∀ id, clients id = if target = some id then (a.clients id).map ({ · with tornDown := true }) else a.clients id := by
  rw [teardownClient]
  have hsame : (∀ id, target = some id → (a.clients id).map ({ · with tornDown := true }) = a.clients id) →
      ∀ id, a.clients id = if target = some id then (a.clients id).map ({ · with tornDown := true }) else a.clients id := by
    intro h id
    split_ifs with hid
    · exact (h id hid).symm
    · rfl
  rcases target with _ | id
  · exact ⟨a.clients, rfl, hsame fun id h => by cases h⟩
  rw [Option.bind_some]
  rcases hc : a.clients id with _ | c
  · refine ⟨a.clients, rfl, hsame fun id' h => ?_⟩
    cases h
    rw [hc]
    rfl
  rw [Option.map_some]
  dsimp only
  split_ifs with htorn
  · refine ⟨a.clients, rfl, hsame fun id' h => ?_⟩
    cases h
    rw [hc, Option.map_some, ← htorn]
  · refine ⟨_, rfl, fun id' => ?_⟩
    rw [Function.update_apply]
    by_cases hid : id' = id
    · rw [if_pos hid, hid, if_pos rfl, hc]
      rfl
    · rw [if_neg hid, if_neg fun h => hid (Option.some.inj h).symm]

/-- The clients of `b` are those of `a`, each with its generation. -/
def Kin (a b : App) : Prop := ∀ id, (b.clients id).map WebClient.generation = (a.clients id).map WebClient.generation

theorem Kin.exists_left {b : App} (h : Kin a b) {id : ℕ} {c : WebClient} (hc : b.clients id = some c) :
    ∃ c', a.clients id = some c' ∧ c'.generation = c.generation := by
  have hid := h id
  rw [hc, Option.map_some] at hid
  exact Option.map_eq_some_iff.mp hid.symm

theorem Kin.exists_right {b : App} (h : Kin a b) {id : ℕ} {c : WebClient} (hc : a.clients id = some c) :
    ∃ c', b.clients id = some c' ∧ c'.generation = c.generation := by
  have hid := h id
  rw [hc, Option.map_some] at hid
  exact Option.map_eq_some_iff.mp hid

theorem kin_teardownClient (a : App) (target : Option ℕ) : Kin a (a.teardownClient target) := by
  obtain ⟨clients, heq, hclients⟩ := teardownClient_spec a target
  intro id
  rw [heq]
  dsimp only
  rw [hclients]
  split_ifs
  · rw [Option.map_map]
    rfl
  · rfl

/-- After the client has been torn down nobody is live. -/
theorem noneLive_teardownClient {target : Option ℕ} (h : ∀ id c, a.clients id = some c → c.Live → target = some id) :
    NoneLive (a.teardownClient target) := by
  obtain ⟨clients, heq, hclients⟩ := teardownClient_spec a target
  intro id c hc hlive
  rw [heq] at hc
  dsimp only at hc
  rw [hclients] at hc
  split_ifs at hc with hid
  · obtain ⟨c', -, rfl⟩ := Option.map_eq_some_iff.mp hc
    cases hlive.1
  · exact hid (h id c hc hlive)

/-- **An end to the connection keeps the invariant**: nobody is live, and a connection that was active has been left
behind. -/
theorem Owned.shut (h : Owned a) {b : App} (hkin : Kin a b) (hnone : NoneLive b)
    (hactive : b.activeGeneration = b.generation) (hoff : b.connectionActive = false) (hcreated : b.created = a.created)
    (hpromise : b.connectPromise = a.connectPromise) (hclient : b.client = a.client)
    (hnewer : a.generation < b.generation ∨ a.generation = b.generation ∧ a.connectionActive = false) : Owned b := by
  have hle : a.generation ≤ b.generation := hnewer.elim le_of_lt fun heq => heq.1.le
  have hbehind : ∀ {generation}, generation ≤ a.generation → (a.connectionActive = true ↔ generation = a.generation) →
      (b.connectionActive = true ↔ generation = b.generation) := by
    intro generation hgen hiff
    rw [hoff]
    refine iff_of_false Bool.false_ne_true fun hc => ?_
    rcases hnewer with hlt | ⟨heq, hinactive⟩
    · omega
    · rw [heq] at hiff
      exact Bool.false_ne_true (hinactive.symm.trans (hiff.mpr hc))
  refine ⟨hactive, fun id c hc => ?_, fun id c hc hlive => absurd hlive (hnone id c hc), fun id c hc _ hon => ?_,
    fun _ => ⟨hoff, hnone⟩, fun generation hp => ?_, fun generation id hp => ?_, fun _ _ => ⟨hoff, hnone⟩, fun _ _ => hnone⟩
  · obtain ⟨c', hc', hgen⟩ := hkin.exists_left hc
    obtain ⟨hborn, hid⟩ := h.born id c' hc'
    exact ⟨by omega, hcreated ▸ hid⟩
  · rw [hoff] at hon
    cases hon
  · obtain ⟨hgen, hiff, -, hfresh⟩ := h.discovering generation (hpromise ▸ hp)
    refine ⟨hgen.trans hle, hbehind hgen hiff, hnone, fun id c hc => ?_⟩
    obtain ⟨c', hc', heq⟩ := hkin.exists_left hc
    exact heq ▸ hfresh id c' hc'
  · obtain ⟨hiff, c, hc, hgen, hid⟩ := h.connecting generation id (hpromise ▸ hp)
    obtain ⟨c', hc', heq⟩ := hkin.exists_right hc
    exact ⟨hbehind (hgen ▸ (h.born id c hc).1) hiff, c', hc', heq.trans hgen, hclient.trans hid⟩

/-! ## The operations keep the invariant -/

theorem cleanupConnection_of_inactive (generation : ℕ) (hoff : a.connectionActive = false) :
    a.cleanupConnection generation = a := if_pos (.inl hoff)

theorem cleanupConnection_of_active (hon : a.connectionActive = true) :
    a.cleanupConnection a.activeGeneration =
      { a with
        generation := a.generation + 1
        activeGeneration := a.generation + 1
        connectionActive := false
        page := { a.page.disconnected.resetSink with track := none } } :=
  if_neg fun hc => hc.elim (fun hoff => Bool.false_ne_true (hoff.symm.trans hon)) fun hne => hne rfl

/-- **`disconnect()` leaves nobody live.** -/
theorem Owned.disconnect (h : Owned a) :
    Owned a.disconnect ∧ a.disconnect.connectionActive = false ∧ NoneLive a.disconnect := by
  have hnone : NoneLive a.disconnect := by
    refine noneLive_teardownClient fun id c hc hlive => ?_
    refine (h.live id c ?_ hlive).1
    rw [← hc, cleanupConnection]
    split_ifs <;> rfl
  obtain ⟨clients, heq, -⟩ := teardownClient_spec (a.cleanupConnection a.activeGeneration) a.client
  have hkin := kin_teardownClient (a.cleanupConnection a.activeGeneration) a.client
  rw [App.disconnect] at hnone ⊢
  rcases hon : a.connectionActive with _ | _
  · rw [cleanupConnection_of_inactive _ hon] at hnone hkin heq ⊢
    have hoff : (a.teardownClient a.client).connectionActive = false := by rw [heq, ← hon]
    exact ⟨h.shut hkin hnone (by rw [heq]; exact h.active) hoff (by rw [heq]) (by rw [heq]) (by rw [heq])
      (.inr ⟨by rw [heq], hon⟩), hoff, hnone⟩
  · rw [cleanupConnection_of_active hon] at hnone hkin heq ⊢
    have hoff := congrArg connectionActive heq
    exact ⟨h.shut hkin hnone (by rw [heq]) hoff (by rw [heq]) (by rw [heq]) (by rw [heq])
      (.inl (by rw [heq]; exact Nat.lt_succ_self _)), hoff, hnone⟩

/-- The attempt takes a generation of its own. -/
theorem Owned.beginConnection (h : Owned a) (hnone : NoneLive a) : Owned a.beginConnection where
  active := rfl
  born id c hc := ⟨(h.born id c hc).1.trans (Nat.le_succ _), (h.born id c hc).2⟩
  live id c hc hlive := absurd hlive (hnone id c hc)
  current id c hc hgen _ := absurd hgen (Nat.lt_succ_of_le (h.born id c hc).1).ne
  disconnecting hp := by cases hp
  discovering generation hp := by
    cases hp
    exact ⟨le_rfl, iff_of_true rfl rfl, hnone, fun id c hc => (Nat.lt_succ_of_le (h.born id c hc).1).ne⟩
  connecting _ _ hp := by cases hp
  discarding _ hp := by cases hp
  failing _ hp := by cases hp

/-- Nobody is live between two attempts, unless a connection is active. -/
theorem Owned.noneLive (h : Owned a) (hoff : a.connectionActive = false)
    (hidle : ∀ generation id, a.connectPromise ≠ some (.connecting generation id)) : NoneLive a := by
  intro id c hc hlive
  rcases (h.live id c hc hlive).2 with ⟨-, hon⟩ | ⟨generation, hp⟩
  · exact Bool.false_ne_true (hoff.symm.trans hon)
  · exact hidle generation id hp

theorem Owned.connect (h : Owned a) : Owned a.connect := by
  rw [App.connect]
  split_ifs with hpromise hon
  · exact h
  · obtain ⟨howned, hoff, hnone⟩ := h.disconnect
    exact { howned with
      live := fun id c hc hlive => absurd hlive (hnone id c hc)
      disconnecting := fun _ => ⟨hoff, hnone⟩
      discovering := fun _ hp => by cases hp
      connecting := fun _ _ hp => by cases hp
      discarding := fun _ hp => by cases hp
      failing := fun _ hp => by cases hp }
  · refine h.beginConnection (h.noneLive (Bool.not_eq_true _ ▸ hon) fun _ _ hp => hpromise ?_)
    rw [hp]
    rfl

/-- What is rendered has no part in it. -/
theorem Owned.withPage (h : Owned a) (page : PageState) : Owned { a with page } :=
  ⟨h.active, h.born, h.live, h.current, h.disconnecting, h.discovering, h.connecting, h.discarding, h.failing⟩

/-- **The attempt comes to its end** with nobody live, or with the teardown it has left. -/
theorem Owned.settle (h : Owned a) {b : App} (hkin : Kin a b) (hnone : NoneLive b) (hgen : b.generation = a.generation)
    (hactive : b.activeGeneration = a.activeGeneration) (hcreated : b.created = a.created)
    (hcurrent : b.connectionActive = true → a.connectionActive = true ∧ b.client = a.client)
    (hpromise : b.connectPromise = some .settled ∨ (∃ id, b.connectPromise = some (.failing id)) ∨
      (∃ id, b.connectPromise = some (.discarding id)) ∧ b.connectionActive = false) : Owned b := by
  have hother : ∀ {p}, b.connectPromise = some p → p = .settled ∨ (∃ id, p = .failing id) ∨
      (∃ id, p = .discarding id) ∧ b.connectionActive = false := by
    intro p hp
    rw [hp] at hpromise
    simpa only [Option.some.injEq] using hpromise
  refine ⟨by rw [hactive, hgen, h.active], fun id c hc => ?_, fun id c hc hlive => absurd hlive (hnone id c hc),
    fun id c hc heq hon => ?_, fun hp => ?_, fun _ hp => ?_, fun _ _ hp => ?_, fun _ hp => ⟨?_, hnone⟩, fun _ _ => hnone⟩
  · obtain ⟨c', hc', heq⟩ := hkin.exists_left hc
    rw [hgen, hcreated, ← heq]
    exact h.born id c' hc'
  · obtain ⟨c', hc', heq'⟩ := hkin.exists_left hc
    obtain ⟨hon', hclient⟩ := hcurrent hon
    rw [hclient]
    exact h.current id c' hc' (heq'.trans (heq.trans hgen)) hon'
  · rcases hother hp with hc | ⟨_, hc⟩ | ⟨⟨_, hc⟩, -⟩ <;> cases hc
  · rcases hother hp with hc | ⟨_, hc⟩ | ⟨⟨_, hc⟩, -⟩ <;> cases hc
  · rcases hother hp with hc | ⟨_, hc⟩ | ⟨⟨_, hc⟩, -⟩ <;> cases hc
  · rcases hother hp with hc | ⟨_, hc⟩ | ⟨-, hoff⟩
    · cases hc
    · cases hc
    · exact hoff

theorem Owned.discovered (h : Owned a) {generation : ℕ} (hp : a.connectPromise = some (.discovering generation))
    (result : Discovery) : Owned (a.discovered generation result) := by
  obtain ⟨hgen, hiff, hnone, hfresh⟩ := h.discovering generation hp
  cases result with
  | failed error => exact h.settle (fun _ => rfl) hnone rfl rfl rfl (fun hon => by cases hon) (.inl rfl)
  | thrown => exact h.settle (fun _ => rfl) hnone rfl rfl rfl (fun hon => ⟨hon, rfl⟩) (.inl rfl)
  | constructed =>
    have hcases : ∀ {id c}, (a.discovered generation .constructed).clients id = some c →
        id = a.created ∧ c = { generation } ∨ a.clients id = some c := by
      intro id c hc
      rw [App.discovered] at hc
      dsimp only at hc
      rw [clients_setClient] at hc
      split_ifs at hc with hid
      · exact .inl ⟨hid, (Option.some.inj hc).symm⟩
      · exact .inr hc
    refine ⟨h.active, fun id c hc => ?_, fun id c hc hlive => ?_, fun id c hc heq hon => ?_, (by rintro ⟨⟩),
      (by rintro _ ⟨⟩), fun generation' id hp' => ?_, (by rintro _ ⟨⟩), by rintro _ ⟨⟩⟩
    · rcases hcases hc with ⟨rfl, rfl⟩ | hc
      · exact ⟨hgen, Nat.lt_succ_self _⟩
      · exact ⟨(h.born id c hc).1, (h.born id c hc).2.trans (Nat.lt_succ_self _)⟩
    · rcases hcases hc with ⟨rfl, rfl⟩ | hc
      · exact ⟨rfl, .inr ⟨generation, rfl⟩⟩
      · exact absurd hlive (hnone id c hc)
    · rcases hcases hc with ⟨rfl, rfl⟩ | hc
      · rfl
      · exact absurd (heq.trans (hiff.mp hon).symm) (hfresh id c hc)
    · cases hp'
      exact ⟨hiff, _, (clients_setClient ..).trans (if_pos rfl), rfl, rfl⟩

theorem Owned.connected (h : Owned a) {generation client : ℕ}
    (hp : a.connectPromise = some (.connecting generation client)) (result : Connection) :
    Owned (a.connected generation client result) := by
  obtain ⟨hiff, c₀, hc₀, hgen, hclient⟩ := h.connecting generation client hp
  have hnone : ∀ page, NoneLive (App.teardownClient { a with page } (some client)) := fun page =>
    noneLive_teardownClient fun id c hc hlive => hclient.symm.trans (h.live id c hc hlive).1
  cases result with
  | failed error =>
    obtain ⟨clients, heq, -⟩ :=
      teardownClient_spec { a with page := a.page.report ("Connection failed: " ++ error) } (some client)
    have hkin := kin_teardownClient { a with page := a.page.report ("Connection failed: " ++ error) } (some client)
    rw [App.connected]
    refine h.settle hkin (hnone _) (by rw [heq]) (by rw [heq]) (by rw [heq]) (fun hon => ?_) (.inr (.inl ⟨client, rfl⟩))
    rw [heq] at hon ⊢
    exact ⟨hon, rfl⟩
  | succeeded micEnabled =>
    rw [App.connected]
    split_ifs with hstale
    · have hoff : a.connectionActive = false := by
        rw [← Bool.not_eq_true]
        exact fun hon => hstale ((hiff.mp hon).trans h.active.symm)
      obtain ⟨clients, heq, -⟩ := teardownClient_spec a (some client)
      refine h.settle (kin_teardownClient a (some client)) (hnone a.page) (by rw [heq]) (by rw [heq]) (by rw [heq])
        (fun hon => ?_) (.inr (.inr ⟨⟨client, rfl⟩, by rw [heq, ← hoff]⟩))
      rw [heq] at hon
      exact absurd hon (Bool.not_eq_true _ ▸ hoff)
    · have hsame := (not_not.mp hstale).trans h.active
      refine ⟨h.active, h.born, fun id c hc hlive => ?_, h.current, (by rintro ⟨⟩), (by rintro _ ⟨⟩), (by rintro _ _ ⟨⟩),
        (by rintro _ ⟨⟩), by rintro _ ⟨⟩⟩
      obtain ⟨hid, hwho⟩ := h.live id c hc hlive
      rcases hwho with hon | ⟨generation', hp'⟩
      · exact ⟨hid, .inl hon⟩
      · rw [hp] at hp'
        cases hp'
        rw [hc₀] at hc
        cases hc
        exact ⟨hid, .inl ⟨hgen.trans hsame, hiff.mpr hsame⟩⟩

theorem forget_eq (a : App) (id : ℕ) : ∃ client, a.forget id = { a with client } := by
  rw [forget]
  split_ifs
  · exact ⟨none, rfl⟩
  · exact ⟨a.client, rfl⟩

/-- **A client reports that it is disconnected.** -/
theorem Owned.onDisconnected (h : Owned a) {id : ℕ} {c : WebClient} (hc : a.clients id = some c)
    (hon : a.connectionActive = true) (hgen : c.generation = a.activeGeneration) :
    Owned ((a.cleanupConnection c.generation).setClient id { c with reported := true }) := by
  rw [hgen, cleanupConnection_of_active hon]
  refine h.shut (fun id' => ?_) (fun id' c' hc' hlive => ?_) rfl rfl rfl rfl rfl (.inl (Nat.lt_succ_self _))
  · rw [clients_setClient]
    split_ifs with hid
    · rw [hid, hc, Option.map_some, Option.map_some, hgen]
    · rfl
  · -- a client of the active generation is the client, and so is one that is live
    rw [clients_setClient] at hc'
    split_ifs at hc' with hid
    · cases Option.some.inj hc'
      cases hlive.2
    · have hthis := h.current id c hc (hgen.trans h.active) hon
      rw [(h.live id' c' hc' hlive).1] at hthis
      exact hid (Option.some.inj hthis)

theorem Owned.callback (h : Owned a) (id : ℕ) (cb : Callback) : Owned (a.callback cfg normalizeUrl id cb) := by
  rw [App.callback]
  rcases hc : a.clients id with _ | c
  · exact h
  have hheard : Owned (if c.generation = a.activeGeneration then { a with page := a.page.hear cfg normalizeUrl cb } else a) := by
    split_ifs
    · exact h.withPage _
    · exact h
  cases cb with
  | onDisconnected =>
    dsimp only
    split_ifs with hstale
    · exact h
    · rw [not_or, Bool.not_eq_false, not_not] at hstale
      exact h.onDisconnected hc hstale.1 hstale.2
  | onConnected => exact hheard
  | onError message => exact hheard
  | onServerMessage m now => exact hheard
  | onTrackStarted track isLocal isAudio => exact hheard
  | onTrackStopped track => exact hheard
  | onAvailableMicsUpdated mics selected => exact hheard
  | onAvailableSpeakersUpdated speakers selected supported => exact hheard

/-- A control does nothing to the connection. -/
theorem control_eq (a : App) (used : PageState.Control) : ∃ page, a.control used = { a with page } := by
  cases used with
  | onToggleMic enabled =>
    rw [control]
    split_ifs
    · exact ⟨a.page, rfl⟩
    · exact ⟨_, rfl⟩
  | onPlayAudio => exact ⟨_, rfl⟩
  | onSelectMic deviceId => exact ⟨_, rfl⟩
  | onSelectSpeaker deviceId supported => exact ⟨_, rfl⟩

variable (cfg) (normalizeUrl) in
/-- **One step keeps the invariant.** -/
theorem Owned.step (h : Owned a) (e : Event) : Owned (a.step cfg normalizeUrl e) := by
  cases e with
  | connect => exact h.connect
  | disconnect => exact h.disconnect.1
  | disconnected =>
    rw [App.step]
    split_ifs with hp
    · exact h.beginConnection (h.disconnecting hp).2
    · exact h
  | discovered result =>
    rw [App.step]
    split
    · rename_i generation hp
      exact h.discovered hp result
    · exact h
  | connected result =>
    rw [App.step]
    split
    · rename_i generation client hp
      exact h.connected hp result
    · exact h
  | tornDown =>
    rw [App.step]
    split
    · rename_i client hp
      obtain ⟨client', heq⟩ := forget_eq a client
      obtain ⟨hoff, hnone⟩ := h.discarding client hp
      rw [heq]
      exact h.settle (fun _ => rfl) hnone rfl rfl rfl (fun hon => absurd hon (Bool.not_eq_true _ ▸ hoff)) (.inl rfl)
    · rename_i client hp
      obtain ⟨client', heq⟩ := forget_eq a client
      rw [heq]
      exact h.settle (fun _ => rfl) (h.failing client hp) rfl rfl rfl (fun hon => by cases hon) (.inl rfl)
    · exact h
  | released =>
    rw [App.step]
    split_ifs with hp
    · refine ⟨h.active, h.born, fun id c hc hlive => ?_, h.current, (by rintro ⟨⟩), (by rintro _ ⟨⟩), (by rintro _ _ ⟨⟩),
        (by rintro _ ⟨⟩), by rintro _ ⟨⟩⟩
      obtain ⟨hid, hwho⟩ := h.live id c hc hlive
      rcases hwho with hon | ⟨generation', hp'⟩
      · exact ⟨hid, .inl hon⟩
      · rw [hp] at hp'
        cases hp'
    · exact h
  | callback client cb => exact h.callback client cb
  | control used =>
    obtain ⟨page, heq⟩ := control_eq a used
    rw [App.step, heq]
    exact h.withPage page
  | settled ending => exact h.withPage _

variable (cfg) (normalizeUrl) in
theorem owned_run (es : List Event) : Owned (run (fun a e => App.step a cfg normalizeUrl e) {} es) :=
  run_invariant_of_step (fun _ e h => h.step cfg normalizeUrl e) owned_start es

/-- **No client is orphaned.**  Whatever is clicked and reported while attempts run: a client that has not been torn down,
and whose own report has not ended the connection, is the client that the next `disconnect()` tears down, and it is
either that of the active connection or still in the hands of its attempt. -/
theorem no_orphaned_client (cfg : RetentionConfig) (normalizeUrl : String → Option String) (es : List Event) :
    let a := run (fun a e => App.step a cfg normalizeUrl e) {} es
    ∀ id c, a.clients id = some c → c.Live →
      a.client = some id ∧ (c.generation = a.activeGeneration ∧ a.connectionActive = true ∨
        ∃ generation, a.connectPromise = some (.connecting generation id)) := by
  intro a id c hc hlive
  rw [(owned_run cfg normalizeUrl es).active]
  exact (owned_run cfg normalizeUrl es).live id c hc hlive

/-- The first connection is active, and its client is live. -/
theorem no_orphaned_client_first :
    (run (fun a e => App.step a retentionConfig some e) {}
      [.connect, .discovered .constructed, .connected (.succeeded true)]).client = some 0 :=
  (no_orphaned_client retentionConfig some _ 0 ⟨1, false, false⟩ rfl ⟨rfl, rfl⟩).1

/-! ## Generations do not come back -/

/-- `b` is no earlier than `a`: the generation has not gone back, and every client has the one it had. -/
def Later (a b : App) : Prop :=
  a.generation ≤ b.generation ∧ ∀ id c, a.clients id = some c → ∃ c', b.clients id = some c' ∧ c'.generation = c.generation

theorem Later.refl (a : App) : Later a a := ⟨le_rfl, fun _ c hc => ⟨c, hc, rfl⟩⟩

theorem Later.trans {b c : App} (h : Later a b) (h' : Later b c) : Later a c := by
  refine ⟨h.1.trans h'.1, fun id k hk => ?_⟩
  obtain ⟨k', hk', hgen⟩ := h.2 id k hk
  obtain ⟨k'', hk'', hgen'⟩ := h'.2 id k' hk'
  exact ⟨k'', hk'', hgen'.trans hgen⟩

theorem Kin.later {b : App} (h : Kin a b) (hle : a.generation ≤ b.generation) : Later a b :=
  ⟨hle, fun _ _ hc => h.exists_right hc⟩

theorem later_teardownClient (a : App) (target : Option ℕ) : Later a (a.teardownClient target) := by
  obtain ⟨clients, heq, -⟩ := teardownClient_spec a target
  exact (kin_teardownClient a target).later (by rw [heq])

theorem later_cleanupConnection (a : App) (generation : ℕ) : Later a (a.cleanupConnection generation) := by
  rw [cleanupConnection]
  split_ifs
  · exact .refl a
  · exact ⟨Nat.le_succ _, fun _ c hc => ⟨c, hc, rfl⟩⟩

theorem later_disconnect (a : App) : Later a a.disconnect :=
  (later_cleanupConnection a _).trans (later_teardownClient _ _)

theorem later_setClient {id : ℕ} {c c' : WebClient} (hc : a.clients id = some c) (hgen : c'.generation = c.generation) :
    Later a (a.setClient id c') := by
  refine ⟨le_rfl, fun id' k hk => ?_⟩
  rw [clients_setClient]
  split_ifs with hid
  · rw [hid, hc] at hk
    exact ⟨c', rfl, hgen.trans (congrArg WebClient.generation (Option.some.inj hk))⟩
  · exact ⟨k, hk, rfl⟩

theorem later_callback (a : App) (id : ℕ) (cb : Callback) : Later a (a.callback cfg normalizeUrl id cb) := by
  rw [callback]
  rcases hc : a.clients id with _ | c
  · exact .refl a
  have hheard : Later a (if c.generation = a.activeGeneration then { a with page := a.page.hear cfg normalizeUrl cb } else a) := by
    split_ifs
    · exact .refl a
    · exact .refl a
  cases cb with
  | onDisconnected =>
    dsimp only
    split_ifs
    · exact .refl a
    · refine (later_cleanupConnection a c.generation).trans (later_setClient (c := c) ?_ rfl)
      rw [cleanupConnection]
      split_ifs
      exact hc
  | onConnected => exact hheard
  | onError message => exact hheard
  | onServerMessage m now => exact hheard
  | onTrackStarted track isLocal isAudio => exact hheard
  | onTrackStopped track => exact hheard
  | onAvailableMicsUpdated mics selected => exact hheard
  | onAvailableSpeakersUpdated speakers selected supported => exact hheard

variable (cfg) (normalizeUrl) in
theorem Owned.later_step (h : Owned a) (e : Event) : Later a (a.step cfg normalizeUrl e) := by
  have hbegin : Later a a.beginConnection := ⟨Nat.le_succ _, fun _ c hc => ⟨c, hc, rfl⟩⟩
  cases e with
  | connect =>
    rw [App.step, App.connect]
    split_ifs
    · exact .refl a
    · exact later_disconnect a
    · exact hbegin
  | disconnect => exact later_disconnect a
  | disconnected =>
    rw [App.step]
    split_ifs
    · exact hbegin
    · exact .refl a
  | discovered result =>
    rw [App.step]
    split
    · cases result with
      | failed error => exact .refl a
      | thrown => exact .refl a
      | constructed =>
        refine ⟨le_rfl, fun id c hc => ⟨c, ?_, rfl⟩⟩
        exact (clients_setClient ..).trans ((if_neg (h.born id c hc).2.ne).trans hc)
    · exact .refl a
  | connected result =>
    rw [App.step]
    split
    · cases result with
      | failed error => exact later_teardownClient { a with page := a.page.report ("Connection failed: " ++ error) } _
      | succeeded micEnabled =>
        rw [App.connected]
        split_ifs
        · exact later_teardownClient a _
        · exact .refl a
    · exact .refl a
  | tornDown =>
    rw [App.step]
    split
    · rename_i client _
      obtain ⟨client', heq⟩ := forget_eq a client
      rw [heq]
      exact .refl a
    · rename_i client _
      obtain ⟨client', heq⟩ := forget_eq a client
      rw [heq]
      exact .refl a
    · exact .refl a
  | released =>
    rw [App.step]
    split_ifs
    · exact .refl a
    · exact .refl a
  | callback client cb => exact later_callback a client cb
  | control used =>
    obtain ⟨page, heq⟩ := control_eq a used
    rw [App.step, heq]
    exact .refl a
  | settled ending => exact .refl a

variable (cfg) (normalizeUrl) in
theorem Owned.later_run (h : Owned a) (es : List Event) : Later a (run (fun a e => App.step a cfg normalizeUrl e) a es) := by
  induction es generalizing a with
  | nil => exact .refl a
  | cons e es ih => exact (h.later_step cfg normalizeUrl e).trans (ih (h.step cfg normalizeUrl e))

/-- What a client of another generation reports changes nothing. -/
theorem callback_of_stale {id : ℕ} {c : WebClient} (hc : a.clients id = some c) (hstale : c.generation ≠ a.activeGeneration)
    (cb : Callback) : a.callback cfg normalizeUrl id cb = a := by
  rw [callback, hc]
  cases cb with
  | onDisconnected => exact if_pos (.inr hstale)
  | onConnected => exact if_neg hstale
  | onError message => exact if_neg hstale
  | onServerMessage m now => exact if_neg hstale
  | onTrackStarted track isLocal isAudio => exact if_neg hstale
  | onTrackStopped track => exact if_neg hstale
  | onAvailableMicsUpdated mics selected => exact if_neg hstale
  | onAvailableSpeakersUpdated speakers selected supported => exact if_neg hstale

/-- **A connection that has been left behind is never heard again.**  Once the active generation is not a client's any
more, by a disconnection or by another attempt, no callback of the client changes anything, nor leaves anything to be
awaited, however the app goes on. -/
theorem callbacks_fenced (cfg : RetentionConfig) (normalizeUrl : String → Option String) (es es' : List Event) (id : ℕ)
    (c : WebClient) (hc : (run (fun a e => App.step a cfg normalizeUrl e) {} es).clients id = some c)
    (hstale : c.generation ≠ (run (fun a e => App.step a cfg normalizeUrl e) {} es).activeGeneration) (cb : Callback) :
    (run (fun a e => App.step a cfg normalizeUrl e) {} (es ++ es')).step cfg normalizeUrl (.callback id cb)
      = run (fun a e => App.step a cfg normalizeUrl e) {} (es ++ es') := by
  have howned := owned_run cfg normalizeUrl es
  have hbefore := (howned.born id c hc).1
  rw [howned.active] at hstale
  have hafter := (owned_run cfg normalizeUrl (es ++ es')).active
  obtain ⟨hle, hclients⟩ := howned.later_run cfg normalizeUrl es'
  rw [run_append] at hafter ⊢
  obtain ⟨c', hc', hgen⟩ := hclients id c hc
  refine callback_of_stale hc' ?_ cb
  rw [hgen, hafter]
  omega

/-- After a disconnection the client's late `onConnected` is not shown. -/
theorem callbacks_fenced_disconnected :
    (run (fun a e => App.step a retentionConfig some e) {}
      ([.connect, .discovered .constructed, .connected (.succeeded true), .disconnect] ++ [])).step retentionConfig some
        (.callback 0 .onConnected)
      = run (fun a e => App.step a retentionConfig some e) {}
        ([.connect, .discovered .constructed, .connected (.succeeded true), .disconnect] ++ []) :=
  callbacks_fenced retentionConfig some _ [] 0 ⟨1, true, false⟩ rfl (by decide) .onConnected

/-- **What is left to be awaited is confined**: whoever is connected by then, it comes to the speaker, its sink and the
diagnostics. -/
theorem settling_confined (page : PageState) (ending : PageState.Settling) :
    ∃ selectedSpeakerId confirmedSinkId switches plays message,
      page.settle ending = { page with selectedSpeakerId, confirmedSinkId, switches, plays, message } := by
  cases ending with
  | sinkSettled i accepted =>
    rw [PageState.settle.eq_def]
    dsimp only
    split
    · exact ⟨_, _, _, _, _, rfl⟩
    · exact ⟨_, _, _, _, _, rfl⟩
  | speakerApplied i =>
    rw [PageState.settle.eq_def]
    dsimp only
    split
    · split_ifs
      · exact ⟨_, _, _, _, _, rfl⟩
      · exact ⟨_, _, _, _, _, rfl⟩
    · exact ⟨_, _, _, _, _, rfl⟩
  | playSettled i started =>
    rw [PageState.settle.eq_def]
    dsimp only
    split
    · split_ifs
      · exact ⟨_, _, _, _, _, rfl⟩
      · exact ⟨_, _, _, _, _, rfl⟩
    · exact ⟨_, _, _, _, _, rfl⟩

-- a switch that a current callback began is seen after the disconnection
example : (run (fun a e => App.step a retentionConfig some e) {}
    [.connect, .discovered .constructed, .connected (.succeeded true),
      .callback 0 (.onAvailableSpeakersUpdated [⟨"usb", "Headset"⟩] (some "usb") true), .disconnect,
      .settled (.sinkSettled 0 true), .settled (.speakerApplied 0)]).page.selectedSpeakerId = some "usb" := by rfl

end App

end Session

end SubagentsLab

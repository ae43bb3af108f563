import SubagentsLab.Host.Handshake
import SubagentsLab.Session.State

/-!
# Host/EpochFence — old epochs and the active state

`SessionState` has one fence, `active_epoch`, and the host writes it: promotion closes it to every older
epoch, `start`, `abort_connection` and `shutdown` take it down.  A run is any interleaving of promotions,
aborted and retired connections, speech that connections hold, and calls of the mutators by whoever is
still running.  A **stroke** is one call with the states around it; strokes of old epochs are harmless as
long as the fence is up when they are made (`old_epochs_fenced`).
-/

namespace SubagentsLab

open Machinery

namespace Session

/-- A `SpeechItem` that is no acknowledgement, as its progress reports name it. -/
structure Utterance where
  resultId : String
  workItemId : String
  runId : String
  utteranceId : String
  originEpoch : Option ℕ
  deriving DecidableEq, Repr

/-- `_progress`, in some state and of some epoch. -/
def Utterance.progress (item : Utterance) (state : DeliveryState) (originEpoch : Option ℕ) : SpeechProgress where
  resultId := item.resultId
  workItemId := item.workItemId
  runId := item.runId
  utteranceId := item.utteranceId
  state
  originEpoch

/-- What the fence sees of a `ConnectionPipeline`: the items its scheduler leases, queues or has paused. -/
structure Lane where
  active : Bool := true
  items : List Utterance := []
  deriving DecidableEq

/-- One call of a mutator, with the states around it and the epochs promoted before it. -/
structure Stroke where
  promoted : List ℕ
  before : SessionState
  call : SessionState.Call
  after : SessionState

/-- What the fence sees of the `SessionHost`.  Connections go by their epochs; `starting` counts the calls
of `start` that await the runner, `issued` remembers every item and `promoted` every epoch. -/
structure FencedHost where
  sessionId : String
  resumeToken : Uuid
  state : SessionState
  arbiter : ConnectionArbiter := {}
  connection : Option ℕ := none
  lanes : ℕ → Option Lane := fun _ => none
  issued : List Utterance := []
  promoted : List ℕ := []
  started : Bool := false
  starting : ℕ := 0
  closing : Bool := false

namespace FencedHost

/-- What happens to the host. -/
inductive Event
  /-- `start` up to its await. -/
  | beginStart
  /-- `start` after its await. -/
  | endStart
  /-- `connect`, from the promotion to the retirement of the old connection. -/
  | connect (handshake : SnapshotHandshake)
  /-- `deactivate` of a connection, by its `shutdown` or as part of it. -/
  | retire (epoch : ℕ) (reconnect : Bool)
  /-- The lifecycle takes a connection out of service, its items with it. -/
  | teardown (epoch : ℕ)
  | abortConnection (epoch : ℕ) (reconnect : Bool)
  | beginShutdown
  /-- `shutdown` retires the connection there is. -/
  | closeConnection
  | endShutdown
  /-- A turn handler or a callback of any connection calls a mutator. -/
  | call (c : SessionState.Call)
  /-- `_commit_and_speak` enqueues a result. -/
  | speak (epoch : ℕ) (item : Utterance)
  /-- `resume` replays an item under a new id. -/
  | resume (epoch : ℕ) (item : Utterance) (replayId : String)
  /-- An item leaves its scheduler: delivered, cancelled or discarded. -/
  | release (epoch : ℕ) (item : Utterance)
  deriving DecidableEq

variable (cfg : RetentionConfig)

/-- Calls made one after the other. -/
def perform : FencedHost → List SessionState.Call → FencedHost × List Stroke
  | h, [] => (h, [])
  | h, c :: cs =>
    let after := (h.state.step cfg c).1
    let r := perform { h with state := after } cs
    (r.1, ⟨h.promoted, h.state, c, after⟩ :: r.2)

/-- The items of a connection. -/
def items (h : FencedHost) (epoch : ℕ) : List Utterance := ((h.lanes epoch).map (·.items)).getD []

/-- The connection holds these items from now on. -/
def hold (h : FencedHost) (epoch : ℕ) (items : List Utterance) : FencedHost :=
  { h with lanes := Function.update h.lanes epoch ((h.lanes epoch).map fun lane => { lane with items }) }

/-- The report a discarded item ends with. -/
def swept (epoch : ℕ) (reconnect : Bool) (item : Utterance) : SessionState.Call :=
  .speechProgress (item.progress (if reconnect then .interruptedByReconnect else .interrupted) (some epoch)) true

/-- The connection is inactive and holds nothing. -/
def clear (h : FencedHost) (epoch : ℕ) : FencedHost :=
  { h with lanes := Function.update h.lanes epoch ((h.lanes epoch).map fun _ => ⟨false, []⟩) }

/-- `ConnectionPipeline.deactivate`. -/
def deactivate (h : FencedHost) (epoch : ℕ) (reconnect : Bool) : FencedHost × List Stroke :=
  (h.clear epoch).perform cfg ((h.items epoch).map (swept epoch reconnect))

/-- A `uuid4` names nothing yet. -/
def fresh (h : FencedHost) (utteranceId : String) : Bool :=
  h.issued.all (·.utteranceId ≠ utteranceId) && (h.state.speech.get? utteranceId).isNone

/-- The calls of `enqueue`. -/
def enqueued (item : Utterance) : List SessionState.Call :=
  [.speechProgress (item.progress .displayed item.originEpoch) false,
    .speechProgress (item.progress .queued item.originEpoch) false]

/-- `accepts`. -/
def accepts (h : FencedHost) (epoch : Option ℕ) : Bool :=
  !h.closing && h.arbiter.accepts epoch && (h.connection.bind h.lanes).any (·.active)

/-- Only the sweep passes `allow_stale_reconnect`, and every report of an item carries its epoch. -/
def regular (h : FencedHost) : SessionState.Call → Bool
  | .speechProgress p allowStaleReconnect =>
    !allowStaleReconnect && h.issued.all fun item => item.utteranceId ≠ p.utteranceId ∨ item.originEpoch = p.originEpoch
  | _ => true

/-- One event, with the strokes it makes. -/
def step (h : FencedHost) : Event → FencedHost × List Stroke
  | .beginStart =>
    if h.started then (h, []) else ({ h with closing := false, starting := h.starting + 1 }, [])
  | .endStart =>
    if h.starting = 0 then (h, [])
    else
      ({ h with starting := h.starting - 1, started := true, state := { h.state with activeEpoch := none } }, [])
  | .connect handshake =>
    if h.started then
      match h.arbiter.promote h.sessionId h.resumeToken handshake with
      | none => (h, [])
      | some arbiter =>
        let epoch := handshake.proposedEpoch
        let next := { h with
          arbiter
          promoted := epoch :: h.promoted
          state := { h.state with activeEpoch := some epoch }
          connection := some epoch
          lanes := Function.update h.lanes epoch (some {}) }
        match h.connection with
        | none => (next, [])
        | some old => next.deactivate cfg old true
    else (h, [])
  | .retire epoch reconnect => h.deactivate cfg epoch reconnect
  | .teardown epoch =>
    ({ h with lanes := Function.update h.lanes epoch ((h.lanes epoch).map fun lane => { lane with active := false }) },
      [])
  | .abortConnection epoch reconnect =>
    if h.connection = some epoch then
      let r := h.deactivate cfg epoch reconnect
      ({ r.1 with connection := none, state := { r.1.state with activeEpoch := none } }, r.2)
    else (h, [])
  | .beginShutdown => ({ h with closing := true }, [])
  | .closeConnection =>
    match h.connection with
    | none => (h, [])
    | some epoch =>
      let r := h.deactivate cfg epoch false
      ({ r.1 with connection := none }, r.2)
  | .endShutdown => ({ h with started := false, state := { h.state with activeEpoch := none } }, [])
  | .call c => if h.regular c then h.perform cfg [c] else (h, [])
  | .speak epoch item =>
    if h.connection = some epoch ∧ h.accepts item.originEpoch ∧ h.fresh item.utteranceId then
      perform cfg { h.hold epoch (h.items epoch ++ [item]) with issued := item :: h.issued } (enqueued item)
    else (h, [])
  | .resume epoch item replayId =>
    if item ∈ h.items epoch ∧ h.fresh replayId then
      let replay := { item with utteranceId := replayId }
      perform cfg { h.hold epoch ((h.items epoch).erase item ++ [replay]) with issued := replay :: h.issued }
        (.speechProgress (item.progress .interrupted item.originEpoch) false :: enqueued replay
          ++ [.speechProgress (replay.progress .resumed replay.originEpoch) false])
    else (h, [])
  | .release epoch item => (h.hold epoch ((h.items epoch).erase item), [])

end FencedHost

/-! ## Old epochs -/

namespace SessionState.Call

/-- The epochs a call carries; a work-status report is none of the fence's business. -/
def carried : SessionState.Call → List ℕ
  | .setWorker w => w.originEpoch.toList
  | .setRouting r => r.originEpoch.toList
  | .appendTranscript t => t.originEpoch.toList
  | .appendResult r _ originEpoch => originEpoch.toList ++ r.originEpoch.toList
  | .speechProgress p _ => p.originEpoch.toList
  | .setChildWorkStatus .. => []

/-- The call carries an epoch older than a promoted one. -/
def Old (promoted : List ℕ) (c : SessionState.Call) : Prop := ∃ e ∈ promoted, ∃ o ∈ c.carried, o < e

instance (promoted : List ℕ) (c : SessionState.Call) : Decidable (c.Old promoted) :=
  inferInstanceAs (Decidable (∃ e ∈ promoted, ∃ o ∈ c.carried, o < e))

end SessionState.Call

/-- **A stroke leaves the active state alone**: at most it ends a speech record of its own epoch, as
teardown does, or appends to the result log. -/
structure Stroke.Harmless (k : Stroke) : Prop where
  workers : k.after.workers = k.before.workers
  routing : k.after.routing = k.before.routing
  transcript : k.after.transcript = k.before.transcript
  speech : ∀ utteranceId, k.after.speech.get? utteranceId = k.before.speech.get? utteranceId ∨
    ∃ p previous ended, k.call = .speechProgress p true ∧ k.before.speech.get? utteranceId = some previous ∧
      previous.originEpoch = p.originEpoch ∧ k.after.speech.get? utteranceId = some ended ∧ ended.state.terminal
  results : k.after.results = k.before.results ∨ ∃ r sequence originEpoch,
    k.call = .appendResult r sequence originEpoch ∧
      k.after.results = k.before.results ++ [SessionState.filedResult r originEpoch]

namespace FencedHost

/-- The condition on a step: a call of an old epoch finds the fence up. -/
def Event.Fenced (h : FencedHost) : Event → Prop
  | .call c => c.Old h.promoted → h.state.activeEpoch.isSome
  | _ => True

instance (h : FencedHost) : (e : Event) → Decidable (e.Fenced h)
  | .call c => inferInstanceAs (Decidable (c.Old h.promoted → h.state.activeEpoch.isSome))
  | .beginStart | .endStart | .connect _ | .retire .. | .teardown _ | .abortConnection .. | .beginShutdown
  | .closeConnection | .endShutdown | .speak .. | .resume .. | .release .. => inferInstanceAs (Decidable True)

end FencedHost

/-! ## One stroke -/

variable {cfg : RetentionConfig} {s : SessionState} {promoted : List ℕ}

/-- **Behind the fence**: a call that carries another epoch than the active one leaves the active state alone. -/
theorem harmless_of_fenced {a o : ℕ} (hactive : s.activeEpoch = some a) {c : SessionState.Call} (ho : o ∈ c.carried)
    (hne : o ≠ a) (hregular : ∀ p, c ≠ .speechProgress p true) :
    (Stroke.mk promoted s c (s.step cfg c).1).Harmless := by
  have hfenced : ∀ e : Option ℕ, o ∈ e.toList → s.fenced e = true := by
    intro e he
    rw [Option.mem_toList] at he
    simp [SessionState.fenced, hactive, he, hne]
  cases c with
  | setWorker w =>
    rw [SessionState.step, SessionState.setWorker, if_pos (hfenced _ ho)]
    exact ⟨rfl, rfl, rfl, fun _ => Or.inl rfl, Or.inl rfl⟩
  | setRouting r =>
    rw [SessionState.step, SessionState.setRouting, if_pos (hfenced _ ho)]
    exact ⟨rfl, rfl, rfl, fun _ => Or.inl rfl, Or.inl rfl⟩
  | appendTranscript t =>
    rw [SessionState.step, SessionState.appendTranscript, if_pos (hfenced _ ho)]
    exact ⟨rfl, rfl, rfl, fun _ => Or.inl rfl, Or.inl rfl⟩
  | appendResult r sequence originEpoch =>
    rw [SessionState.step]
    rcases s.appendResult_cases r sequence originEpoch with hout | ⟨n, workers, -, -, hown, hout, hworkers⟩
    · rw [hout]
      exact ⟨rfl, rfl, rfl, fun _ => Or.inl rfl, Or.inl rfl⟩
    · rw [hout]
      refine ⟨?_, rfl, rfl, fun _ => Or.inl rfl, Or.inr ⟨r, sequence, originEpoch, rfl, rfl⟩⟩
      rcases hworkers with hsame | ⟨hopen, -⟩
      · exact hsame
      · have horigin : originEpoch = some a := by
          simpa [SessionState.fenced, hactive] using hopen
        rcases List.mem_append.mp ho with ho | ho
        · exact absurd (hfenced _ ho) (by rw [hopen]; exact Bool.false_ne_true)
        · rw [Option.mem_toList] at ho
          refine absurd ⟨?_, ?_, ?_⟩ hown
          · rw [horigin]
            rfl
          · rw [ho]
            rfl
          · rw [horigin, ho]
            exact fun hc => hne (Option.some.inj hc).symm
  | speechProgress p allowStaleReconnect =>
    rw [SessionState.step]
    rcases s.speechProgress_cases p allowStaleReconnect with hout | ⟨hopen, -⟩
    · rw [hout]
      exact ⟨rfl, rfl, rfl, fun _ => Or.inl rfl, Or.inl rfl⟩
    · exact absurd (by rw [hopen (hfenced _ ho)]) (hregular p)
  | setChildWorkStatus r now => cases ho

/-- The utterance has a record, and it is of this epoch. -/
def Recorded (s : SessionState) (utteranceId : String) (epoch : ℕ) : Prop :=
  ∃ p, s.speech.get? utteranceId = some p ∧ p.originEpoch = some epoch

/-- **Teardown**: discarding an item that has a record at most ends that record. -/
theorem harmless_of_swept {epoch : ℕ} {item : Utterance} (h : Recorded s item.utteranceId epoch) (reconnect : Bool) :
    (Stroke.mk promoted s (FencedHost.swept epoch reconnect item)
      (s.step cfg (FencedHost.swept epoch reconnect item)).1).Harmless := by
  obtain ⟨previous, hget, horigin⟩ := h
  rw [FencedHost.swept, SessionState.step]
  set p := item.progress (if reconnect then .interruptedByReconnect else .interrupted) (some epoch) with hp
  rcases s.speechProgress_cases p true with hout | ⟨-, hout⟩
  · rw [hout]
    exact ⟨rfl, rfl, rfl, fun _ => Or.inl rfl, Or.inl rfl⟩
  · rw [hout]
    refine ⟨rfl, rfl, rfl, fun utteranceId => ?_, Or.inl rfl⟩
    have hset : (s.speech.set p.utteranceId p).get? utteranceId
        = if utteranceId = p.utteranceId then some p else s.speech.get? utteranceId := Dict.get?_set _ _ _ _
    by_cases hself : utteranceId = item.utteranceId
    · refine Or.inr ⟨p, previous, p, rfl, hself ▸ hget, horigin, hset.trans (if_pos hself), ?_⟩
      rw [hp, Utterance.progress]
      cases reconnect <;> rfl
    · exact Or.inl (hset.trans (if_neg hself))

/-- A report of its own epoch keeps a record. -/
theorem Recorded.step {utteranceId : String} {epoch : ℕ} (h : Recorded s utteranceId epoch) {c : SessionState.Call}
    (hc : ∀ p b, c = .speechProgress p b → p.utteranceId = utteranceId → p.originEpoch = some epoch) :
    Recorded (s.step cfg c).1 utteranceId epoch := by
  rcases s.speech_step cfg c utteranceId with hsame | ⟨p, b, hcall, hself, -, hget⟩
  · rw [Recorded, hsame]
    exact h
  · exact ⟨p, hget, hc p b hcall hself⟩

variable (cfg) in
/-- The first report of an utterance makes its record, when the fence lets it through. -/
theorem recorded_of_displayed {item : Utterance} {epoch : ℕ} (horigin : item.originEpoch = some epoch)
    (hnone : s.speech.get? item.utteranceId = none) (hopen : s.fenced (some epoch) = false) :
    Recorded (s.step cfg (.speechProgress (item.progress .displayed item.originEpoch) false)).1 item.utteranceId
      epoch := by
  have hwrite : s.speechProgress (item.progress .displayed (some epoch)) false
      = SessionState.emit { s with speech := s.speech.set item.utteranceId (item.progress .displayed (some epoch)) }
          (.speechProgress (item.progress .displayed (some epoch))) := by
    have hfirst : (s.speech.get? (item.progress .displayed (some epoch)).utteranceId).any (fun previous =>
        previous.state.terminal || (item.progress .displayed (some epoch)).state.rank < previous.state.rank) = false := by
      rw [Utterance.progress, hnone]
      rfl
    rw [SessionState.speechProgress, hfirst]
    simp [Utterance.progress, hopen]
  rw [SessionState.step, horigin, hwrite]
  exact ⟨_, (Dict.get?_set _ _ _ _).trans (if_pos rfl), rfl⟩

/-! ## Calls in a row -/

namespace FencedHost

variable {h : FencedHost}

/-- Calls change the state and nothing else of the host, and not its fence. -/
theorem perform_frame (cfg : RetentionConfig) (h : FencedHost) (cs : List SessionState.Call) :
    ∃ s', (h.perform cfg cs).1 = { h with state := s' } ∧ s'.activeEpoch = h.state.activeEpoch := by
  induction cs generalizing h with
  | nil => exact ⟨h.state, rfl, rfl⟩
  | cons c cs ih =>
    obtain ⟨s', hframe, hactive⟩ := ih { h with state := (h.state.step cfg c).1 }
    exact ⟨s', hframe, hactive.trans (h.state.activeEpoch_step cfg c)⟩

variable (cfg) in
/-- Records of an utterance outlive calls that report of it, if at all, with its epoch. -/
theorem recorded_perform {utteranceId : String} {epoch : ℕ} (hrecord : Recorded h.state utteranceId epoch)
    {cs : List SessionState.Call} (hcs : ∀ c ∈ cs, ∀ p b, c = .speechProgress p b → p.utteranceId = utteranceId →
      p.originEpoch = some epoch) : Recorded (h.perform cfg cs).1.state utteranceId epoch := by
  induction cs generalizing h with
  | nil => exact hrecord
  | cons c cs ih =>
    exact ih (h := { h with state := (h.state.step cfg c).1 }) (hrecord.step (hcs c List.mem_cons_self))
      fun x hx => hcs x (List.mem_cons_of_mem _ hx)

/-- Every stroke is of one of the calls, made with the fence as it was. -/
theorem stroke_perform {cs : List SessionState.Call} {k : Stroke} (hk : k ∈ (h.perform cfg cs).2) :
    k.promoted = h.promoted ∧ k.call ∈ cs := by
  induction cs generalizing h with
  | nil => cases hk
  | cons c cs ih =>
    rcases List.mem_cons.mp hk with rfl | hk
    · exact ⟨rfl, List.mem_cons_self⟩
    · obtain ⟨hpromoted, hcall⟩ := ih hk
      exact ⟨hpromoted, List.mem_cons_of_mem _ hcall⟩

/-- **A sweep is harmless** when every item has its record. -/
theorem harmless_of_sweep {epoch : ℕ} {reconnect : Bool} {items : List Utterance}
    (hitems : ∀ item ∈ items, Recorded h.state item.utteranceId epoch) {k : Stroke}
    (hk : k ∈ (h.perform cfg (items.map (swept epoch reconnect))).2) : k.Harmless := by
  induction items generalizing h with
  | nil => cases hk
  | cons item items ih =>
    rcases List.mem_cons.mp hk with rfl | hk
    · exact harmless_of_swept (hitems item List.mem_cons_self) reconnect
    · refine ih (fun x hx => (hitems x (List.mem_cons_of_mem _ hx)).step ?_) hk
      rintro p b hcall -
      cases hcall
      rfl

/-! ## The invariant -/

/-- The fence and the connection are of the newest epoch. -/
structure Ordered (h : FencedHost) : Prop where
  fence : ∀ a, h.state.activeEpoch = some a → h.arbiter.active = some a
  current : ∀ e, h.connection = some e → h.arbiter.active = some e
  newest : ∀ e ∈ h.promoted, e ≤ h.arbiter.epoch
  promoted : ∀ a, h.arbiter.active = some a → h.arbiter.epoch = a
  active : h.promoted ≠ [] → h.arbiter.active.isSome

/-- An item a connection may hold: it is the host's connection, and the item has a record of its epoch. -/
def Holds (h : FencedHost) (epoch : ℕ) (item : Utterance) : Prop :=
  h.connection = some epoch ∧ item ∈ h.issued ∧ item.originEpoch = some epoch ∧
    Recorded h.state item.utteranceId epoch

/-- **What the host keeps**: order, and nothing held that may not be. -/
structure Kept (h : FencedHost) : Prop extends Ordered h where
  held : ∀ e, ∀ item ∈ h.items e, h.Holds e item

theorem kept_fresh (sessionId : String) (resumeToken : Uuid) (state : SessionState)
    (hstate : state.activeEpoch = none) : Kept { sessionId, resumeToken, state } where
  fence a ha := (Option.some_ne_none a (ha.symm.trans hstate)).elim
  current _ he := (Option.some_ne_none _ he.symm).elim
  newest _ he := (List.not_mem_nil he).elim
  promoted _ ha := (Option.some_ne_none _ ha.symm).elim
  active hne := absurd rfl hne
  held _ _ hitem := (List.not_mem_nil hitem).elim

/-- A call of the newest epoch is not old. -/
theorem Ordered.not_old (ho : h.Ordered) {e : ℕ} (he : h.arbiter.active = some e) {c : SessionState.Call}
    (hc : ∀ o ∈ c.carried, o = e) : ¬c.Old h.promoted := by
  rintro ⟨e', he', o, hmem, hlt⟩
  have hle := ho.newest e' he'
  rw [ho.promoted e he] at hle
  rw [hc o hmem] at hlt
  exact Nat.lt_irrefl _ (hlt.trans_le hle)

theorem Ordered.perform (ho : h.Ordered) (cs : List SessionState.Call) : (h.perform cfg cs).1.Ordered := by
  obtain ⟨s', hframe, hactive⟩ := perform_frame cfg h cs
  rw [hframe]
  exact ⟨fun a ha => ho.fence a (hactive.symm.trans ha), ho.current, ho.newest, ho.promoted, ho.active⟩

theorem items_perform (h : FencedHost) (cs : List SessionState.Call) (e : ℕ) :
    (h.perform cfg cs).1.items e = h.items e := by
  obtain ⟨s', hframe, -⟩ := perform_frame cfg h cs
  rw [hframe]
  rfl

/-- Calls keep an item held when they report of it, if at all, with its epoch. -/
theorem Holds.perform {epoch : ℕ} {item : Utterance} (hheld : h.Holds epoch item) {cs : List SessionState.Call}
    (hcs : ∀ c ∈ cs, ∀ p b, c = .speechProgress p b → p.utteranceId = item.utteranceId → p.originEpoch = some epoch) :
    (h.perform cfg cs).1.Holds epoch item := by
  obtain ⟨hconnection, hissued, horigin, hrecord⟩ := hheld
  have hrecord' := recorded_perform cfg hrecord hcs
  obtain ⟨s', hframe, -⟩ := perform_frame cfg h cs
  rw [hframe] at hrecord' ⊢
  exact ⟨hconnection, hissued, horigin, hrecord'⟩

theorem items_hold (h : FencedHost) (epoch e : ℕ) (items : List Utterance) :
    (h.hold epoch items).items e = if e = epoch ∧ (h.lanes epoch).isSome then items else h.items e := by
  rw [hold, FencedHost.items, FencedHost.items]
  dsimp only
  by_cases heq : e = epoch
  · subst heq
    rw [Function.update_self]
    rcases h.lanes e with _ | lane <;> simp
  · rw [Function.update_of_ne heq, if_neg fun hc => heq hc.1]

theorem items_deactivate (h : FencedHost) (epoch : ℕ) (reconnect : Bool) (e : ℕ) :
    (h.deactivate cfg epoch reconnect).1.items e = if e = epoch then [] else h.items e := by
  rw [FencedHost.deactivate, items_perform, FencedHost.items, clear]
  dsimp only
  by_cases heq : e = epoch
  · subst heq
    rw [Function.update_self, if_pos rfl]
    rcases h.lanes e with _ | lane <;> rfl
  · rw [Function.update_of_ne heq, if_neg heq]
    rfl

variable (cfg) in
/-- **Retiring a connection is harmless**, when its items have records and nobody else holds any. -/
theorem Ordered.deactivate (ho : h.Ordered) (epoch : ℕ) (reconnect : Bool)
    (hitems : ∀ item ∈ h.items epoch, Recorded h.state item.utteranceId epoch)
    (hothers : ∀ e ≠ epoch, ∀ item ∈ h.items e, h.Holds e item ∧ h.items epoch = []) :
    (h.deactivate cfg epoch reconnect).1.Kept ∧ ∀ k ∈ (h.deactivate cfg epoch reconnect).2, k.Harmless := by
  have hcleared : (h.clear epoch).Ordered := ⟨ho.fence, ho.current, ho.newest, ho.promoted, ho.active⟩
  refine ⟨⟨hcleared.perform _, fun e item hitem => ?_⟩, fun k hmem => ?_⟩
  · rw [items_deactivate] at hitem
    split_ifs at hitem with heq
    · cases hitem
    · obtain ⟨hheld, hnone⟩ := hothers e heq item hitem
      have hheld' : (h.clear epoch).Holds e item := hheld
      refine hheld'.perform fun c hc => ?_
      rw [hnone] at hc
      cases hc
  · exact harmless_of_sweep (h := h.clear epoch) hitems hmem

variable (cfg) in
theorem Kept.deactivate (hk : h.Kept) (epoch : ℕ) (reconnect : Bool) :
    (h.deactivate cfg epoch reconnect).1.Kept ∧ ∀ k ∈ (h.deactivate cfg epoch reconnect).2, k.Harmless := by
  refine hk.toOrdered.deactivate cfg epoch reconnect (fun item hitem => (hk.held epoch item hitem).2.2.2)
    fun e hne item hitem => ⟨hk.held e item hitem, List.eq_nil_iff_forall_not_mem.mpr fun other hother => hne ?_⟩
  exact Option.some.inj ((hk.held e item hitem).1.symm.trans (hk.held epoch other hother).1)

/-- Taking the fence down keeps the invariant. -/
theorem Kept.unfence (hk : h.Kept) : Kept { h with state := { h.state with activeEpoch := none } } where
  fence _ ha := (Option.some_ne_none _ ha.symm).elim
  current := hk.current
  newest := hk.newest
  promoted := hk.promoted
  active := hk.active
  held := hk.held

/-- Letting the connection go keeps the invariant once it holds nothing. -/
theorem Kept.disconnect (hk : h.Kept) {epoch : ℕ} (hconnection : h.connection = some epoch)
    (hitems : h.items epoch = []) : Kept { h with connection := none } where
  fence := hk.fence
  current _ he := (Option.some_ne_none _ he.symm).elim
  newest := hk.newest
  promoted := hk.promoted
  active := hk.active
  held e item hitem := by
    have heq : epoch = e := Option.some.inj (hconnection.symm.trans (hk.held e item hitem).1)
    subst heq
    rw [show FencedHost.items { h with connection := none } epoch = h.items epoch from rfl, hitems] at hitem
    cases hitem

/-! ## One event -/

/-- An event keeps the invariant, and its strokes of old epochs are harmless. -/
def Preserves (cfg : RetentionConfig) (h : FencedHost) (e : Event) : Prop :=
  (h.step cfg e).1.Kept ∧ ∀ k ∈ (h.step cfg e).2, k.call.Old k.promoted → k.Harmless

theorem preserves_of_idle {e : Event} (hk : (h.step cfg e).1.Kept) (hidle : (h.step cfg e).2 = []) :
    Preserves cfg h e := by
  refine ⟨hk, fun k hmem => ?_⟩
  rw [hidle] at hmem
  cases hmem

theorem Kept.connect (hk : h.Kept) (handshake : SnapshotHandshake) : Preserves cfg h (.connect handshake) := by
  by_cases hstarted : h.started = true
  · rcases hpromote : h.arbiter.promote h.sessionId h.resumeToken handshake with _ | arbiter
    · exact preserves_of_idle (by simpa [step, hstarted, hpromote] using hk) (by simp [step, hstarted, hpromote])
    · obtain ⟨rfl, hstale⟩ : arbiter = ⟨handshake.proposedEpoch, some handshake.proposedEpoch⟩ ∧
          ¬(h.arbiter.active.isSome ∧ handshake.proposedEpoch ≤ h.arbiter.epoch) := by
        rw [ConnectionArbiter.promote] at hpromote
        split_ifs at hpromote with _ _ hstale
        cases hpromote
        exact ⟨rfl, hstale⟩
      set next : FencedHost := { h with
        arbiter := ⟨handshake.proposedEpoch, some handshake.proposedEpoch⟩
        promoted := handshake.proposedEpoch :: h.promoted
        state := { h.state with activeEpoch := some handshake.proposedEpoch }
        connection := some handshake.proposedEpoch
        lanes := Function.update h.lanes handshake.proposedEpoch (some {}) } with hnext
      have hnewer : ∀ e ∈ h.promoted, e < handshake.proposedEpoch := by
        intro e he
        have hactive := hk.active (List.ne_nil_of_mem he)
        exact (hk.newest e he).trans_lt (not_le.mp fun hle => hstale ⟨hactive, hle⟩)
      have hordered : next.Ordered := by
        refine ⟨fun _ ha => ha, fun _ he => he, fun e he => ?_, fun _ ha => Option.some.inj ha, fun _ => rfl⟩
        rcases List.mem_cons.mp he with rfl | he
        · exact le_refl _
        · exact (hnewer e he).le
      have hitems : ∀ e, next.items e = if e = handshake.proposedEpoch then [] else h.items e := by
        intro e
        rw [hnext, FencedHost.items]
        dsimp only
        by_cases heq : e = handshake.proposedEpoch
        · rw [heq, Function.update_self, if_pos rfl]
          rfl
        · rw [Function.update_of_ne heq, if_neg heq]
          rfl
      rcases hconnection : h.connection with _ | old
      · have hstep : h.step cfg (.connect handshake) = (next, []) := by
          rw [step, if_pos hstarted, hpromote, hconnection]
        refine preserves_of_idle ?_ (congrArg Prod.snd hstep)
        rw [hstep]
        refine ⟨hordered, fun e item hitem => ?_⟩
        rw [hitems] at hitem
        split_ifs at hitem
        · cases hitem
        · exact absurd (hconnection.symm.trans (hk.held e item hitem).1) (Option.some_ne_none e).symm
      · have hstep : h.step cfg (.connect handshake) = next.deactivate cfg old true := by
          rw [step, if_pos hstarted, hpromote, hconnection]
        have hswept := hordered.deactivate cfg old true (fun item hitem => ?_)
          fun e hne item hitem => ?_
        · rw [Preserves, hstep]
          exact ⟨hswept.1, fun k hmem _ => hswept.2 k hmem⟩
        · rw [hitems] at hitem
          split_ifs at hitem
          · cases hitem
          · exact (hk.held old item hitem).2.2.2
        · rw [hitems] at hitem
          split_ifs at hitem
          · cases hitem
          · exact absurd (Option.some.inj ((hk.held e item hitem).1.symm.trans hconnection)) hne
  · exact preserves_of_idle (by simpa [step, hstarted] using hk) (by simp [step, hstarted])

theorem connection_deactivate (h : FencedHost) (epoch : ℕ) (reconnect : Bool) :
    (h.deactivate cfg epoch reconnect).1.connection = h.connection := by
  obtain ⟨s', hframe, -⟩ := perform_frame cfg (h.clear epoch) ((h.items epoch).map (swept epoch reconnect))
  rw [FencedHost.deactivate, hframe]
  rfl

variable (cfg) in
/-- The host's connection can be retired and let go. -/
theorem Kept.letGo (hk : h.Kept) {epoch : ℕ} (hconnection : h.connection = some epoch) (reconnect : Bool) :
    Kept { (h.deactivate cfg epoch reconnect).1 with connection := none } ∧
      ∀ k ∈ (h.deactivate cfg epoch reconnect).2, k.Harmless := by
  obtain ⟨hkept, hharmless⟩ := hk.deactivate cfg epoch reconnect
  refine ⟨hkept.disconnect ((connection_deactivate h epoch reconnect).trans hconnection) ?_, hharmless⟩
  rw [items_deactivate, if_pos rfl]

theorem Kept.abortConnection (hk : h.Kept) (epoch : ℕ) (reconnect : Bool) :
    Preserves cfg h (.abortConnection epoch reconnect) := by
  by_cases hconnection : h.connection = some epoch
  · obtain ⟨hkept, hharmless⟩ := hk.letGo cfg hconnection reconnect
    rw [Preserves, step, if_pos hconnection]
    exact ⟨hkept.unfence, fun k hmem _ => hharmless k hmem⟩
  · exact preserves_of_idle (by simpa [step, hconnection] using hk) (by simp [step, hconnection])

theorem Kept.closeConnection (hk : h.Kept) : Preserves cfg h .closeConnection := by
  rcases hconnection : h.connection with _ | epoch
  · exact preserves_of_idle (by simpa [step, hconnection] using hk) (by simp [step, hconnection])
  · obtain ⟨hkept, hharmless⟩ := hk.letGo cfg hconnection false
    rw [Preserves, step, hconnection]
    exact ⟨hkept, fun k hmem _ => hharmless k hmem⟩

/-- **A call of an old epoch runs into the fence.** -/
theorem Kept.call (hk : h.Kept) {c : SessionState.Call} (hfenced : Event.Fenced h (.call c)) :
    Preserves cfg h (.call c) := by
  by_cases hregular : h.regular c = true
  · rw [Preserves, step, if_pos hregular]
    have hreports : ∀ e, ∀ item ∈ h.items e, ∀ c' ∈ [c], ∀ p b, c' = .speechProgress p b →
        p.utteranceId = item.utteranceId → p.originEpoch = some e := by
      intro e item hitem c' hc' p b hcall hself
      obtain ⟨-, hissued, horigin, -⟩ := hk.held e item hitem
      rw [← List.mem_singleton.mp hc', hcall, regular, Bool.and_eq_true, List.all_eq_true] at hregular
      rcases of_decide_eq_true (hregular.2 item hissued) with hne | hsame
      · exact absurd hself.symm hne
      · exact hsame.symm.trans horigin
    refine ⟨⟨hk.toOrdered.perform [c], fun e item hitem => ?_⟩, fun k hmem hold => ?_⟩
    · rw [items_perform] at hitem
      exact (hk.held e item hitem).perform (hreports e item hitem)
    · obtain rfl := List.mem_singleton.mp hmem
      obtain ⟨a, hactive⟩ := Option.isSome_iff_exists.mp (hfenced hold)
      obtain ⟨e, he, o, ho, hlt⟩ := hold
      have hle : e ≤ a := hk.promoted a (hk.fence a hactive) ▸ hk.newest e he
      refine harmless_of_fenced hactive ho (hlt.trans_le hle).ne fun p hc => ?_
      subst hc
      exact Bool.false_ne_true hregular
  · exact preserves_of_idle (by simpa [step, hregular] using hk) (by simp [step, hregular])

/-! ## New items -/

/-- The host holds the newcomer already, everything else it holds is in order, and no record names it yet. -/
structure Welcomes (h : FencedHost) (epoch : ℕ) (item : Utterance) : Prop extends Ordered h where
  connection : h.connection = some epoch
  issued : item ∈ h.issued
  origin : item.originEpoch = some epoch
  unrecorded : h.state.speech.get? item.utteranceId = none
  others : ∀ e, ∀ other ∈ h.items e, e = epoch ∧ other = item ∨
    h.Holds e other ∧ other.utteranceId ≠ item.utteranceId

/-- **Enqueuing an item gives it its record.** -/
theorem Welcomes.kept {epoch : ℕ} {item : Utterance} (hw : h.Welcomes epoch item) (cs : List SessionState.Call)
    (hcs : ∀ c ∈ cs, ∃ state, c = .speechProgress (item.progress state item.originEpoch) false) :
    (h.perform cfg (.speechProgress (item.progress .displayed item.originEpoch) false :: cs)).1.Kept := by
  have hopen : h.state.fenced (some epoch) = false := by
    rcases hactive : h.state.activeEpoch with _ | a
    · simp [SessionState.fenced, hactive]
    · have heq := (hw.fence a hactive).symm.trans (hw.current epoch hw.connection)
      simp [SessionState.fenced, hactive, Option.some.inj heq]
  refine ⟨hw.toOrdered.perform _, fun e other hother => ?_⟩
  rw [items_perform] at hother
  rcases hw.others e other hother with ⟨rfl, rfl⟩ | ⟨hheld, hne⟩
  · have hrecord := recorded_of_displayed cfg hw.origin hw.unrecorded hopen
    have hheld : Holds { h with state := (h.state.step cfg (.speechProgress (other.progress .displayed
        other.originEpoch) false)).1 } e other := ⟨hw.connection, hw.issued, hw.origin, hrecord⟩
    refine hheld.perform fun c hc p b hcall _ => ?_
    obtain ⟨state, rfl⟩ := hcs c hc
    cases hcall
    exact hw.origin
  · refine hheld.perform fun c hc p b hcall hself => ?_
    have hreport : ∃ state, c = .speechProgress (item.progress state item.originEpoch) false := by
      rcases List.mem_cons.mp hc with rfl | hc
      · exact ⟨_, rfl⟩
      · exact hcs c hc
    obtain ⟨state, rfl⟩ := hreport
    cases hcall
    exact absurd hself.symm hne

/-- Strokes of the connection's own items are not old. -/
theorem Ordered.not_old_of_reports (ho : h.Ordered) {epoch : ℕ} (hconnection : h.connection = some epoch)
    {cs : List SessionState.Call}
    (hcs : ∀ c ∈ cs, ∃ p b, c = .speechProgress p b ∧ p.originEpoch = some epoch) {k : Stroke}
    (hmem : k ∈ (h.perform cfg cs).2) : ¬k.call.Old k.promoted := by
  obtain ⟨hpromoted, hcall⟩ := stroke_perform hmem
  obtain ⟨p, b, hreport, horigin⟩ := hcs _ hcall
  rw [hpromoted]
  refine ho.not_old (ho.current epoch hconnection) fun o hmem => ?_
  rw [hreport, SessionState.Call.carried, horigin] at hmem
  simpa using hmem

theorem fresh_iff {utteranceId : String} : h.fresh utteranceId = true ↔
    (∀ item ∈ h.issued, item.utteranceId ≠ utteranceId) ∧ h.state.speech.get? utteranceId = none := by
  simp [fresh]

theorem Kept.speak (hk : h.Kept) (epoch : ℕ) (item : Utterance) : Preserves cfg h (.speak epoch item) := by
  by_cases hguard : h.connection = some epoch ∧ h.accepts item.originEpoch ∧ h.fresh item.utteranceId
  · obtain ⟨hconnection, haccepts, hfresh⟩ := hguard
    obtain ⟨hunissued, hnone⟩ := fresh_iff.mp hfresh
    have hactive := hk.current epoch hconnection
    have horigin : item.originEpoch = some epoch := by
      rw [accepts, ConnectionArbiter.accepts, hactive] at haccepts
      simp only [Bool.and_eq_true, decide_eq_true_eq] at haccepts
      exact haccepts.1.2.2
    set next : FencedHost := { h.hold epoch (h.items epoch ++ [item]) with issued := item :: h.issued } with hnext
    have hordered : next.Ordered := ⟨hk.fence, hk.current, hk.newest, hk.promoted, hk.active⟩
    have hwelcomes : next.Welcomes epoch item := by
      refine ⟨hordered, hconnection, List.mem_cons_self, horigin, hnone, fun e other hother => ?_⟩
      have hold : ∀ other ∈ h.items e, next.Holds e other ∧ other.utteranceId ≠ item.utteranceId := by
        intro other hother
        obtain ⟨hcurrent, hissued, hepoch, hrecord⟩ := hk.held e other hother
        exact ⟨⟨hcurrent, List.mem_cons_of_mem _ hissued, hepoch, hrecord⟩, hunissued other hissued⟩
      change other ∈ (h.hold epoch (h.items epoch ++ [item])).items e at hother
      rw [items_hold] at hother
      split_ifs at hother with heq
      · rcases List.mem_append.mp hother with hother | hother
        · exact Or.inr (hold other (heq.1 ▸ hother))
        · exact Or.inl ⟨heq.1, List.mem_singleton.mp hother⟩
      · exact Or.inr (hold other hother)
    rw [Preserves, step, if_pos ⟨hconnection, haccepts, hfresh⟩]
    refine ⟨hwelcomes.kept [_] fun c hc => ⟨_, List.mem_singleton.mp hc⟩, fun k hmem hold => ?_⟩
    refine absurd hold (hordered.not_old_of_reports hconnection (fun c hc => ?_) hmem)
    simp only [enqueued, List.mem_cons, List.not_mem_nil, or_false] at hc
    rcases hc with rfl | rfl
    · exact ⟨_, _, rfl, horigin⟩
    · exact ⟨_, _, rfl, horigin⟩
  · exact preserves_of_idle (by rw [step, if_neg hguard]; exact hk) (by rw [step, if_neg hguard])

theorem Kept.resume (hk : h.Kept) (epoch : ℕ) (item : Utterance) (replayId : String) :
    Preserves cfg h (.resume epoch item replayId) := by
  by_cases hguard : item ∈ h.items epoch ∧ h.fresh replayId
  · obtain ⟨hmem, hfresh⟩ := hguard
    obtain ⟨hunissued, hnone⟩ := fresh_iff.mp hfresh
    obtain ⟨hconnection, hitem, horigin, -⟩ := hk.held epoch item hmem
    set replay := { item with utteranceId := replayId } with hreplay
    let interrupted : SessionState.Call := .speechProgress (item.progress .interrupted item.originEpoch) false
    set next : FencedHost := { h.hold epoch ((h.items epoch).erase item ++ [replay]) with
      issued := replay :: h.issued } with hnext
    have hordered : next.Ordered := ⟨hk.fence, hk.current, hk.newest, hk.promoted, hk.active⟩
    have hwelcomes : (next.perform cfg [interrupted]).1.Welcomes epoch replay := by
      refine ⟨hordered.perform _, hconnection, List.mem_cons_self, horigin, ?_, fun e other hother => ?_⟩
      · rcases h.state.speech_step cfg interrupted replayId with hsame | ⟨p, b, hcall, hself, -⟩
        · exact hsame.trans hnone
        · obtain ⟨rfl, -⟩ := SessionState.Call.speechProgress.inj hcall
          exact absurd hself (hunissued item hitem)
      · have hold : ∀ other ∈ h.items e,
            (next.perform cfg [interrupted]).1.Holds e other ∧ other.utteranceId ≠ replay.utteranceId := by
          intro other hother
          obtain ⟨hcurrent, hissued, hepoch, hrecord⟩ := hk.held e other hother
          have hholds : next.Holds e other := ⟨hcurrent, List.mem_cons_of_mem _ hissued, hepoch, hrecord⟩
          refine ⟨hholds.perform fun c hc p b hcall _ => ?_, hunissued other hissued⟩
          obtain ⟨rfl, -⟩ := SessionState.Call.speechProgress.inj ((List.mem_singleton.mp hc).symm.trans hcall)
          exact horigin.trans (hconnection.symm.trans hcurrent)
        rw [items_perform] at hother
        change other ∈ (h.hold epoch ((h.items epoch).erase item ++ [replay])).items e at hother
        rw [items_hold] at hother
        split_ifs at hother with heq
        · rcases List.mem_append.mp hother with hother | hother
          · exact Or.inr (hold other (heq.1 ▸ List.mem_of_mem_erase hother))
          · exact Or.inl ⟨heq.1, List.mem_singleton.mp hother⟩
        · exact Or.inr (hold other hother)
    rw [Preserves, step, if_pos ⟨hmem, hfresh⟩]
    refine ⟨hwelcomes.kept [_, _] fun c hc => ?_, fun k hk' hold => ?_⟩
    · simp only [List.mem_cons, List.not_mem_nil, or_false] at hc
      rcases hc with rfl | rfl
      · exact ⟨_, rfl⟩
      · exact ⟨_, rfl⟩
    · refine absurd hold (hordered.not_old_of_reports hconnection (fun c hc => ?_) hk')
      simp only [enqueued, List.cons_append, List.nil_append, List.mem_cons, List.not_mem_nil, or_false] at hc
      rcases hc with rfl | rfl | rfl | rfl <;> exact ⟨_, _, rfl, horigin⟩
  · exact preserves_of_idle (by rw [step, if_neg hguard]; exact hk) (by rw [step, if_neg hguard])

theorem Kept.release (hk : h.Kept) (epoch : ℕ) (item : Utterance) : Preserves cfg h (.release epoch item) := by
  refine preserves_of_idle ⟨⟨hk.fence, hk.current, hk.newest, hk.promoted, hk.active⟩, fun e other hother => ?_⟩ rfl
  rw [step, items_hold] at hother
  refine hk.held e other ?_
  split_ifs at hother with heq
  · exact heq.1 ▸ List.mem_of_mem_erase hother
  · exact hother

theorem Kept.teardown (hk : h.Kept) (epoch : ℕ) : Preserves cfg h (.teardown epoch) := by
  refine preserves_of_idle ⟨⟨hk.fence, hk.current, hk.newest, hk.promoted, hk.active⟩, fun e other hother => ?_⟩ rfl
  refine hk.held e other ?_
  rw [step, FencedHost.items] at hother
  dsimp only at hother
  by_cases heq : e = epoch
  · subst heq
    rw [Function.update_self, Option.map_map] at hother
    exact hother
  · rwa [Function.update_of_ne heq] at hother

/-- **One event, with the fence up for old epochs.** -/
theorem Kept.step (hk : h.Kept) {e : Event} (hfenced : e.Fenced h) : Preserves cfg h e := by
  cases e with
  | beginStart =>
    rw [Preserves, FencedHost.step]
    split_ifs
    · exact ⟨hk, fun _ hmem => (List.not_mem_nil hmem).elim⟩
    · exact ⟨⟨⟨hk.fence, hk.current, hk.newest, hk.promoted, hk.active⟩, hk.held⟩,
        fun _ hmem => (List.not_mem_nil hmem).elim⟩
  | endStart =>
    rw [Preserves, FencedHost.step]
    split_ifs
    · exact ⟨hk, fun _ hmem => (List.not_mem_nil hmem).elim⟩
    · have hkept := hk.unfence
      exact ⟨⟨⟨hkept.fence, hkept.current, hkept.newest, hkept.promoted, hkept.active⟩, hkept.held⟩,
        fun _ hmem => (List.not_mem_nil hmem).elim⟩
  | connect handshake => exact hk.connect handshake
  | retire epoch reconnect =>
    obtain ⟨hkept, hharmless⟩ := hk.deactivate cfg epoch reconnect
    exact ⟨hkept, fun k hmem _ => hharmless k hmem⟩
  | teardown epoch => exact hk.teardown epoch
  | abortConnection epoch reconnect => exact hk.abortConnection epoch reconnect
  | beginShutdown =>
    exact preserves_of_idle ⟨⟨hk.fence, hk.current, hk.newest, hk.promoted, hk.active⟩, hk.held⟩ rfl
  | closeConnection => exact hk.closeConnection
  | endShutdown =>
    have hkept := hk.unfence
    exact preserves_of_idle ⟨⟨hkept.fence, hkept.current, hkept.newest, hkept.promoted, hkept.active⟩, hkept.held⟩ rfl
  | call c => exact hk.call hfenced
  | speak epoch item => exact hk.speak epoch item
  | resume epoch item replayId => exact hk.resume epoch item replayId
  | release epoch item => exact hk.release epoch item

/-! ## Runs -/

/-- **Old epochs are fenced off**: in every run whose old calls find the fence up, every stroke that carries
an epoch older than a promoted one leaves the active state alone. -/
theorem old_epochs_fenced (cfg : RetentionConfig) (sessionId : String) (resumeToken : Uuid) (state : SessionState)
    (hstate : state.activeEpoch = none) (es : List Event)
    (hfenced : Guarded (fun h e => (FencedHost.step cfg h e).1) (fun h e => e.Fenced h)
      { sessionId, resumeToken, state } es) :
    ∀ k ∈ outputs (FencedHost.step cfg) { sessionId, resumeToken, state } es,
      k.call.Old k.promoted → k.Harmless := by
  have hrun : ∀ (es : List Event) (h : FencedHost), h.Kept →
      Guarded (fun h e => (FencedHost.step cfg h e).1) (fun h e => e.Fenced h) h es →
      ∀ k ∈ outputs (FencedHost.step cfg) h es, k.call.Old k.promoted → k.Harmless := by
    intro es
    induction es with
    | nil => exact fun _ _ _ _ hmem => (List.not_mem_nil hmem).elim
    | cons e es ih =>
      intro h hk hguard k hmem
      obtain ⟨hkept, hharmless⟩ := hk.step hguard.1
      rcases List.mem_append.mp hmem with hmem | hmem
      · exact hharmless k hmem
      · exact ih _ hkept hguard.2 k hmem
  exact hrun es _ (kept_fresh sessionId resumeToken state hstate) hfenced

/-- The handshake that proposes an epoch. -/
def proposal (proposedEpoch : ℕ) : SnapshotHandshake where
  contractVersion := contractVersion
  sessionId := "session"
  resumeToken := 0
  proposedEpoch
  snapshotSequence := 0

/-- A turn handler of the first connection projects its worker. -/
def lateWorker : SessionState.Call :=
  .setWorker { workerId := "w", topic := "topic", modelPolicy := "light", status := "running", originEpoch := some 1 }

/-- The second connection is promoted and aborted while a turn of the first one is still running. -/
def abortedSetup : List Event :=
  [.beginStart, .endStart, .connect (proposal 1), .connect (proposal 2), .abortConnection 2 false, .call lateWorker]

/-- The first connection has speech queued when the second one replaces it, and a turn still running. -/
def replacedConnection : List Event :=
  [.beginStart, .endStart, .connect (proposal 1), .speak 1 ⟨"r", "work-t", "run-t", "utt", some 1⟩,
    .connect (proposal 2), .call lateWorker, .retire 1 true]

/-- **Aborting a connection opens the fence**: a worker is written by a turn of an older epoch. -/
theorem aborted_setup_opens_fence :
    ¬∀ k ∈ outputs (FencedHost.step retentionConfig)
        { sessionId := "session", resumeToken := 0, state := { sessionId := "session" } } abortedSetup,
      k.call.Old k.promoted → k.Harmless := by
  intro h
  have hworkers : ∀ k ∈ outputs (FencedHost.step retentionConfig)
      { sessionId := "session", resumeToken := 0, state := { sessionId := "session" } } abortedSetup,
      k.call.Old k.promoted → k.after.workers.keys = k.before.workers.keys :=
    fun k hk hold => congrArg Dict.keys (h k hk hold).workers
  revert hworkers
  decide +kernel

theorem old_epochs_fenced_replaced :
    Guarded (fun h e => (FencedHost.step retentionConfig h e).1) (fun h e => e.Fenced h)
        { sessionId := "session", resumeToken := 0, state := { sessionId := "session" } } replacedConnection ∧
      ∀ k ∈ outputs (FencedHost.step retentionConfig)
          { sessionId := "session", resumeToken := 0, state := { sessionId := "session" } } replacedConnection,
        k.call.Old k.promoted → k.Harmless :=
  ⟨by decide +kernel,
    old_epochs_fenced retentionConfig "session" 0 { sessionId := "session" } rfl replacedConnection (by decide +kernel)⟩

end FencedHost

end Session

end SubagentsLab

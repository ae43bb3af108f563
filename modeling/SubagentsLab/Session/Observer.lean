import SubagentsLab.Session.Browser

/-!
# Session/Observer — projected sequences and the snapshot barrier

A connection numbers the events it can see in a sequence of its own, behind the global one.  The snapshot
barrier brings the two together: it pauses the observer and takes the snapshot at once, writes the snapshot
when the wire is clear, and only then seeds the observer with the snapshot's number and replays what was
buffered.  A `Link` is a connection's observer with its barrier; `Link.Sound` is what keeps the numbers
apart.
-/

namespace SubagentsLab

open Machinery

namespace Session

/-- `ProjectedEvent`, with the event it projects. -/
structure ProjectedEvent where
  sequence : ℕ
  event : StateEvent
  deriving DecidableEq

/-- `RuntimeObserver`, subscribed with an emitter. -/
structure RuntimeObserver where
  epoch : ℕ
  supportsWorkStatus : Bool
  projectedSequence : ℕ := 0
  paused : Bool := false
  buffer : List StateEvent := []

namespace RuntimeObserver

variable (o : RuntimeObserver)

/-- `_visible`: every kind is, but work status only to a connection that asked for it. -/
def visible (event : StateEvent) : Bool :=
  event.payload.originEpoch = some (o.epoch : ℤ) &&
    match event.payload with
    | .workStatus _ => o.supportsWorkStatus
    | _ => true

/-- `seed`. -/
def seed (sequence : ℕ) : RuntimeObserver := { o with projectedSequence := sequence }

/-- `_deliver`, with the emit task it creates. -/
def deliver (event : StateEvent) : RuntimeObserver × List ProjectedEvent :=
  if o.visible event then
    ({ o with projectedSequence := o.projectedSequence + 1 }, [⟨o.projectedSequence + 1, event⟩])
  else (o, [])

/-- `_on_event`. -/
def onEvent (event : StateEvent) : RuntimeObserver × List ProjectedEvent :=
  if o.paused then ({ o with buffer := o.buffer ++ [event] }, []) else o.deliver event

/-- `pause`. -/
def pause : RuntimeObserver := { o with paused := true }

/-- `resume`, up to its loop. -/
def beginResume (watermark : Option ℕ) : RuntimeObserver := watermark.elim o o.seed

/-- One round of the loop of `resume`; the buffer is what the loop has not come to. -/
def resumeNext (watermark : Option ℕ) : RuntimeObserver × List ProjectedEvent :=
  match o.buffer with
  | [] => (o, [])
  | event :: rest =>
    let o := { o with buffer := rest }
    if watermark.any (event.sequence ≤ ·) then (o, []) else o.deliver event

/-- `resume`, after its loop. -/
def endResume : RuntimeObserver := { o with buffer := [], paused := false }

end RuntimeObserver

/-- How far `install_baseline` is. -/
inductive BarrierStage
  | opened
  | flushed
  | acknowledged
  | written
  deriving DecidableEq, Repr

/-- What the barrier of a connection is at; `snapshot_lock` admits one at a time. -/
inductive BarrierPhase
  | idle
  | installing (snapshot : RuntimeSnapshot) (stage : BarrierStage)
  | replaying (watermark : Option ℕ)
  deriving DecidableEq

/-- What a connection gives to its writer. -/
inductive Frame
  | increment (p : ProjectedEvent)
  | snapshot (s : RuntimeSnapshot)
  deriving DecidableEq

/-- A connection's observer and its `SnapshotBarrier`. -/
structure Link where
  observer : RuntimeObserver
  phase : BarrierPhase := .idle

namespace Link

/-- The observer of a new connection, seeded where the session is. -/
def attach (epoch : ℕ) (supportsWorkStatus : Bool) (sequence : ℕ) : Link where
  observer := { epoch, supportsWorkStatus, projectedSequence := sequence }

/-- The session raises an event. -/
def onEvent (l : Link) (event : StateEvent) : Link × List ProjectedEvent :=
  ({ l with observer := (l.observer.onEvent event).1 }, (l.observer.onEvent event).2)

/-- `subscribe_paused`, with the snapshot taken right after it. -/
def subscribePaused (l : Link) (snapshot : RuntimeSnapshot) : Link :=
  if l.phase = .idle then ⟨l.observer.pause, .installing snapshot .opened⟩ else l

/-- How an open barrier goes on. -/
inductive Act
  /-- The flush frame is written. -/
  | flush
  /-- The flush frame is acknowledged. -/
  | acknowledge
  | writeSnapshot
  /-- `install_baseline` comes to its end, and seeds the observer. -/
  | settle
  /-- `cancel`, at whatever failed before the snapshot was written. -/
  | cancel
  /-- One buffered event is replayed. -/
  | replayNext
  /-- The buffer is replayed to its end. -/
  | replayEnd
  deriving DecidableEq, Repr

/-- One act of the barrier, with what it gives to the writer. -/
def act (l : Link) (a : Act) : Link × List Frame :=
  match a, l.phase with
  | .flush, .installing snapshot .opened => ({ l with phase := .installing snapshot .flushed }, [])
  | .acknowledge, .installing snapshot .flushed => ({ l with phase := .installing snapshot .acknowledged }, [])
  | .writeSnapshot, .installing snapshot .acknowledged =>
    ({ l with phase := .installing snapshot .written }, [.snapshot snapshot])
  | .settle, .installing snapshot .written =>
    (⟨l.observer.beginResume (some snapshot.snapshotSequence), .replaying (some snapshot.snapshotSequence)⟩, [])
  | .cancel, .installing _ .opened | .cancel, .installing _ .flushed | .cancel, .installing _ .acknowledged =>
    (⟨l.observer.beginResume none, .replaying none⟩, [])
  | .replayNext, .replaying watermark =>
    ({ l with observer := (l.observer.resumeNext watermark).1 },
      (l.observer.resumeNext watermark).2.map .increment)
  | .replayEnd, .replaying _ => if l.observer.buffer = [] then (⟨l.observer.endResume, .idle⟩, []) else (l, [])
  | _, _ => (l, [])

end Link

/-! ## What a link can do -/

namespace RuntimeObserver

theorem deliver_cases (o : RuntimeObserver) (event : StateEvent) :
    o.visible event = true ∧ o.deliver event
        = ({ o with projectedSequence := o.projectedSequence + 1 }, [⟨o.projectedSequence + 1, event⟩]) ∨
      o.visible event = false ∧ o.deliver event = (o, []) := by
  rw [deliver]
  split_ifs with hvisible
  · exact Or.inl ⟨hvisible, rfl⟩
  · exact Or.inr ⟨by simpa using hvisible, rfl⟩

end RuntimeObserver

namespace Link

/-- **The numbers of a link**, when the session is at `now`: the projected number has room for all that is
buffered, and everything buffered is newer than the snapshot it waits for. -/
structure Sound (now : ℕ) (l : Link) : Prop where
  idle : l.phase = .idle → l.observer.paused = false ∧ l.observer.buffer = []
  busy : l.phase ≠ .idle → l.observer.paused = true
  room : l.observer.projectedSequence + l.observer.buffer.length ≤ now
  installing : ∀ snapshot stage, l.phase = .installing snapshot stage →
    l.observer.projectedSequence ≤ snapshot.snapshotSequence ∧
      snapshot.snapshotSequence + l.observer.buffer.length ≤ now ∧
      ∀ event ∈ l.observer.buffer, snapshot.snapshotSequence < event.sequence
  replaying : ∀ watermark, l.phase = .replaying (some watermark) →
    watermark ≤ l.observer.projectedSequence ∧ ∀ event ∈ l.observer.buffer, watermark < event.sequence
  recent : ∀ event ∈ l.observer.buffer, event.sequence ≤ now
  sorted : l.observer.buffer.Pairwise fun e e' => e.sequence < e'.sequence

/-- **What a link does in one act.** -/
inductive Moved (now : ℕ) (l : Link) : Link → List Frame → Prop
  /-- The barrier goes on, or nothing happens. -/
  | waited (phase : BarrierPhase)
      (hphase : phase = l.phase ∨ ∃ snapshot stage stage', l.phase = .installing snapshot stage ∧
        phase = .installing snapshot stage' ∧ (stage = .written ↔ stage' = .written)) :
      Moved now l { l with phase } []
  | wrote (snapshot : RuntimeSnapshot) (hphase : l.phase = .installing snapshot .acknowledged) :
      Moved now l { l with phase := .installing snapshot .written } [.snapshot snapshot]
  | seeded (snapshot : RuntimeSnapshot) (hphase : l.phase = .installing snapshot .written) :
      Moved now l ⟨l.observer.seed snapshot.snapshotSequence, .replaying (some snapshot.snapshotSequence)⟩ []
  | cancelled (snapshot : RuntimeSnapshot) (stage : BarrierStage) (hphase : l.phase = .installing snapshot stage)
      (hstage : stage ≠ .written) : Moved now l { l with phase := .replaying none } []
  | replayed (watermark : Option ℕ) (event : StateEvent) (rest : List StateEvent)
      (hphase : l.phase = .replaying watermark) (hbuffer : l.observer.buffer = event :: rest)
      (hvisible : l.observer.visible event = true) :
      Moved now l
        { l with observer := { l.observer with
            projectedSequence := l.observer.projectedSequence + 1
            buffer := rest } }
        [.increment ⟨l.observer.projectedSequence + 1, event⟩]
  | skipped (watermark : Option ℕ) (event : StateEvent) (rest : List StateEvent)
      (hphase : l.phase = .replaying watermark) (hbuffer : l.observer.buffer = event :: rest)
      (hvisible : l.observer.visible event = false) :
      Moved now l { l with observer := { l.observer with buffer := rest } } []
  | ended (watermark : Option ℕ) (hphase : l.phase = .replaying watermark) (hbuffer : l.observer.buffer = []) :
      Moved now l ⟨l.observer.endResume, .idle⟩ []

variable {l : Link} {now : ℕ}

/-- **Nothing buffered is ever dropped**: an act replays what it comes to, or skips what is not visible. -/
theorem Sound.act (h : l.Sound now) (a : Act) : Moved now l (l.act a).1 (l.act a).2 := by
  have hidle : Moved now l l [] := .waited l.phase (Or.inl rfl)
  unfold Link.act
  split
  · rename_i snapshot hphase
    exact .waited _ (Or.inr ⟨snapshot, _, _, hphase, rfl, by simp⟩)
  · rename_i snapshot hphase
    exact .waited _ (Or.inr ⟨snapshot, _, _, hphase, rfl, by simp⟩)
  · rename_i snapshot hphase
    exact .wrote snapshot hphase
  · rename_i snapshot hphase
    exact .seeded snapshot hphase
  · rename_i snapshot hphase
    exact .cancelled snapshot _ hphase nofun
  · rename_i snapshot hphase
    exact .cancelled snapshot _ hphase nofun
  · rename_i snapshot hphase
    exact .cancelled snapshot _ hphase nofun
  · rename_i watermark hphase
    rw [RuntimeObserver.resumeNext]
    rcases hbuffer : l.observer.buffer with _ | ⟨event, rest⟩
    · exact hidle
    · have hnew : watermark.any (event.sequence ≤ ·) = false := by
        rcases watermark with _ | watermark
        · rfl
        · have hlt := (h.replaying watermark hphase).2 event (by rw [hbuffer]; exact List.mem_cons_self)
          simpa using hlt
      dsimp only
      rw [if_neg (by rw [hnew]; exact Bool.false_ne_true)]
      rcases RuntimeObserver.deliver_cases { l.observer with buffer := rest } event with ⟨hvisible, hout⟩ | ⟨hvisible, hout⟩
      · rw [hout]
        exact .replayed watermark event rest hphase hbuffer hvisible
      · rw [hout]
        exact .skipped watermark event rest hphase hbuffer hvisible
  · rename_i watermark hphase
    split_ifs with hbuffer
    · exact .ended watermark hphase hbuffer
    · exact hidle
  · exact hidle

theorem sound_attach (epoch : ℕ) (supportsWorkStatus : Bool) (now : ℕ) :
    (attach epoch supportsWorkStatus now).Sound now where
  idle _ := ⟨rfl, rfl⟩
  busy h := absurd rfl h
  room := le_rfl
  installing _ _ := nofun
  replaying _ := nofun
  recent _ := nofun
  sorted := List.Pairwise.nil

theorem Moved.sound {l' : Link} {frames : List Frame} (hm : Moved now l l' frames) (h : l.Sound now) : l'.Sound now := by
  cases hm with
  | waited phase hphase =>
    rcases hphase with rfl | ⟨snapshot, stage, stage', hfrom, rfl, -⟩
    · exact h
    · refine ⟨fun hi => (nomatch hi), fun _ => h.busy (by rw [hfrom]; exact fun hi => (nomatch hi)), h.room, fun s st hs => ?_,
        fun _ hw => (nomatch hw), h.recent, h.sorted⟩
      cases hs
      exact h.installing snapshot stage hfrom
  | wrote snapshot hfrom =>
    refine ⟨fun hi => (nomatch hi), fun _ => h.busy (by rw [hfrom]; exact fun hi => (nomatch hi)), h.room, fun s st hs => ?_,
        fun _ hw => (nomatch hw), h.recent, h.sorted⟩
    cases hs
    exact h.installing snapshot _ hfrom
  | seeded snapshot hfrom =>
    obtain ⟨hle, hroom, hnewer⟩ := h.installing snapshot _ hfrom
    refine ⟨fun hi => (nomatch hi), fun _ => h.busy (by rw [hfrom]; exact fun hi => (nomatch hi)), hroom, fun _ _ hs => (nomatch hs),
      fun watermark hw => ?_, h.recent, h.sorted⟩
    cases hw
    exact ⟨le_rfl, hnewer⟩
  | cancelled snapshot stage hfrom hstage =>
    exact ⟨fun hi => (nomatch hi), fun _ => h.busy (by rw [hfrom]; exact fun hi => (nomatch hi)), h.room, fun _ _ hs => (nomatch hs),
      fun _ hw => (nomatch hw), h.recent, h.sorted⟩
  | replayed watermark event rest hfrom hbuffer hvisible =>
    have hsub : ∀ e ∈ rest, e ∈ l.observer.buffer := fun e he => by
      rw [hbuffer]
      exact List.mem_cons_of_mem _ he
    have hroom := h.room
    rw [hbuffer, List.length_cons] at hroom
    refine ⟨fun hi => absurd (hfrom.symm.trans hi) nofun, h.busy, ?_, fun s st hs => absurd (hfrom.symm.trans hs) nofun,
      fun w hw => ⟨(h.replaying w hw).1.trans (Nat.le_succ _), fun e he => (h.replaying w hw).2 e (hsub e he)⟩,
      fun e he => h.recent e (hsub e he), ?_⟩
    · dsimp only
      omega
    · exact (List.pairwise_cons.mp (hbuffer ▸ h.sorted)).2
  | skipped watermark event rest hfrom hbuffer hvisible =>
    have hsub : ∀ e ∈ rest, e ∈ l.observer.buffer := fun e he => by
      rw [hbuffer]
      exact List.mem_cons_of_mem _ he
    have hroom := h.room
    rw [hbuffer, List.length_cons] at hroom
    refine ⟨fun hi => absurd (hfrom.symm.trans hi) nofun, h.busy, ?_, fun s st hs => absurd (hfrom.symm.trans hs) nofun,
      fun w hw => ⟨(h.replaying w hw).1, fun e he => (h.replaying w hw).2 e (hsub e he)⟩,
      fun e he => h.recent e (hsub e he), ?_⟩
    · dsimp only
      omega
    · exact (List.pairwise_cons.mp (hbuffer ▸ h.sorted)).2
  | ended watermark hfrom hbuffer =>
    have hroom := h.room
    rw [hbuffer] at hroom
    exact ⟨fun _ => ⟨rfl, rfl⟩, fun hne => absurd rfl hne, hroom, fun _ _ hs => (nomatch hs),
      fun _ hw => (nomatch hw), fun _ he => (nomatch he), List.Pairwise.nil⟩

/-- Time passes. -/
theorem Sound.mono (h : l.Sound now) {later : ℕ} (hle : now ≤ later) : l.Sound later where
  idle := h.idle
  busy := h.busy
  room := h.room.trans hle
  installing s st hs :=
    ⟨(h.installing s st hs).1, (h.installing s st hs).2.1.trans hle, (h.installing s st hs).2.2⟩
  replaying := h.replaying
  recent e he := (h.recent e he).trans hle
  sorted := h.sorted

theorem Sound.subscribePaused (h : l.Sound now) (snapshot : RuntimeSnapshot) (hnow : snapshot.snapshotSequence = now) :
    (l.subscribePaused snapshot).Sound now := by
  rw [Link.subscribePaused]
  split_ifs with hidle
  · obtain ⟨-, hbuffer⟩ := h.idle hidle
    refine ⟨fun hi => (nomatch hi), fun _ => rfl, h.room, fun s st hs => ?_, fun _ hw => (nomatch hw), h.recent, h.sorted⟩
    cases hs
    have hroom := h.room
    rw [RuntimeObserver.pause]
    dsimp only
    rw [hbuffer] at hroom ⊢
    rw [hnow]
    exact ⟨hroom, le_rfl, fun _ he => (nomatch he)⟩
  · exact h

/-- **What an event does to a link**: it is buffered while the barrier is at work, and projected otherwise. -/
theorem Sound.onEvent_cases (h : l.Sound now) (event : StateEvent) :
    l.phase ≠ .idle ∧ l.onEvent event
        = ({ l with observer := { l.observer with buffer := l.observer.buffer ++ [event] } }, []) ∨
      l.phase = .idle ∧ l.observer.visible event = true ∧ l.onEvent event
        = ({ l with observer := { l.observer with projectedSequence := l.observer.projectedSequence + 1 } },
            [⟨l.observer.projectedSequence + 1, event⟩]) ∨
      l.phase = .idle ∧ l.observer.visible event = false ∧ l.onEvent event = (l, []) := by
  rw [Link.onEvent, RuntimeObserver.onEvent]
  by_cases hidle : l.phase = .idle
  · rw [(h.idle hidle).1, if_neg Bool.false_ne_true]
    rcases l.observer.deliver_cases event with ⟨hvisible, hout⟩ | ⟨hvisible, hout⟩
    · exact Or.inr (Or.inl ⟨hidle, hvisible, by rw [hout]⟩)
    · exact Or.inr (Or.inr ⟨hidle, hvisible, by rw [hout]⟩)
  · exact Or.inl ⟨hidle, by rw [if_pos (h.busy hidle)]⟩

theorem Sound.onEvent (h : l.Sound now) {event : StateEvent} (hlater : now < event.sequence) :
    (l.onEvent event).1.Sound event.sequence := by
  rcases h.onEvent_cases event with ⟨hbusy, hout⟩ | ⟨hidle, -, hout⟩ | ⟨hidle, -, hout⟩
  · have hroom := h.room
    rw [hout]
    refine ⟨fun hi => absurd hi hbusy, h.busy, ?_, fun s st hs => ?_, fun w hw => ?_, fun e he => ?_, ?_⟩
    · dsimp only
      rw [List.length_append, List.length_singleton]
      omega
    · obtain ⟨hle, hroom', hnewer⟩ := h.installing s st hs
      dsimp only
      rw [List.length_append, List.length_singleton]
      refine ⟨hle, by omega, fun e he => ?_⟩
      rcases List.mem_append.mp he with he | he
      · exact hnewer e he
      · rw [List.mem_singleton.mp he]
        omega
    · obtain ⟨hle, hnewer⟩ := h.replaying w hw
      refine ⟨hle, fun e he => ?_⟩
      rcases List.mem_append.mp he with he | he
      · exact hnewer e he
      · rw [List.mem_singleton.mp he]
        omega
    · rcases List.mem_append.mp he with he | he
      · exact (h.recent e he).trans hlater.le
      · rw [List.mem_singleton.mp he]
    · refine List.pairwise_append.mpr ⟨h.sorted, List.pairwise_singleton _ _, fun e he e' he' => ?_⟩
      rw [List.mem_singleton.mp he']
      exact (h.recent e he).trans_lt hlater
  · have hroom := h.room
    obtain ⟨hpaused, hbuffer⟩ := h.idle hidle
    rw [hout]
    refine ⟨h.idle, h.busy, ?_, fun s st hs => absurd (hidle.symm.trans hs) nofun,
      fun w hw => absurd (hidle.symm.trans hw) nofun, fun e he => (h.recent e he).trans hlater.le, h.sorted⟩
    rw [hbuffer] at hroom
    dsimp only
    rw [hbuffer]
    simp only [List.length_nil] at hroom ⊢
    omega
  · rw [hout]
    exact h.mono hlater.le

/-! ## What a link has sent -/

/-- The number of what a link has sent last, the snapshot it has just written included. -/
def last (l : Link) : ℕ :=
  match l.phase with
  | .installing snapshot .written => snapshot.snapshotSequence
  | _ => l.observer.projectedSequence

theorem last_of_idle (hidle : l.phase = .idle) : l.last = l.observer.projectedSequence := by
  rw [last, hidle]

theorem last_of_replaying {watermark : Option ℕ} (hphase : l.phase = .replaying watermark) :
    l.last = l.observer.projectedSequence := by
  rw [last, hphase]

theorem last_of_installing {snapshot : RuntimeSnapshot} {stage : BarrierStage}
    (hphase : l.phase = .installing snapshot stage) (hstage : stage ≠ .written) :
    l.last = l.observer.projectedSequence := by
  rw [last, hphase]
  cases stage <;> first | rfl | exact absurd rfl hstage

theorem Sound.projected_le_last (h : l.Sound now) : l.observer.projectedSequence ≤ l.last := by
  rw [last]
  split
  · rename_i snapshot hphase
    exact (h.installing snapshot _ hphase).1
  · exact le_rfl

/-- What a link keeps that sends nothing. -/
structure Quiet (l l' : Link) : Prop where
  last : l'.last = l.last
  projected : l.observer.projectedSequence ≤ l'.observer.projectedSequence
  visible : l'.observer.visible = l.observer.visible
  epoch : l'.observer.epoch = l.observer.epoch
  buffer : ∀ event ∈ l'.observer.buffer, event ∈ l.observer.buffer
  pending : l'.observer.buffer.filter l.observer.visible = l.observer.buffer.filter l.observer.visible
  installing : ∀ snapshot stage, l'.phase = .installing snapshot stage → ∃ stage', l.phase = .installing snapshot stage'

/-- **What a link sends in one act**: nothing, the snapshot it installs, or the next event it has buffered. -/
theorem Moved.sends {l' : Link} {frames : List Frame} (hm : Moved now l l' frames) (h : l.Sound now) :
    frames = [] ∧ Quiet l l' ∨
      (∃ snapshot, l.phase = .installing snapshot .acknowledged ∧ frames = [.snapshot snapshot] ∧
        l' = { l with phase := .installing snapshot .written }) ∨
      ∃ watermark event rest, l.phase = .replaying watermark ∧ l.observer.buffer = event :: rest ∧
        l.observer.visible event = true ∧ frames = [.increment ⟨l.observer.projectedSequence + 1, event⟩] ∧
        l' = { l with observer := { l.observer with
          projectedSequence := l.observer.projectedSequence + 1
          buffer := rest } } := by
  cases hm with
  | waited phase hphase =>
    refine Or.inl ⟨rfl, ?_⟩
    rcases hphase with rfl | ⟨snapshot, stage, stage', hfrom, rfl, hwritten⟩
    · exact ⟨rfl, le_rfl, rfl, rfl, fun _ he => he, rfl, fun s st hs => ⟨st, hs⟩⟩
    · refine ⟨?_, le_rfl, rfl, rfl, fun _ he => he, rfl, fun s st hs => ?_⟩
      · by_cases hstage : stage = .written
        · rw [Link.last, Link.last, hfrom, hstage, hwritten.mp hstage]
        · exact (last_of_installing rfl fun hc => hstage (hwritten.mpr hc)).trans (last_of_installing hfrom hstage).symm
      · cases hs
        exact ⟨stage, hfrom⟩
  | wrote snapshot hfrom => exact Or.inr (Or.inl ⟨snapshot, hfrom, rfl, rfl⟩)
  | seeded snapshot hfrom =>
    refine Or.inl ⟨rfl, ?_, (h.installing snapshot _ hfrom).1, rfl, rfl, fun _ he => he, rfl,
      fun _ _ hs => (nomatch hs)⟩
    rw [Link.last, Link.last, hfrom]
    rfl
  | cancelled snapshot stage hfrom hstage =>
    refine Or.inl ⟨rfl, ?_, le_rfl, rfl, rfl, fun _ he => he, rfl,
      fun _ _ hs => (nomatch hs)⟩
    exact (last_of_installing hfrom hstage).symm
  | replayed watermark event rest hfrom hbuffer hvisible =>
    exact Or.inr (Or.inr ⟨watermark, event, rest, hfrom, hbuffer, hvisible, rfl, rfl⟩)
  | skipped watermark event rest hfrom hbuffer hvisible =>
    refine Or.inl ⟨rfl, ?_, le_rfl, rfl, rfl, fun e he => ?_, ?_, fun s st hs => ⟨st, hs⟩⟩
    · rw [last_of_replaying hfrom]
      exact last_of_replaying hfrom
    · rw [hbuffer]
      exact List.mem_cons_of_mem _ he
    · rw [hbuffer, List.filter_cons_of_neg (by rw [hvisible]; exact Bool.false_ne_true)]
  | ended watermark hfrom hbuffer =>
    refine Or.inl ⟨rfl, ?_, le_rfl, rfl, rfl, fun _ he => (nomatch he), ?_,
      fun _ _ hs => (nomatch hs)⟩
    · rw [last_of_replaying hfrom]
      rfl
    · rw [hbuffer]
      rfl

end Link

end Session

end SubagentsLab

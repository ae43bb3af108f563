import SubagentsLab.Session.Observer

/-!
# Session/Barrier — one connection over a wire that loses nothing

The session raises events, the connection's observer projects them into emit tasks, the tasks write to the
wire in the order they were made, the barrier writes snapshots between them, and the browser reads what
arrives.  A **cursor** is where the browser will be after the frames on their way; every frame fits the
cursor it meets (`barrier_safe`).
-/

namespace SubagentsLab

open Machinery

namespace Session

/-- The message a frame is sent as. -/
def Frame.message (sessionId : String) (epoch : ℕ) : Frame → Message
  | increment p => .increment sessionId p.sequence epoch p.event.payload
  | snapshot s => .snapshot s

/-- The emit tasks among frames. -/
def Frame.projected : Frame → Option ProjectedEvent
  | increment p => some p
  | snapshot _ => none

/-- A session, one connection of it and the browser at its end.  `installed` remembers the snapshot the
browser installed last. -/
structure Hookup where
  state : SessionState
  link : Link
  tasks : List ProjectedEvent := []
  wire : List Frame := []
  browser : Browser := {}
  installed : Option RuntimeSnapshot := none

namespace Hookup

/-- What happens. -/
inductive Event
  /-- The session is written to, or another epoch is put in charge. -/
  | move (m : Move)
  /-- `attempt_snapshot_delivery` pauses the observer and takes the snapshot. -/
  | request (now : ℚ)
  | act (a : Link.Act)
  /-- The oldest emit task runs. -/
  | runTask
  /-- The browser reads the oldest frame. -/
  | receive (now : ℚ)

variable (cfg : RetentionConfig) (normalizeUrl : String → Option String)

/-- The observer hears of an event. -/
def hear (h : Hookup) (event : StateEvent) : Hookup :=
  { h with link := (h.link.onEvent event).1, tasks := h.tasks ++ (h.link.onEvent event).2 }

/-- The message of a frame of this connection. -/
def message (h : Hookup) (f : Frame) : Message := f.message h.state.sessionId h.link.observer.epoch

/-- One event. -/
def step (h : Hookup) : Event → Hookup
  | .move m => (m.apply cfg h.state).2.foldl hear { h with state := (m.apply cfg h.state).1 }
  | .request now =>
    if h.link.phase = .idle then
      let r := h.state.snapshot cfg (some h.link.observer.epoch) h.link.observer.supportsWorkStatus now
      { h with state := r.1, link := h.link.subscribePaused r.2 }
    else h
  | .act a =>
    { h with
      link := (h.link.act a).1
      tasks := h.tasks ++ (h.link.act a).2.filterMap Frame.projected
      wire := h.wire ++ (h.link.act a).2.filter (·.projected.isNone) }
  | .runTask =>
    match h.tasks with
    | [] => h
    | task :: tasks => { h with tasks, wire := h.wire ++ [.increment task] }
  | .receive now =>
    match h.wire with
    | [] => h
    | f :: wire =>
      { h with
        wire
        browser := h.browser.applyServerMessage cfg normalizeUrl (h.message f) now
        installed :=
          match f with
          | .snapshot s => if h.browser.reception (h.message f) = .installed then some s else h.installed
          | .increment _ => h.installed }

/-- A new connection of a session, and a browser that has seen nothing. -/
def start (state : SessionState) (epoch : ℕ) (supportsWorkStatus : Bool) : Hookup where
  state
  link := .attach epoch supportsWorkStatus state.sequence

end Hookup

/-! ## Cursors -/

/-- Where a browser is: the last number it applied, and the number of its snapshot. -/
abbrev Cursor := Option (ℕ × ℕ)

namespace Cursor

/-- Where a frame takes the browser. -/
def advance : Cursor → Frame → Cursor
  | _, .snapshot s => some (s.snapshotSequence, s.snapshotSequence)
  | none, .increment _ => none
  | some (last, base), .increment p => if p.sequence = last + 1 then some (last + 1, base) else some (last, base)

/-- **A frame fits where the browser is**: a snapshot is not behind, and an increment is either the next one,
of an event the snapshot does not contain, or an old one, of an event it does contain. -/
def Fits (sessionId : String) (epoch : ℕ) : Cursor → Frame → Prop
  | c, .snapshot s => s.sessionId = sessionId ∧ s.originEpoch = some epoch ∧ ∀ last base, c = some (last, base) →
      last ≤ s.snapshotSequence
  | none, .increment _ => True
  | some (last, base), .increment p =>
      p.sequence ≤ last ∧ p.event.sequence ≤ base ∨ p.sequence = last + 1 ∧ base < p.event.sequence

variable {sessionId : String} {epoch : ℕ}

/-- Increments only take the browser forward. -/
theorem le_run_increments {ts : List ProjectedEvent} {last base last' base' : ℕ}
    (h : run advance (some (last, base)) (ts.map .increment) = some (last', base')) : last ≤ last' := by
  induction ts generalizing last with
  | nil =>
    cases h
    exact le_rfl
  | cons t ts ih =>
    rw [List.map_cons, run_cons, advance] at h
    split_ifs at h
    · exact (Nat.le_succ _).trans (ih h)
    · exact ih h

theorem run_increments_none (ts : List ProjectedEvent) : run advance none (ts.map .increment) = none := by
  induction ts with
  | nil => rfl
  | cons t ts ih => exact ih

/-- Increments of a browser that has a snapshot leave it with one. -/
theorem exists_run_increments (ts : List ProjectedEvent) (last base : ℕ) :
    ∃ last' base', run advance (some (last, base)) (ts.map .increment) = some (last', base') := by
  induction ts generalizing last with
  | nil => exact ⟨last, base, rfl⟩
  | cons t ts ih =>
    rw [List.map_cons, run_cons, advance]
    split_ifs
    · exact ih (last + 1)
    · exact ih last

variable (sessionId) (epoch) in
/-- **What a snapshot contains fits behind it**, and is passed over. -/
theorem fits_contained {ts : List ProjectedEvent} {base : ℕ}
    (h : ∀ t ∈ ts, t.sequence ≤ base ∧ t.event.sequence ≤ base) :
    Guarded advance (Fits sessionId epoch) (some (base, base)) (ts.map .increment) ∧
      run advance (some (base, base)) (ts.map .increment) = some (base, base) := by
  induction ts with
  | nil => exact ⟨trivial, rfl⟩
  | cons t ts ih =>
    obtain ⟨hsequence, hevent⟩ := h t List.mem_cons_self
    obtain ⟨hguarded, hrun⟩ := ih fun x hx => h x (List.mem_cons_of_mem _ hx)
    have hstay : advance (some (base, base)) (.increment t) = some (base, base) := by
      rw [advance, if_neg (by omega)]
    rw [List.map_cons, run_cons, Guarded, hstay]
    exact ⟨⟨Or.inl ⟨hsequence, hevent⟩, hguarded⟩, hrun⟩

end Cursor

/-! ## The invariant -/

/-- Where the browser will be once everything sent has arrived. -/
structure Link.Ahead (now : ℕ) (l : Link) (last base : ℕ) : Prop where
  sent : last = l.last
  known : base ≤ now
  newer : ∀ event ∈ l.observer.buffer, base < event.sequence

/-- Emit tasks that have not run are behind the observer, and behind a snapshot that is being installed. -/
structure Link.Behind (now : ℕ) (l : Link) (t : ProjectedEvent) : Prop where
  sequence : t.sequence ≤ l.observer.projectedSequence
  recent : t.event.sequence ≤ now
  contained : ∀ snapshot stage, l.phase = .installing snapshot stage → t.event.sequence ≤ snapshot.snapshotSequence

/-- The browser's own cursor. -/
def Browser.cursor (b : Browser) : Cursor :=
  if b.serverState then some (b.lastAppliedSequence, b.lastSnapshotSequence) else none

/-- A browser at its one connection, that never missed anything. -/
structure Attuned (sessionId : String) (epoch : ℕ) (b : Browser) (installed : Option RuntimeSnapshot) : Prop where
  gaps : b.gaps = 0
  pending : b.snapshotRequestPending = false
  before : b.serverState = false → b.sessionId = none ∧ b.connectionEpoch = none ∧ b.lastAppliedSequence = 0 ∧
    b.lastSnapshotSequence = 0 ∧ installed = none
  after : b.serverState = true → b.sessionId = some sessionId ∧ b.connectionEpoch = some epoch ∧
    b.lastSnapshotSequence ≤ b.lastAppliedSequence ∧
    ∃ s, installed = some s ∧ s.snapshotSequence = b.lastSnapshotSequence

/-- What the wire and the tasks still have for the browser. -/
def Hookup.stream (h : Hookup) : List Frame := h.wire ++ h.tasks.map .increment

/-- **What a connection keeps.** -/
structure Hookup.Tuned (sessionId : String) (epoch : ℕ) (h : Hookup) : Prop where
  session : h.state.sessionId = sessionId
  own : h.link.observer.epoch = epoch
  link : h.link.Sound h.state.sequence
  taken : ∀ snapshot stage, h.link.phase = .installing snapshot stage →
    snapshot.sessionId = sessionId ∧ snapshot.originEpoch = some epoch
  browser : Attuned sessionId epoch h.browser h.installed
  fits : Guarded Cursor.advance (Cursor.Fits sessionId epoch) h.browser.cursor h.stream
  ahead : ∀ last base, run Cursor.advance h.browser.cursor h.stream = some (last, base) →
    h.link.Ahead h.state.sequence last base
  behind : ∀ t ∈ h.tasks, h.link.Behind h.state.sequence t

/-! ## The browser -/

/-- **What becomes of a frame that fits.** -/
structure Proper (b : Browser) (installed : Option RuntimeSnapshot) (m : Message) (f : Frame) : Prop where
  noGap : b.reception m ≠ .gap
  snapshot : ∀ s, f = .snapshot s → b.reception m = .installed
  increment : ∀ p, f = .increment p → ∀ s, installed = some s →
    (s.snapshotSequence < p.event.sequence ↔ b.reception m = .applied)

variable {cfg : RetentionConfig} {normalizeUrl : String → Option String} {sessionId : String} {epoch : ℕ}
  {b : Browser} {installed : Option RuntimeSnapshot}

variable (cfg) (normalizeUrl) in
theorem Attuned.snapshot (h : Attuned sessionId epoch b installed) {s : RuntimeSnapshot}
    (hf : Cursor.Fits sessionId epoch b.cursor (.snapshot s)) (now : ℚ) :
    b.reception (.snapshot s) = .installed ∧
      Attuned sessionId epoch (b.applyServerMessage cfg normalizeUrl (.snapshot s) now) (some s) ∧
      (b.applyServerMessage cfg normalizeUrl (.snapshot s) now).cursor = b.cursor.advance (.snapshot s) := by
  obtain ⟨hsession, hepoch, hlast⟩ := hf
  have hsame : b.forSession s = b := by
    refine Browser.forSession_eq fun id hid => ?_
    rcases hstate : b.serverState
    · exact absurd (hid.symm.trans (h.before hstate).1) (Option.some_ne_none id)
    · rw [hsession]
      exact Option.some.inj (hid.symm.trans (h.after hstate).1)
  have hbounds : b.lastAppliedSequence ≤ s.snapshotSequence ∧ b.lastSnapshotSequence ≤ s.snapshotSequence := by
    rcases hstate : b.serverState
    · obtain ⟨-, -, hzero, hzero', -⟩ := h.before hstate
      rw [hzero, hzero']
      exact ⟨Nat.zero_le _, Nat.zero_le _⟩
    · have hle := hlast b.lastAppliedSequence b.lastSnapshotSequence (by rw [Browser.cursor, hstate, if_pos rfl])
      exact ⟨hle, (h.after hstate).2.2.1.trans hle⟩
  have hnewest : (b.connectionEpoch.any fun epoch => s.originEpoch.any (· < epoch)) = false := by
    rcases hstate : b.serverState
    · rw [(h.before hstate).2.1]
      rfl
    · simp [(h.after hstate).2.1, hepoch]
  have hinstalled : b.reception (.snapshot s) = .installed := by
    rw [Browser.reception, hsame, if_neg (Nat.not_lt.mpr (max_le hbounds.1 hbounds.2)), hnewest,
      if_neg Bool.false_ne_true]
  refine ⟨hinstalled, ?_, ?_⟩
  · rw [Browser.applyServerMessage, if_pos hinstalled, hsame, Browser.snapshotState]
    refine ⟨h.gaps, rfl, by rintro ⟨⟩, fun _ => ⟨congrArg some hsession, by rw [hepoch]; rfl, ?_, s, rfl, ?_⟩⟩
    · exact max_le hbounds.2 le_rfl
    · exact (max_eq_right hbounds.2).symm
  · rw [Browser.applyServerMessage, if_pos hinstalled, hsame, Browser.snapshotState, Browser.cursor, if_pos rfl,
      Cursor.advance]
    dsimp only
    rw [max_eq_right hbounds.2]

variable (cfg) (normalizeUrl) in
theorem Attuned.increment (h : Attuned sessionId epoch b installed) {p : ProjectedEvent}
    (hf : Cursor.Fits sessionId epoch b.cursor (.increment p)) (now : ℚ) :
    b.reception (.increment sessionId p.sequence epoch p.event.payload) ≠ .gap ∧
      (∀ s, installed = some s → (s.snapshotSequence < p.event.sequence ↔
        b.reception (.increment sessionId p.sequence epoch p.event.payload) = .applied)) ∧
      Attuned sessionId epoch
        (b.applyServerMessage cfg normalizeUrl (.increment sessionId p.sequence epoch p.event.payload) now) installed ∧
      (b.applyServerMessage cfg normalizeUrl (.increment sessionId p.sequence epoch p.event.payload) now).cursor
        = b.cursor.advance (.increment p) := by
  rcases hstate : b.serverState
  · obtain ⟨hsession, hepoch, -, -, hnone⟩ := h.before hstate
    have hreception : b.reception (.increment sessionId p.sequence epoch p.event.payload) = .beforeSnapshot := by
      rw [Browser.reception, hsession, hepoch, if_neg (by simp [Browser.known]), if_neg (by simp), if_pos hstate]
    have hsame : b.applyServerMessage cfg normalizeUrl (.increment sessionId p.sequence epoch p.event.payload) now = b :=
      Browser.applyServerMessage_ignored (by rw [hreception]; rintro ⟨⟩) (by rw [hreception]; rintro ⟨⟩) now
    rw [hreception, hsame]
    refine ⟨by rintro ⟨⟩, fun s hs => absurd (hnone.symm.trans hs) (by rintro ⟨⟩), h, ?_⟩
    rw [Browser.cursor, hstate, if_neg Bool.false_ne_true]
    rfl
  · obtain ⟨hsession, hepoch, hle, s, hs, hbase⟩ := h.after hstate
    have hcursor : b.cursor = some (b.lastAppliedSequence, b.lastSnapshotSequence) := by
      rw [Browser.cursor, hstate, if_pos rfl]
    rw [hcursor] at hf ⊢
    have hunfold : b.reception (.increment sessionId p.sequence epoch p.event.payload)
        = if p.sequence = 0 ∨ p.sequence ≤ b.lastAppliedSequence then .old
          else if p.sequence < b.lastSnapshotSequence then .belowSnapshot
          else if p.sequence ≠ b.lastAppliedSequence + 1 then .gap else .applied := by
      rw [Browser.reception, if_neg (by simp [hsession]), if_neg (by simp [hepoch]), if_neg (by simp [hstate]), h.pending]
      rfl
    rcases hf with ⟨hsequence, hevent⟩ | ⟨hsequence, hevent⟩
    · have hreception : b.reception (.increment sessionId p.sequence epoch p.event.payload) = .old := by
        rw [hunfold, if_pos (Or.inr hsequence)]
      have hsame : b.applyServerMessage cfg normalizeUrl (.increment sessionId p.sequence epoch p.event.payload) now = b :=
        Browser.applyServerMessage_ignored (by rw [hreception]; rintro ⟨⟩) (by rw [hreception]; rintro ⟨⟩) now
      rw [hreception, hsame]
      refine ⟨by rintro ⟨⟩, fun s' hs' => ?_, h, ?_⟩
      · cases hs.symm.trans hs'
        exact ⟨fun hlt => absurd (hbase ▸ hlt) (Nat.not_lt.mpr hevent), by rintro ⟨⟩⟩
      · rw [hcursor, Cursor.advance, if_neg (by omega)]
    · have hreception : b.reception (.increment sessionId p.sequence epoch p.event.payload) = .applied := by
        rw [hunfold, if_neg (by omega), if_neg (by omega), if_neg (by omega)]
      have happly : b.applyServerMessage cfg normalizeUrl (.increment sessionId p.sequence epoch p.event.payload) now
          = { b with
              view := b.view.applyIncrement cfg normalizeUrl p.event.payload now
              lastAppliedSequence := p.sequence
              snapshotRequestPending := false } := by
        rw [Browser.applyServerMessage, hreception]
      rw [hreception, happly]
      refine ⟨by rintro ⟨⟩, fun s' hs' => ?_, ⟨h.gaps, rfl, fun hc => ?_, fun _ => ⟨hsession, hepoch, ?_, s, hs, hbase⟩⟩, ?_⟩
      · cases hs.symm.trans hs'
        exact ⟨fun _ => rfl, fun _ => hbase ▸ hevent⟩
      · exact absurd (hc.symm.trans hstate) Bool.false_ne_true
      · dsimp only
        omega
      · rw [Browser.cursor, Cursor.advance, if_pos hsequence]
        dsimp only
        rw [hstate, if_pos rfl, hsequence]

/-! ## One event -/

namespace Hookup

variable {h : Hookup}

theorem tuned_start (state : SessionState) (epoch : ℕ) (supportsWorkStatus : Bool) :
    (start state epoch supportsWorkStatus).Tuned state.sessionId epoch where
  session := rfl
  own := rfl
  link := Link.sound_attach epoch supportsWorkStatus state.sequence
  taken _ _ := nofun
  browser := ⟨rfl, rfl, fun _ => ⟨rfl, rfl, rfl, rfl, rfl⟩, nofun⟩
  fits := trivial
  ahead _ _ := nofun
  behind _ := nofun

/-- **A frame at the end of the stream**: the next increment of an event the snapshot does not contain. -/
theorem Tuned.append (ht : h.Tuned sessionId epoch) (event : StateEvent)
    (hlast : h.link.last = h.link.observer.projectedSequence)
    (hnewer : ∀ last base, run Cursor.advance h.browser.cursor h.stream = some (last, base) → base < event.sequence) :
    Guarded Cursor.advance (Cursor.Fits sessionId epoch) h.browser.cursor
        (h.stream ++ [.increment ⟨h.link.observer.projectedSequence + 1, event⟩]) ∧
      ∀ last base, run Cursor.advance h.browser.cursor
          (h.stream ++ [.increment ⟨h.link.observer.projectedSequence + 1, event⟩]) = some (last, base) →
        last = h.link.observer.projectedSequence + 1 ∧
          ∃ last', run Cursor.advance h.browser.cursor h.stream = some (last', base) := by
  rw [guarded_append, run_append]
  rcases hend : run Cursor.advance h.browser.cursor h.stream with _ | ⟨last, base⟩
  · exact ⟨⟨ht.fits, trivial, trivial⟩, nofun⟩
  · have hsent : last = h.link.observer.projectedSequence := (ht.ahead last base hend).sent.trans hlast
    refine ⟨⟨ht.fits, Or.inr ⟨congrArg (· + 1) hsent.symm, hnewer last base hend⟩, trivial⟩, fun last' base' hrun => ?_⟩
    rw [run_cons, run_nil, Cursor.advance, if_pos (congrArg (· + 1) hsent.symm)] at hrun
    cases hrun
    exact ⟨congrArg (· + 1) hsent, last, rfl⟩

theorem Tuned.hear (ht : h.Tuned sessionId epoch) {state : SessionState} (hsession : state.sessionId = sessionId)
    {event : StateEvent} (hsequence : event.sequence = state.sequence) (hlater : h.state.sequence < state.sequence) :
    (Hookup.hear { h with state } event).Tuned sessionId epoch := by
  have hlater' : h.state.sequence < event.sequence := hsequence ▸ hlater
  have hsound := hsequence ▸ ht.link.onEvent hlater'
  have hnewer : ∀ last base, run Cursor.advance h.browser.cursor h.stream = some (last, base) → base < event.sequence :=
    fun last base hrun => (ht.ahead last base hrun).known.trans_lt hlater'
  rcases ht.link.onEvent_cases event with ⟨hbusy, hout⟩ | ⟨hidle, -, hout⟩ | ⟨hidle, -, hout⟩
  · rw [hout] at hsound
    rw [Hookup.hear, hout, List.append_nil]
    refine ⟨hsession, ht.own, hsound, ht.taken, ht.browser, ht.fits, fun last base hrun => ?_, fun t hmem => ?_⟩
    · obtain ⟨hsent, hknown, hold⟩ := ht.ahead last base hrun
      refine ⟨hsent, hknown.trans hlater.le, fun e he => ?_⟩
      rcases List.mem_append.mp he with he | he
      · exact hold e he
      · rw [List.mem_singleton.mp he]
        exact hnewer last base hrun
    · obtain ⟨hle, hrecent, hcontained⟩ := ht.behind t hmem
      exact ⟨hle, hrecent.trans hlater.le, hcontained⟩
  · rw [hout] at hsound
    obtain ⟨hfits, hend⟩ := ht.append event (Link.last_of_idle hidle) hnewer
    have hstream : Hookup.stream (Hookup.hear { h with state } event)
        = h.stream ++ [.increment ⟨h.link.observer.projectedSequence + 1, event⟩] := by
      rw [Hookup.hear, hout, Hookup.stream, Hookup.stream]
      dsimp only
      rw [List.map_append, List.append_assoc]
      rfl
    refine ⟨hsession, ?_, ?_, ?_, ht.browser, ?_, fun last base hrun => ?_, fun t hmem => ?_⟩
    · rw [Hookup.hear, hout]
      exact ht.own
    · rw [Hookup.hear, hout]
      exact hsound
    · rw [Hookup.hear, hout]
      exact fun s st hs => absurd (hidle.symm.trans hs) nofun
    · rw [hstream]
      exact hfits
    · rw [hstream] at hrun
      obtain ⟨hsent, last', hbefore⟩ := hend last base hrun
      rw [Hookup.hear, hout]
      refine ⟨?_, (ht.ahead last' base hbefore).known.trans hlater.le, (ht.ahead last' base hbefore).newer⟩
      rw [hsent, Link.last]
      dsimp only
      rw [hidle]
    · rw [Hookup.hear, hout] at hmem ⊢
      rcases List.mem_append.mp hmem with hmem | hmem
      · obtain ⟨hle, hrecent, -⟩ := ht.behind t hmem
        exact ⟨hle.trans (Nat.le_succ _), hrecent.trans hlater.le, fun s st hs => absurd (hidle.symm.trans hs) nofun⟩
      · rw [List.mem_singleton.mp hmem]
        exact ⟨le_rfl, hsequence.le, fun s st hs => absurd (hidle.symm.trans hs) nofun⟩
  · rw [hout] at hsound
    rw [Hookup.hear, hout, List.append_nil]
    refine ⟨hsession, ht.own, hsound, ht.taken, ht.browser, ht.fits, fun last base hrun => ?_, fun t hmem => ?_⟩
    · obtain ⟨hsent, hknown, hold⟩ := ht.ahead last base hrun
      exact ⟨hsent, hknown.trans hlater.le, hold⟩
    · obtain ⟨hle, hrecent, hcontained⟩ := ht.behind t hmem
      exact ⟨hle, hrecent.trans hlater.le, hcontained⟩

theorem Tuned.move (ht : h.Tuned sessionId epoch) (m : Move) :
    (h.step cfg normalizeUrl (.move m)).Tuned sessionId epoch := by
  have hsession : (m.apply cfg h.state).1.sessionId = sessionId := (m.sessionId_apply cfg h.state).trans ht.session
  rw [step]
  rcases m.apply_events cfg h.state with ⟨hnone, hsame⟩ | ⟨event, hone, hsequence, hlater⟩
  · rw [hnone, List.foldl_nil]
    refine ⟨hsession, ht.own, hsame.symm ▸ ht.link, ht.taken, ht.browser, ht.fits, fun last base hrun => ?_,
      fun t hmem => ?_⟩
    · exact hsame.symm ▸ ht.ahead last base hrun
    · exact hsame.symm ▸ ht.behind t hmem
  · rw [hone, List.foldl_cons, List.foldl_nil]
    exact ht.hear hsession hsequence hlater

theorem Tuned.request (ht : h.Tuned sessionId epoch) (now : ℚ) :
    (h.step cfg normalizeUrl (.request now)).Tuned sessionId epoch := by
  rw [step]
  split_ifs with hidle
  · have hsound := ht.link.subscribePaused (h.state.snapshot cfg (some h.link.observer.epoch)
      h.link.observer.supportsWorkStatus now).2 rfl
    have hphase : (h.link.subscribePaused (h.state.snapshot cfg (some h.link.observer.epoch)
        h.link.observer.supportsWorkStatus now).2)
          = ⟨h.link.observer.pause, .installing (h.state.snapshot cfg (some h.link.observer.epoch)
              h.link.observer.supportsWorkStatus now).2 .opened⟩ := by
      rw [Link.subscribePaused, if_pos hidle]
    dsimp only
    rw [hphase] at hsound ⊢
    refine ⟨ht.session, ht.own, hsound, fun s st hs => ?_, ht.browser, ht.fits, fun last base hrun => ?_,
      fun t hmem => ?_⟩
    · cases hs
      exact ⟨ht.session, congrArg some ht.own⟩
    · obtain ⟨hsent, hknown, hold⟩ := ht.ahead last base hrun
      refine ⟨?_, hknown, hold⟩
      rw [hsent, Link.last_of_idle hidle]
      rfl
    · obtain ⟨hle, hrecent, -⟩ := ht.behind t hmem
      refine ⟨hle, hrecent, fun s st hs => ?_⟩
      cases hs
      exact hrecent
  · exact ht

theorem Tuned.runTask (ht : h.Tuned sessionId epoch) : (h.step cfg normalizeUrl .runTask).Tuned sessionId epoch := by
  rw [step]
  rcases htasks : h.tasks with _ | ⟨task, tasks⟩
  · exact ht
  · have hstream : Hookup.stream { h with tasks, wire := h.wire ++ [.increment task] } = h.stream := by
      rw [Hookup.stream, Hookup.stream, htasks]
      dsimp only
      rw [List.map_cons, List.append_assoc]
      rfl
    refine ⟨ht.session, ht.own, ht.link, ht.taken, ht.browser, ?_, fun last base hrun => ?_, fun t hmem => ?_⟩
    · rw [hstream]
      exact ht.fits
    · rw [hstream] at hrun
      exact ht.ahead last base hrun
    · exact ht.behind t (by rw [htasks]; exact List.mem_cons_of_mem _ hmem)

variable (cfg) (normalizeUrl) in
/-- **What arrives is taken as it should be**, and the invariant holds after it. -/
theorem Tuned.receive (ht : h.Tuned sessionId epoch) (now : ℚ) :
    (h.step cfg normalizeUrl (.receive now)).Tuned sessionId epoch ∧
      ∀ f wire, h.wire = f :: wire → Proper h.browser h.installed (h.message f) f := by
  rcases hwire : h.wire with _ | ⟨f, wire⟩
  · rw [step, hwire]
    exact ⟨ht, fun _ _ heq => absurd heq (List.cons_ne_nil _ _).symm⟩
  · have hstream : h.stream = f :: (wire ++ h.tasks.map .increment) := by
      rw [Hookup.stream, hwire]
      rfl
    have hfits := ht.fits
    have hahead := ht.ahead
    rw [hstream] at hfits hahead
    obtain ⟨hhead, hrest⟩ := hfits
    cases f with
    | snapshot s =>
      obtain ⟨hinstalled, hattuned, hcursor⟩ := ht.browser.snapshot cfg normalizeUrl hhead now
      have hstep : h.step cfg normalizeUrl (.receive now)
          = { h with
              wire
              browser := h.browser.applyServerMessage cfg normalizeUrl (.snapshot s) now
              installed := some s } := by
        have hinstalled' : h.browser.reception (h.message (.snapshot s)) = .installed := hinstalled
        rw [step, hwire]
        dsimp only
        rw [if_pos hinstalled']
        rfl
      refine ⟨?_, fun f' wire' heq => ?_⟩
      · rw [hstep]
        refine ⟨ht.session, ht.own, ht.link, ht.taken, hattuned, ?_, fun last base hrun => ?_, ht.behind⟩
        · dsimp only
          rw [hcursor]
          exact hrest
        · dsimp only at hrun
          rw [hcursor] at hrun
          exact hahead last base hrun
      · cases heq
        refine ⟨?_, fun _ _ => hinstalled, by rintro _ ⟨⟩⟩
        rw [Hookup.message, Frame.message, hinstalled]
        rintro ⟨⟩
    | increment p =>
      have hmessage : h.message (.increment p) = .increment sessionId p.sequence epoch p.event.payload := by
        rw [Hookup.message, Frame.message, ht.session, ht.own]
      obtain ⟨hgap, happlied, hattuned, hcursor⟩ :=
        ht.browser.increment cfg normalizeUrl hhead now
      have hstep : h.step cfg normalizeUrl (.receive now)
          = { h with
              wire
              browser := h.browser.applyServerMessage cfg normalizeUrl
                (.increment sessionId p.sequence epoch p.event.payload) now } := by
        rw [step, hwire]
        dsimp only
        rw [hmessage]
      refine ⟨?_, fun f' wire' heq => ?_⟩
      · rw [hstep]
        refine ⟨ht.session, ht.own, ht.link, ht.taken, hattuned, ?_, fun last base hrun => ?_, ht.behind⟩
        · dsimp only
          rw [hcursor]
          exact hrest
        · dsimp only at hrun
          rw [hcursor] at hrun
          exact hahead last base hrun
      · cases heq
        rw [hmessage]
        refine ⟨hgap, by rintro _ ⟨⟩, fun q hq => ?_⟩
        cases hq
        exact happlied

/-- **What the barrier sends fits the stream.** -/
theorem Tuned.act (ht : h.Tuned sessionId epoch) (a : Link.Act) :
    (h.step cfg normalizeUrl (.act a)).Tuned sessionId epoch := by
  have hmoved := ht.link.act a
  rw [step]
  revert hmoved
  generalize (h.link.act a).1 = l
  generalize (h.link.act a).2 = frames
  intro hmoved
  have hsound := hmoved.sound ht.link
  rcases hmoved.sends ht.link with ⟨rfl, hq⟩ | ⟨snapshot, hfrom, rfl, rfl⟩ |
    ⟨watermark, event, rest, hfrom, hbuffer, hvisible, rfl, rfl⟩
  · rw [List.filterMap_nil, List.filter_nil, List.append_nil, List.append_nil]
    refine ⟨ht.session, hq.epoch.trans ht.own, hsound, fun s st hs => ?_, ht.browser, ht.fits, fun last base hrun => ?_,
      fun t hmem => ?_⟩
    · obtain ⟨st', hs'⟩ := hq.installing s st hs
      exact ht.taken s st' hs'
    · obtain ⟨hsent, hknown, hnewer⟩ := ht.ahead last base hrun
      exact ⟨hsent.trans hq.last.symm, hknown, fun e he => hnewer e (hq.buffer e he)⟩
    · obtain ⟨hle, hrecent, hcontained⟩ := ht.behind t hmem
      refine ⟨hle.trans hq.projected, hrecent, fun s st hs => ?_⟩
      obtain ⟨st', hs'⟩ := hq.installing s st hs
      exact hcontained s st' hs'
  · obtain ⟨hle, hroom, hnewer⟩ := ht.link.installing snapshot _ hfrom
    obtain ⟨hsession, hepoch⟩ := ht.taken snapshot _ hfrom
    have hcontained : ∀ t ∈ h.tasks, t.sequence ≤ snapshot.snapshotSequence ∧
        t.event.sequence ≤ snapshot.snapshotSequence := fun t hmem =>
      ⟨(ht.behind t hmem).sequence.trans hle, (ht.behind t hmem).contained snapshot _ hfrom⟩
    obtain ⟨hold, hstay⟩ := Cursor.fits_contained sessionId epoch hcontained
    have hfits := ht.fits
    have hahead := ht.ahead
    rw [Hookup.stream, guarded_append] at hfits
    rw [Hookup.stream, run_append] at hahead
    have hstream : Hookup.stream { h with
          link := { h.link with phase := .installing snapshot .written }
          tasks := h.tasks ++ [Frame.snapshot snapshot].filterMap Frame.projected
          wire := h.wire ++ [Frame.snapshot snapshot].filter (·.projected.isNone) }
        = h.wire ++ .snapshot snapshot :: h.tasks.map .increment := by
      rw [Hookup.stream]
      dsimp only
      rw [List.filterMap_cons, Frame.projected, List.filterMap_nil, List.append_nil,
        List.filter_cons_of_pos rfl, List.filter_nil, List.append_assoc]
      rfl
    refine ⟨ht.session, ht.own, hsound, fun s st hs => ?_, ht.browser, ?_, fun last base hrun => ?_, fun t hmem => ?_⟩
    · cases hs
      exact ⟨hsession, hepoch⟩
    · rw [hstream, guarded_append]
      refine ⟨hfits.1, ⟨hsession, hepoch, fun last base hmid => ?_⟩, hold⟩
      obtain ⟨last', base', hend⟩ := Cursor.exists_run_increments h.tasks last base
      have hsent := (hahead last' base' (by rw [hmid]; exact hend)).sent
      calc
        last ≤ last' := Cursor.le_run_increments hend
        _ = h.link.observer.projectedSequence := hsent.trans (Link.last_of_installing hfrom nofun)
        _ ≤ snapshot.snapshotSequence := hle
    · rw [hstream, run_append, run_cons] at hrun
      cases hstay.symm.trans hrun
      exact ⟨rfl, (Nat.le_add_right _ _).trans hroom, hnewer⟩
    · have hmem' : t ∈ h.tasks := by simpa [Frame.projected] using hmem
      refine ⟨(ht.behind t hmem').sequence, (ht.behind t hmem').recent, fun s st hs => ?_⟩
      cases hs
      exact (hcontained t hmem').2
  · have hevent : event ∈ h.link.observer.buffer := by rw [hbuffer]; exact List.mem_cons_self
    obtain ⟨hfits, hend⟩ := ht.append event (Link.last_of_replaying hfrom)
      fun last base hrun => (ht.ahead last base hrun).newer event hevent
    have hstream : Hookup.stream { h with
          link := { h.link with observer := { h.link.observer with
            projectedSequence := h.link.observer.projectedSequence + 1
            buffer := rest } }
          tasks := h.tasks ++ [Frame.increment ⟨h.link.observer.projectedSequence + 1, event⟩].filterMap Frame.projected
          wire := h.wire ++ [Frame.increment ⟨h.link.observer.projectedSequence + 1, event⟩].filter (·.projected.isNone) }
        = h.stream ++ [.increment ⟨h.link.observer.projectedSequence + 1, event⟩] := by
      rw [Hookup.stream, Hookup.stream]
      dsimp only
      rw [List.filterMap_cons, Frame.projected, List.filterMap_nil, List.filter_cons_of_neg Bool.false_ne_true,
        List.filter_nil, List.append_nil, List.map_append, List.append_assoc]
      rfl
    refine ⟨ht.session, ht.own, hsound, fun s st hs => absurd (hfrom.symm.trans hs) nofun, ht.browser, ?_,
      fun last base hrun => ?_, fun t hmem => ?_⟩
    · rw [hstream]
      exact hfits
    · rw [hstream] at hrun
      obtain ⟨hsent, last', hbefore⟩ := hend last base hrun
      refine ⟨?_, (ht.ahead last' base hbefore).known, fun e he => (ht.ahead last' base hbefore).newer e ?_⟩
      · rw [hsent, Link.last]
        dsimp only
        rw [hfrom]
      · rw [hbuffer]
        exact List.mem_cons_of_mem _ he
    · rcases List.mem_append.mp hmem with hmem | hmem
      · obtain ⟨hle, hrecent, -⟩ := ht.behind t hmem
        exact ⟨hle.trans (Nat.le_succ _), hrecent, fun s st hs => absurd (hfrom.symm.trans hs) nofun⟩
      · rw [List.filterMap_cons, Frame.projected, List.filterMap_nil] at hmem
        rw [List.mem_singleton.mp hmem]
        exact ⟨le_rfl, ht.link.recent event hevent, fun s st hs => absurd (hfrom.symm.trans hs) nofun⟩

/-- **One event keeps a connection tuned.** -/
theorem Tuned.step (ht : h.Tuned sessionId epoch) (e : Event) :
    (h.step cfg normalizeUrl e).Tuned sessionId epoch := by
  cases e with
  | move m => exact ht.move m
  | request now => exact ht.request now
  | act a => exact ht.act a
  | runTask => exact ht.runTask
  | receive now => exact (ht.receive cfg normalizeUrl now).1

/-! ## Runs -/

/-- As many rounds of the replay as there are events buffered, and its end. -/
def replay (h : Hookup) : List Event :=
  List.replicate h.link.observer.buffer.length (.act .replayNext) ++ [.act .replayEnd]

/-- **A replay comes to its end.** -/
theorem run_replay (cfg : RetentionConfig) (normalizeUrl : String → Option String) {watermark : Option ℕ}
    (h : Hookup) (hphase : h.link.phase = .replaying watermark) :
    (run (Hookup.step cfg normalizeUrl) h h.replay).link.phase = .idle := by
  rw [replay, run_append]
  induction hbuffer : h.link.observer.buffer generalizing h with
  | nil =>
    rw [List.length_nil, List.replicate_zero, run_nil, run_cons, run_nil, Hookup.step]
    dsimp only
    rw [Link.act.eq_def, hphase]
    dsimp only
    rw [if_pos hbuffer]
  | cons event rest ih =>
    rw [List.length_cons, List.replicate_succ, run_cons]
    have hnext : (h.step cfg normalizeUrl (.act .replayNext)).link.phase = .replaying watermark ∧
        (h.step cfg normalizeUrl (.act .replayNext)).link.observer.buffer = rest := by
      rw [Hookup.step]
      dsimp only
      rw [Link.act.eq_def, hphase]
      dsimp only
      rw [RuntimeObserver.resumeNext, hbuffer]
      dsimp only
      split_ifs
      · exact ⟨rfl, rfl⟩
      · rcases RuntimeObserver.deliver_cases { h.link.observer with buffer := rest } event with ⟨-, hout⟩ | ⟨-, hout⟩
        · rw [hout]
          exact ⟨rfl, rfl⟩
        · rw [hout]
          exact ⟨rfl, rfl⟩
    exact ih _ hnext.1 hnext.2

/-- **The snapshot barrier is correct**: over a wire that loses nothing, in every state reached, the browser
has found no gap, takes the next frame as it should, the projected number is not past the session's, and the
observer is unpaused with nothing buffered whenever no barrier is at work, which a replay comes to. -/
theorem barrier_safe (cfg : RetentionConfig) (normalizeUrl : String → Option String) (state : SessionState)
    (epoch : ℕ) (supportsWorkStatus : Bool) (es : List Event) :
    let h := run (Hookup.step cfg normalizeUrl) (start state epoch supportsWorkStatus) es
    h.browser.gaps = 0 ∧
      (∀ f wire, h.wire = f :: wire → Proper h.browser h.installed (h.message f) f) ∧
      h.link.observer.projectedSequence ≤ h.state.sequence ∧
      (h.link.phase = .idle → h.link.observer.paused = false ∧ h.link.observer.buffer = []) ∧
      ∀ watermark, h.link.phase = .replaying watermark →
        (run (Hookup.step cfg normalizeUrl) h h.replay).link.phase = .idle := by
  intro h
  have htuned : h.Tuned state.sessionId epoch :=
    run_invariant_of_step (fun _ e ht => ht.step e) (tuned_start state epoch supportsWorkStatus) es
  exact ⟨htuned.browser.gaps, (htuned.receive cfg normalizeUrl 0).2,
    (Nat.le_add_right _ _).trans htuned.link.room, htuned.link.idle, fun _ => run_replay cfg normalizeUrl h⟩

end Hookup

end Session

end SubagentsLab

import SubagentsLab.Session.Barrier

/-!
# Session/Channel — many connections over a channel that does anything

Every connection of a session keeps a log of what it sent; the browser is handed frames of any log, in any
order, any number of times, and increments of other sessions.  Numbers tell apart what a snapshot contains
from what comes after it (`Line.Sound`), so whatever arrives, the browser shows a snapshot that was sent and
some of the events right after it (`prefix_consistent`).
-/

namespace SubagentsLab

open Machinery

namespace Session

/-! ## What is shown -/

/-- The part of a view that work status has no part in. -/
def View.shown (v : View) : View := { v with board := {} }

variable {cfg : RetentionConfig} {normalizeUrl : String → Option String}

theorem View.shown_install (v v' : View) (s : RuntimeSnapshot) (now now' : ℚ) :
    (v.install cfg normalizeUrl s now).shown = (v'.install cfg normalizeUrl s now').shown := by
  rw [install, install, shown, shown]

/-- What an increment shows depends on what was shown. -/
theorem View.shown_applyIncrement {v v' : View} (h : v.shown = v'.shown) (payload : Payload) (now now' : ℚ) :
    (v.applyIncrement cfg normalizeUrl payload now).shown = (v'.applyIncrement cfg normalizeUrl payload now').shown := by
  obtain ⟨workers, results, speech, routing, transcript, board⟩ := v
  obtain ⟨workers', results', speech', routing', transcript', board'⟩ := v'
  cases h
  cases payload with
  | worker w =>
    rw [applyIncrement, applyIncrement]
    rcases projectedWorker w with _ | w <;> rfl
  | routing r => rfl
  | transcript t => rfl
  | result r =>
    rw [applyIncrement, applyIncrement, addResult, addResult]
    dsimp only
    split_ifs <;> rfl
  | speechProgress p =>
    rw [applyIncrement, applyIncrement]
    rcases projectedSpeech p with _ | p <;> rfl
  | workStatus status => rfl

/-! ## Lines -/

/-- A connection, the session's number when it was attached, and all it has sent. -/
structure Line where
  link : Link
  since : ℕ
  sent : List Frame := []

namespace Line

/-- The increments a line has sent. -/
def increments (l : Line) : List ProjectedEvent := l.sent.filterMap Frame.projected

/-- The observer hears of an event. -/
def hear (l : Line) (event : StateEvent) : Line :=
  { l with link := (l.link.onEvent event).1, sent := l.sent ++ (l.link.onEvent event).2.map .increment }

/-- One act of its barrier. -/
def act (l : Line) (a : Link.Act) : Line :=
  { l with link := (l.link.act a).1, sent := l.sent ++ (l.link.act a).2 }

/-- Numbered and raised in this order. -/
def Before (t t' : ProjectedEvent) : Prop := t.sequence < t'.sequence ∧ t.event.sequence < t'.event.sequence

/-- **A snapshot in the log**: increments are numbered past it exactly if their events are past it. -/
structure Logged (sessionId : String) (epoch now : ℕ) (l : Line) (s : RuntimeSnapshot) : Prop where
  session : s.sessionId = sessionId
  epoch : s.originEpoch = some epoch
  since : l.since ≤ s.snapshotSequence
  known : s.snapshotSequence ≤ now
  last : s.snapshotSequence ≤ l.link.last
  newer : ∀ event ∈ l.link.observer.buffer, s.snapshotSequence < event.sequence
  splits : ∀ t ∈ l.increments, t.sequence ≤ s.snapshotSequence ↔ t.event.sequence ≤ s.snapshotSequence

/-- **The log of a line**, when the session is at `now` after `history`. -/
structure Sound (sessionId : String) (epoch now : ℕ) (history : List StateEvent) (l : Line) : Prop where
  link : l.link.Sound now
  own : l.link.observer.epoch = epoch
  since : l.since ≤ now
  taken : ∀ snapshot stage, l.link.phase = .installing snapshot stage →
    snapshot.sessionId = sessionId ∧ snapshot.originEpoch = some epoch ∧ l.since ≤ snapshot.snapshotSequence
  ordered : l.increments.Pairwise Before
  behind : ∀ t ∈ l.increments, l.link.Behind now t ∧ ∀ event ∈ l.link.observer.buffer, t.event.sequence < event.sequence
  snapshots : ∀ s, Frame.snapshot s ∈ l.sent → l.Logged sessionId epoch now s
  complete : history.filter (fun event => l.link.observer.visible event && decide (l.since < event.sequence))
    = l.increments.map (·.event) ++ l.link.observer.buffer.filter l.link.observer.visible

variable {sessionId : String} {epoch now : ℕ} {history : List StateEvent} {l : Line}

theorem sound_attach (supportsWorkStatus : Bool) (hhistory : ∀ event ∈ history, event.sequence ≤ now) :
    Sound sessionId epoch now history ⟨.attach epoch supportsWorkStatus now, now, []⟩ where
  link := Link.sound_attach epoch supportsWorkStatus now
  own := rfl
  since := le_rfl
  taken _ _ := nofun
  ordered := List.Pairwise.nil
  behind _ := nofun
  snapshots _ := nofun
  complete := by
    refine List.filter_eq_nil_iff.mpr fun event hmem => ?_
    have hle := hhistory event hmem
    simp [Nat.not_lt.mpr hle]

theorem increments_append (l : Line) (frames : List Frame) (link : Link) :
    increments { l with link, sent := l.sent ++ frames } = l.increments ++ frames.filterMap Frame.projected :=
  List.filterMap_append

/-- Snapshots are not increments. -/
theorem snapshot_mem_append {s : RuntimeSnapshot} {p : ProjectedEvent} {frames : List Frame}
    (h : Frame.snapshot s ∈ frames ++ [.increment p]) : Frame.snapshot s ∈ frames := by
  rcases List.mem_append.mp h with h | h
  · exact h
  · cases List.mem_singleton.mp h

/-- **The next increment of a line** keeps the log in order: `link` is the line after it. -/
theorem Sound.append (h : l.Sound sessionId epoch now history) {event : StateEvent} {later : ℕ} {link : Link}
    (hlater : now ≤ later) (hsound : link.Sound later) (hown : link.observer.epoch = l.link.observer.epoch)
    (hlast : l.link.last = l.link.observer.projectedSequence)
    (hprojected : link.observer.projectedSequence = l.link.observer.projectedSequence + 1)
    (hidle : ∀ snapshot stage, link.phase ≠ .installing snapshot stage)
    (hbuffer : ∀ e ∈ link.observer.buffer, e ∈ l.link.observer.buffer ∧ event.sequence < e.sequence)
    (hrecent : event.sequence ≤ later)
    (hnewer : ∀ t ∈ l.increments, t.event.sequence < event.sequence)
    (hsnapshots : ∀ s, Frame.snapshot s ∈ l.sent → s.snapshotSequence < event.sequence)
    {history' : List StateEvent}
    (hcomplete : history'.filter (fun e => link.observer.visible e && decide (l.since < e.sequence))
      = l.increments.map (·.event) ++ event :: link.observer.buffer.filter link.observer.visible) :
    Sound sessionId epoch later history'
      { l with link, sent := l.sent ++ [.increment ⟨l.link.observer.projectedSequence + 1, event⟩] } := by
  have hincrements := l.increments_append [.increment ⟨l.link.observer.projectedSequence + 1, event⟩] link
  rw [List.filterMap_cons, Frame.projected, List.filterMap_nil] at hincrements
  have hlast' : link.last = link.observer.projectedSequence := by
    rw [Link.last]
    split
    · rename_i snapshot hphase
      exact absurd hphase (hidle snapshot _)
    · rfl
  refine ⟨hsound, hown.trans h.own, h.since.trans hlater, fun s st hs => absurd hs (hidle s st), ?_, fun t ht => ?_,
    fun s hs => ?_, ?_⟩
  · rw [hincrements, List.pairwise_append]
    refine ⟨h.ordered, List.pairwise_singleton _ _, fun t ht t' ht' => ?_⟩
    rw [List.mem_singleton.mp ht']
    exact ⟨Nat.lt_succ_of_le (h.behind t ht).1.sequence, hnewer t ht⟩
  · rw [hincrements] at ht
    rcases List.mem_append.mp ht with ht | ht
    · obtain ⟨hbehind, hbefore⟩ := h.behind t ht
      refine ⟨⟨?_, hbehind.recent.trans hlater, fun s st hs => absurd hs (hidle s st)⟩,
        fun e he => hbefore e (hbuffer e he).1⟩
      dsimp only
      rw [hprojected]
      exact hbehind.sequence.trans (Nat.le_succ _)
    · rw [List.mem_singleton.mp ht]
      exact ⟨⟨hprojected.ge, hrecent, fun s st hs => absurd hs (hidle s st)⟩, fun e he => (hbuffer e he).2⟩
  · have hmem := snapshot_mem_append hs
    obtain ⟨hsession, hepoch, hsince, hknown, hle, hbefore, hsplits⟩ := h.snapshots s hmem
    have hpast := hsnapshots s hmem
    rw [hlast] at hle
    refine ⟨hsession, hepoch, hsince, hknown.trans hlater, ?_, fun e he => hbefore e (hbuffer e he).1, fun t ht => ?_⟩
    · dsimp only
      rw [hlast', hprojected]
      exact hle.trans (Nat.le_succ _)
    · rw [hincrements] at ht
      rcases List.mem_append.mp ht with ht | ht
      · exact hsplits t ht
      · rw [List.mem_singleton.mp ht]
        dsimp only
        omega
  · dsimp only
    rw [hincrements, hcomplete, List.map_append, List.append_assoc]
    rfl

/-- **An event reaches a line**: it is sent, or kept for the replay. -/
theorem Sound.hear (h : l.Sound sessionId epoch now history) (event : StateEvent) (hlater : now < event.sequence) :
    (l.hear event).Sound sessionId epoch event.sequence (history ++ [event]) := by
  have hsound := h.link.onEvent hlater
  have hpast : l.since < event.sequence := h.since.trans_lt hlater
  rcases h.link.onEvent_cases event with ⟨hbusy, hout⟩ | ⟨hidle, hvisible, hout⟩ | ⟨hidle, hvisible, hout⟩
  · rw [hout] at hsound
    rw [Line.hear, hout, List.map_nil, List.append_nil]
    refine ⟨hsound, h.own, h.since.trans hlater.le, h.taken, h.ordered, fun t ht => ?_, fun s hs => ?_, ?_⟩
    · obtain ⟨hbehind, hbefore⟩ := h.behind t ht
      refine ⟨⟨hbehind.sequence, hbehind.recent.trans hlater.le, hbehind.contained⟩, fun e he => ?_⟩
      rcases List.mem_append.mp he with he | he
      · exact hbefore e he
      · rw [List.mem_singleton.mp he]
        exact hbehind.recent.trans_lt hlater
    · obtain ⟨hsession, hepoch, hsince, hknown, hle, hbefore, hsplits⟩ := h.snapshots s hs
      refine ⟨hsession, hepoch, hsince, hknown.trans hlater.le, hle, fun e he => ?_, hsplits⟩
      rcases List.mem_append.mp he with he | he
      · exact hbefore e he
      · rw [List.mem_singleton.mp he]
        exact hknown.trans_lt hlater
    · have hcomplete := h.complete
      dsimp only
      rw [List.filter_append, List.filter_append, ← List.append_assoc]
      refine congrArg₂ _ hcomplete ?_
      rw [List.filter_singleton, List.filter_singleton, decide_eq_true hpast, Bool.and_true]
  · rw [hout] at hsound
    obtain ⟨-, hbuffer⟩ := h.link.idle hidle
    rw [Line.hear, hout, List.map_cons, List.map_nil]
    refine h.append hlater.le hsound rfl (Link.last_of_idle hidle) rfl (fun s st => ?_) (fun e he => ?_) le_rfl
      (fun t ht => (h.behind t ht).1.recent.trans_lt hlater) (fun s hs => (h.snapshots s hs).known.trans_lt hlater) ?_
    · dsimp only
      rw [hidle]
      nofun
    · dsimp only at he
      rw [hbuffer] at he
      cases he
    · have hcomplete := h.complete
      rw [hbuffer, List.filter_nil, List.append_nil] at hcomplete
      dsimp only
      rw [List.filter_append, hbuffer, List.filter_nil]
      refine congrArg₂ _ hcomplete ?_
      rw [List.filter_singleton, decide_eq_true hpast, Bool.and_true]
      exact congrArg (fun c => bif c then [event] else []) hvisible
  · rw [hout] at hsound
    rw [Line.hear, hout, List.map_nil, List.append_nil]
    refine ⟨hsound, h.own, h.since.trans hlater.le, h.taken, h.ordered, fun t ht => ?_, fun s hs => ?_, ?_⟩
    · obtain ⟨hbehind, hbefore⟩ := h.behind t ht
      exact ⟨⟨hbehind.sequence, hbehind.recent.trans hlater.le, hbehind.contained⟩, hbefore⟩
    · obtain ⟨hsession, hepoch, hsince, hknown, hle, hbefore, hsplits⟩ := h.snapshots s hs
      exact ⟨hsession, hepoch, hsince, hknown.trans hlater.le, hle, hbefore, hsplits⟩
    · have hcomplete := h.complete
      dsimp only
      rw [List.filter_append, List.filter_singleton, hvisible, Bool.false_and]
      exact (List.append_nil _).trans hcomplete

theorem Sound.subscribePaused (h : l.Sound sessionId epoch now history) {snapshot : RuntimeSnapshot}
    (hsession : snapshot.sessionId = sessionId) (hepoch : snapshot.originEpoch = some epoch)
    (hnow : snapshot.snapshotSequence = now) :
    Sound sessionId epoch now history { l with link := l.link.subscribePaused snapshot } := by
  have hsound := h.link.subscribePaused snapshot hnow
  by_cases hidle : l.link.phase = .idle
  · have hpause : l.link.subscribePaused snapshot = ⟨l.link.observer.pause, .installing snapshot .opened⟩ := by
      rw [Link.subscribePaused, if_pos hidle]
    rw [hpause] at hsound ⊢
    refine ⟨hsound, h.own, h.since, fun s st hs => ?_, h.ordered, fun t ht => ?_, fun s hs => ?_, h.complete⟩
    · cases hs
      exact ⟨hsession, hepoch, hnow ▸ h.since⟩
    · obtain ⟨hbehind, hbefore⟩ := h.behind t ht
      refine ⟨⟨hbehind.sequence, hbehind.recent, fun s st hs => ?_⟩, hbefore⟩
      cases hs
      exact hnow ▸ hbehind.recent
    · obtain ⟨hsession', hepoch', hsince, hknown, hle, hbefore, hsplits⟩ := h.snapshots s hs
      rw [Link.last_of_idle hidle] at hle
      exact ⟨hsession', hepoch', hsince, hknown, hle, hbefore, hsplits⟩
  · have hsame : l.link.subscribePaused snapshot = l.link := by
      rw [Link.subscribePaused, if_neg hidle]
    rw [hsame]
    exact h

/-- **The barrier goes on**: what it sends keeps the log in order. -/
theorem Sound.act (h : l.Sound sessionId epoch now history) (a : Link.Act) :
    (l.act a).Sound sessionId epoch now history := by
  have hmoved := h.link.act a
  rw [Line.act]
  revert hmoved
  generalize (l.link.act a).1 = link
  generalize (l.link.act a).2 = frames
  intro hmoved
  have hsound := hmoved.sound h.link
  rcases hmoved.sends h.link with ⟨rfl, hq⟩ | ⟨snapshot, hfrom, rfl, rfl⟩ |
    ⟨watermark, event, rest, hfrom, hbuffer, hvisible, rfl, rfl⟩
  · rw [List.append_nil]
    refine ⟨hsound, hq.epoch.trans h.own, h.since, fun s st hs => ?_, h.ordered, fun t ht => ?_, fun s hs => ?_, ?_⟩
    · obtain ⟨st', hs'⟩ := hq.installing s st hs
      exact h.taken s st' hs'
    · obtain ⟨hbehind, hbefore⟩ := h.behind t ht
      refine ⟨⟨hbehind.sequence.trans hq.projected, hbehind.recent, fun s st hs => ?_⟩,
        fun e he => hbefore e (hq.buffer e he)⟩
      obtain ⟨st', hs'⟩ := hq.installing s st hs
      exact hbehind.contained s st' hs'
    · obtain ⟨hsession, hepoch, hsince, hknown, hle, hbefore, hsplits⟩ := h.snapshots s hs
      exact ⟨hsession, hepoch, hsince, hknown, hle.trans hq.last.ge, fun e he => hbefore e (hq.buffer e he), hsplits⟩
    · dsimp only
      rw [hq.visible, h.complete, hq.pending]
      rfl
  · obtain ⟨hle, hroom, hnewer⟩ := h.link.installing snapshot _ hfrom
    obtain ⟨hsession, hepoch, hsince⟩ := h.taken snapshot _ hfrom
    have hincrements := l.increments_append [.snapshot snapshot] { l.link with phase := .installing snapshot .written }
    rw [List.filterMap_cons, Frame.projected, List.filterMap_nil, List.append_nil] at hincrements
    refine ⟨hsound, h.own, h.since, fun s st hs => ?_, hincrements ▸ h.ordered, fun t ht => ?_, fun s hs => ?_, ?_⟩
    · cases hs
      exact ⟨hsession, hepoch, hsince⟩
    · rw [hincrements] at ht
      obtain ⟨hbehind, hbefore⟩ := h.behind t ht
      refine ⟨⟨hbehind.sequence, hbehind.recent, fun s st hs => ?_⟩, hbefore⟩
      cases hs
      exact hbehind.contained snapshot _ hfrom
    · rcases List.mem_append.mp hs with hs | hs
      · obtain ⟨hsession', hepoch', hsince', hknown, hle', hbefore, hsplits⟩ := h.snapshots s hs
        rw [Link.last_of_installing hfrom (by rintro ⟨⟩)] at hle'
        refine ⟨hsession', hepoch', hsince', hknown, hle'.trans hle, hbefore, ?_⟩
        rw [hincrements]
        exact hsplits
      · cases List.mem_singleton.mp hs
        refine ⟨hsession, hepoch, hsince, (Nat.le_add_right _ _).trans hroom, le_rfl, hnewer, fun t ht => ?_⟩
        rw [hincrements] at ht
        obtain ⟨hbehind, -⟩ := h.behind t ht
        exact iff_of_true (hbehind.sequence.trans hle) (hbehind.contained snapshot _ hfrom)
    · dsimp only
      rw [hincrements]
      exact h.complete
  · have hevent : event ∈ l.link.observer.buffer := by rw [hbuffer]; exact List.mem_cons_self
    have hsorted := h.link.sorted
    rw [hbuffer, List.pairwise_cons] at hsorted
    refine h.append le_rfl hsound rfl (Link.last_of_replaying hfrom) rfl (fun s st => ?_) (fun e he => ?_)
      (h.link.recent event hevent) (fun t ht => (h.behind t ht).2 event hevent)
      (fun s hs => (h.snapshots s hs).newer event hevent) ?_
    · dsimp only
      rw [hfrom]
      rintro ⟨⟩
    · refine ⟨?_, hsorted.1 e he⟩
      rw [hbuffer]
      exact List.mem_cons_of_mem _ he
    · have hcomplete := h.complete
      rw [hbuffer, List.filter_cons_of_pos hvisible] at hcomplete
      exact hcomplete

end Line

/-! ## The network -/

/-- A session, all it raised since, its connections by epoch, and one browser. -/
structure Network where
  state : SessionState
  history : List StateEvent := []
  lines : ℕ → Option Line := fun _ => none
  browser : Browser := {}

namespace Network

/-- What happens. -/
inductive Event
  /-- The session is written to, or another epoch is put in charge. -/
  | move (m : Move)
  /-- A connection is attached. -/
  | attach (epoch : ℕ) (supportsWorkStatus : Bool)
  /-- A connection takes a snapshot. -/
  | request (epoch : ℕ) (now : ℚ)
  | act (epoch : ℕ) (a : Link.Act)
  /-- A frame some connection has sent arrives, once more or at last. -/
  | deliver (epoch : ℕ) (f : Frame) (now : ℚ)
  /-- An increment of another session arrives. -/
  | stray (sessionId : String) (sequence originEpoch : ℕ) (payload : Payload) (now : ℚ)

variable (cfg : RetentionConfig) (normalizeUrl : String → Option String)

/-- Every observer hears of an event. -/
def hear (n : Network) (event : StateEvent) : Network :=
  { n with history := n.history ++ [event], lines := fun epoch => (n.lines epoch).map (·.hear event) }

/-- Something happens to a connection. -/
def onLine (n : Network) (epoch : ℕ) (f : Line → Line) : Network :=
  { n with lines := Function.update n.lines epoch ((n.lines epoch).map f) }

/-- One event. -/
def step (n : Network) : Event → Network
  | .move m => (m.apply cfg n.state).2.foldl hear { n with state := (m.apply cfg n.state).1 }
  | .attach epoch supportsWorkStatus =>
    match n.lines epoch with
    | some _ => n
    | none =>
      { n with
        lines := Function.update n.lines epoch
          (some ⟨.attach epoch supportsWorkStatus n.state.sequence, n.state.sequence, []⟩) }
  | .request epoch now =>
    match n.lines epoch with
    | none => n
    | some line =>
      let r := n.state.snapshot cfg (some epoch) line.link.observer.supportsWorkStatus now
      onLine { n with state := r.1 } epoch fun line => { line with link := line.link.subscribePaused r.2 }
  | .act epoch a => n.onLine epoch (·.act a)
  | .deliver epoch f now =>
    if (n.lines epoch).any (f ∈ ·.sent) then
      { n with browser := n.browser.applyServerMessage cfg normalizeUrl (f.message n.state.sessionId epoch) now }
    else n
  | .stray sessionId sequence originEpoch payload now =>
    if sessionId = n.state.sessionId then n
    else
      { n with
        browser := n.browser.applyServerMessage cfg normalizeUrl (.increment sessionId sequence originEpoch payload) now }

end Network

/-! ## What the browser shows -/

/-- The increments of a line past a snapshot. -/
def Line.past (l : Line) (s : RuntimeSnapshot) : List ProjectedEvent :=
  l.increments.filter fun t => s.snapshotSequence < t.event.sequence

/-- **The browser is on a line**: it shows a snapshot of the line and the first increments past it. -/
structure Browser.On (cfg : RetentionConfig) (normalizeUrl : String → Option String) (b : Browser) (l : Line)
    (s : RuntimeSnapshot) (k : ℕ) : Prop where
  sent : Frame.snapshot s ∈ l.sent
  base : s.snapshotSequence ≤ b.lastAppliedSequence
  last : b.lastAppliedSequence ≤ l.link.last
  taken : k ≤ (l.past s).length
  done : ∀ t ∈ (l.past s).take k, t.sequence ≤ b.lastAppliedSequence
  past : ∀ t ∈ (l.past s).drop k, b.lastAppliedSequence < t.sequence
  shown : ∀ (now : ℚ) (clock : ℕ → ℚ), b.view.shown
    = ((View.install cfg normalizeUrl {} s now).follow cfg normalizeUrl clock
        (((l.past s).take k).map (·.event))).shown

variable {sessionId : String} {epoch now : ℕ} {history : List StateEvent} {l : Line} {b : Browser} {s : RuntimeSnapshot}
  {k : ℕ}

/-- A line goes on: what it sends is numbered past all it has sent. -/
def Line.Extends (l l' : Line) : Prop :=
  ∃ frames, l'.sent = l.sent ++ frames ∧ l.link.last ≤ l'.link.last ∧
    ∀ t ∈ frames.filterMap Frame.projected, l.link.last < t.sequence

/-- A browser stays on a line that goes on. -/
theorem Browser.On.mono (h : b.On cfg normalizeUrl l s k) {l' : Line} (hl : l.Extends l') :
    b.On cfg normalizeUrl l' s k := by
  obtain ⟨frames, hsent, hlast, hframes⟩ := hl
  have hincrements : l'.increments = l.increments ++ frames.filterMap Frame.projected := by
    rw [Line.increments, hsent]
    exact List.filterMap_append
  have hpast : l'.past s = l.past s ++ (frames.filterMap Frame.projected).filter fun t =>
      s.snapshotSequence < t.event.sequence := by
    rw [Line.past, hincrements, List.filter_append]
    rfl
  refine ⟨?_, h.base, h.last.trans hlast, ?_, fun t ht => ?_, fun t ht => ?_, fun now clock => ?_⟩
  · rw [hsent]
    exact List.mem_append_left _ h.sent
  · rw [hpast, List.length_append]
    exact h.taken.trans (Nat.le_add_right _ _)
  · rw [hpast, List.take_append_of_le_length h.taken] at ht
    exact h.done t ht
  · rw [hpast, List.drop_append_of_le_length h.taken] at ht
    rcases List.mem_append.mp ht with ht | ht
    · exact h.past t ht
    · exact h.last.trans_lt (hframes t (List.mem_of_mem_filter ht))
  · rw [hpast, List.take_append_of_le_length h.taken]
    exact h.shown now clock

theorem Line.Sound.extends_hear (hl : l.Sound sessionId epoch now history) (event : StateEvent) :
    l.Extends (l.hear event) := by
  refine ⟨_, rfl, ?_⟩
  rcases hl.link.onEvent_cases event with ⟨-, hout⟩ | ⟨hidle, -, hout⟩ | ⟨-, -, hout⟩
  · rw [Line.hear, hout]
    exact ⟨le_rfl, fun _ ht => absurd ht List.not_mem_nil⟩
  · rw [Line.hear, hout, Link.last_of_idle hidle]
    refine ⟨?_, fun t ht => ?_⟩
    · rw [Link.last]
      dsimp only
      rw [hidle]
      exact Nat.le_succ _
    · rw [List.map_cons, List.map_nil, List.filterMap_cons, Frame.projected, List.filterMap_nil] at ht
      rw [List.mem_singleton.mp ht]
      exact Nat.lt_succ_self _
  · rw [Line.hear, hout]
    exact ⟨le_rfl, fun _ ht => absurd ht List.not_mem_nil⟩

theorem Line.Sound.extends_act (hl : l.Sound sessionId epoch now history) (a : Link.Act) : l.Extends (l.act a) := by
  refine ⟨_, rfl, ?_⟩
  have hmoved := hl.link.act a
  rw [Line.act]
  revert hmoved
  generalize (l.link.act a).1 = link
  generalize (l.link.act a).2 = frames
  intro hmoved
  rcases hmoved.sends hl.link with ⟨rfl, hq⟩ | ⟨snapshot, hfrom, rfl, rfl⟩ | ⟨watermark, event, rest, hfrom, -, -, rfl, rfl⟩
  · exact ⟨hq.last.ge, fun _ ht => absurd ht List.not_mem_nil⟩
  · rw [Link.last_of_installing hfrom nofun]
    exact ⟨(hl.link.installing snapshot _ hfrom).1, fun _ ht => absurd ht List.not_mem_nil⟩
  · rw [Link.last_of_replaying hfrom]
    refine ⟨?_, fun t ht => ?_⟩
    · rw [Link.last]
      dsimp only
      rw [hfrom]
      exact Nat.le_succ _
    · rw [List.filterMap_cons, Frame.projected, List.filterMap_nil] at ht
      rw [List.mem_singleton.mp ht]
      exact Nat.lt_succ_self _

theorem Line.extends_subscribePaused (l : Line) (snapshot : RuntimeSnapshot) :
    l.Extends { l with link := l.link.subscribePaused snapshot } := by
  refine ⟨[], (List.append_nil _).symm, ?_, fun _ ht => absurd ht List.not_mem_nil⟩
  rw [Link.subscribePaused]
  split_ifs with hidle
  · rw [Link.last_of_idle hidle]
    exact le_rfl
  · exact le_rfl

theorem Line.Sound.pairwise_past (hl : l.Sound sessionId epoch now history) (s : RuntimeSnapshot) :
    (l.past s).Pairwise Line.Before :=
  hl.ordered.filter _

/-- **A snapshot is installed.** -/
theorem Browser.On.install (hl : l.Sound sessionId epoch now history) (hsent : Frame.snapshot s ∈ l.sent)
    (b : Browser) (read : ℚ) : (b.snapshotState cfg normalizeUrl s read).On cfg normalizeUrl l s 0 := by
  refine ⟨hsent, le_rfl, (hl.snapshots s hsent).last, Nat.zero_le _, fun _ ht => absurd ht List.not_mem_nil, fun t ht => ?_,
    fun now _ => View.shown_install b.view {} s read now⟩
  rw [List.drop_zero] at ht
  have hevent : s.snapshotSequence < t.event.sequence := by simpa using List.of_mem_filter ht
  by_contra hle
  exact absurd (((hl.snapshots s hsent).splits t (List.mem_of_mem_filter ht)).mp (Nat.not_lt.mp hle))
    (Nat.not_le.mpr hevent)

/-- **The next number is the next increment.** -/
theorem Browser.On.next (h : b.On cfg normalizeUrl l s k) (hl : l.Sound sessionId epoch now history)
    {t : ProjectedEvent} (ht : Frame.increment t ∈ l.sent) (hsequence : t.sequence = b.lastAppliedSequence + 1) :
    ∃ rest, (l.past s).drop k = t :: rest ∧ ∀ t' ∈ rest, t.sequence < t'.sequence := by
  have hmem : t ∈ l.increments := List.mem_filterMap.mpr ⟨_, ht, rfl⟩
  have hpast : t ∈ l.past s := by
    refine List.mem_filter.mpr ⟨hmem, decide_eq_true (Nat.not_le.mp fun hle => ?_)⟩
    have hnumber := ((hl.snapshots s h.sent).splits t hmem).mpr hle
    have hbase := h.base
    omega
  have hordered := hl.pairwise_past s
  rw [← List.take_append_drop k (l.past s)] at hpast hordered
  obtain ⟨-, hsorted, hacross⟩ := List.pairwise_append.mp hordered
  have hdrop : t ∈ (l.past s).drop k := by
    rcases List.mem_append.mp hpast with htake | hdrop
    · have hle := h.done t htake
      omega
    · exact hdrop
  rcases hlist : (l.past s).drop k with _ | ⟨head, rest⟩
  · rw [hlist] at hdrop
    cases hdrop
  · rw [hlist] at hdrop hsorted
    have hhead := h.past head (by rw [hlist]; exact List.mem_cons_self)
    obtain ⟨hbefore, -⟩ := List.pairwise_cons.mp hsorted
    rcases List.mem_cons.mp hdrop with rfl | hrest
    · exact ⟨rest, rfl, fun t' ht' => (hbefore t' ht').1⟩
    · have hlt := (hbefore t hrest).1
      omega

/-- **The next increment is applied.** -/
theorem Browser.On.apply (h : b.On cfg normalizeUrl l s k) (hl : l.Sound sessionId epoch now history)
    {t : ProjectedEvent} (ht : Frame.increment t ∈ l.sent) (hsequence : t.sequence = b.lastAppliedSequence + 1)
    (read : ℚ) :
    Browser.On cfg normalizeUrl
      { b with
        view := b.view.applyIncrement cfg normalizeUrl t.event.payload read
        lastAppliedSequence := t.sequence
        snapshotRequestPending := false } l s (k + 1) := by
  obtain ⟨rest, hdrop, hrest⟩ := h.next hl ht hsequence
  have hmem : t ∈ l.increments := List.mem_filterMap.mpr ⟨_, ht, rfl⟩
  have htake : (l.past s).take (k + 1) = (l.past s).take k ++ [t] := by
    rw [List.take_add, hdrop]
    rfl
  have hlength : k + 1 ≤ (l.past s).length := by
    have hpos := congrArg List.length hdrop
    rw [List.length_drop, List.length_cons] at hpos
    omega
  have hdrop' : (l.past s).drop (k + 1) = rest := by
    rw [← List.drop_drop, hdrop]
    rfl
  have hbase := h.base
  refine ⟨h.sent, ?_, ?_, hlength, fun t' ht' => ?_, fun t' ht' => ?_, fun now clock => ?_⟩
  · dsimp only
    omega
  · exact (hl.behind t hmem).1.sequence.trans hl.link.projected_le_last
  · rw [htake] at ht'
    rcases List.mem_append.mp ht' with ht' | ht'
    · exact (h.done t' ht').trans (by dsimp only; omega)
    · rw [List.mem_singleton.mp ht']
  · rw [hdrop'] at ht'
    exact hrest t' ht'
  · rw [htake, List.map_append, View.follow, List.foldl_append]
    exact View.shown_applyIncrement (h.shown now clock) t.event.payload read _

namespace Network

/-- **What a network keeps.** -/
structure Tuned (cfg : RetentionConfig) (normalizeUrl : String → Option String) (n : Network) : Prop where
  history : ∀ event ∈ n.history, event.sequence ≤ n.state.sequence
  lines : ∀ epoch line, n.lines epoch = some line →
    line.Sound n.state.sessionId epoch n.state.sequence n.history
  before : n.browser.serverState = false → n.browser.sessionId = none ∧ n.browser.connectionEpoch = none
  after : n.browser.serverState = true → n.browser.sessionId = some n.state.sessionId ∧
    ∃ epoch line s k, n.browser.connectionEpoch = some epoch ∧ n.lines epoch = some line ∧
      n.browser.On cfg normalizeUrl line s k

variable {n : Network}

theorem tuned_start (state : SessionState) : Tuned cfg normalizeUrl { state } where
  history _ := nofun
  lines _ _ := nofun
  before _ := ⟨rfl, rfl⟩
  after := nofun

/-- Connections that go on under a browser that does nothing. -/
theorem Tuned.goOn (ht : n.Tuned cfg normalizeUrl) {n' : Network} (hbrowser : n'.browser = n.browser)
    (hsession : n'.state.sessionId = n.state.sessionId)
    (hhistory : ∀ event ∈ n'.history, event.sequence ≤ n'.state.sequence)
    (hlines : ∀ epoch line, n'.lines epoch = some line →
      line.Sound n.state.sessionId epoch n'.state.sequence n'.history)
    (hextends : ∀ epoch line, n.lines epoch = some line → ∃ line', n'.lines epoch = some line' ∧ line.Extends line') :
    n'.Tuned cfg normalizeUrl := by
  refine ⟨hhistory, hsession ▸ hlines, ?_, fun hstate => ?_⟩
  · rw [hbrowser]
    exact ht.before
  · rw [hbrowser] at hstate ⊢
    obtain ⟨hid, epoch, line, s, k, hepoch, hline, hon⟩ := ht.after hstate
    obtain ⟨line', hline', hext⟩ := hextends epoch line hline
    exact ⟨hsession ▸ hid, epoch, line', s, k, hepoch, hline', hon.mono hext⟩

theorem Tuned.move (ht : n.Tuned cfg normalizeUrl) (m : Move) :
    (n.step cfg normalizeUrl (.move m)).Tuned cfg normalizeUrl := by
  have hsession := m.sessionId_apply cfg n.state
  rw [step]
  rcases m.apply_events cfg n.state with ⟨hnone, hsame⟩ | ⟨event, hone, hsequence, hlater⟩
  · rw [hnone, List.foldl_nil]
    refine ht.goOn rfl hsession (hsame.symm ▸ ht.history) (fun epoch line hline => ?_)
      fun epoch line hline => ⟨line, hline, [], (List.append_nil _).symm, le_rfl, fun _ ht => absurd ht List.not_mem_nil⟩
    exact hsame.symm ▸ ht.lines epoch line hline
  · rw [hone, List.foldl_cons, List.foldl_nil]
    refine ht.goOn rfl hsession (fun e he => ?_) (fun epoch line hline => ?_) fun epoch line hline => ?_
    · rcases List.mem_append.mp he with he | he
      · exact (ht.history e he).trans hlater.le
      · rw [List.mem_singleton.mp he]
        exact hsequence.le
    · obtain ⟨old, hold, rfl⟩ := Option.map_eq_some_iff.mp hline
      have hsound := (ht.lines epoch old hold).hear event (hsequence ▸ hlater)
      rw [hsequence] at hsound
      exact hsound
    · exact ⟨line.hear event, congrArg (Option.map _) hline, (ht.lines epoch line hline).extends_hear event⟩

/-- Something that happens to one connection. -/
theorem Tuned.onLine (ht : n.Tuned cfg normalizeUrl) (state : SessionState)
    (hsession : state.sessionId = n.state.sessionId) (hsequence : state.sequence = n.state.sequence) (epoch : ℕ)
    {f : Line → Line} (hsound : ∀ line, n.lines epoch = some line →
      (f line).Sound n.state.sessionId epoch n.state.sequence n.history ∧ line.Extends (f line)) :
    (Network.onLine { n with state } epoch f).Tuned cfg normalizeUrl := by
  refine ht.goOn rfl hsession (hsequence.symm ▸ ht.history) (fun e line hline => ?_) fun e line hline => ?_
  · rw [Network.onLine] at hline ⊢
    dsimp only at hline ⊢
    rw [hsequence]
    by_cases heq : e = epoch
    · subst heq
      rw [Function.update_self] at hline
      obtain ⟨old, hold, rfl⟩ := Option.map_eq_some_iff.mp hline
      exact (hsound old hold).1
    · rw [Function.update_of_ne heq] at hline
      exact ht.lines e line hline
  · rw [Network.onLine]
    dsimp only
    by_cases heq : e = epoch
    · subst heq
      rw [Function.update_self, hline]
      exact ⟨f line, rfl, (hsound line hline).2⟩
    · rw [Function.update_of_ne heq]
      exact ⟨line, hline, [], (List.append_nil _).symm, le_rfl, fun _ ht => absurd ht List.not_mem_nil⟩

theorem Tuned.attach (ht : n.Tuned cfg normalizeUrl) (epoch : ℕ) (supportsWorkStatus : Bool) :
    (n.step cfg normalizeUrl (.attach epoch supportsWorkStatus)).Tuned cfg normalizeUrl := by
  rw [step]
  rcases hnone : n.lines epoch with _ | line
  · refine ht.goOn rfl rfl ht.history (fun e line hline => ?_) fun e line hline => ?_
    · dsimp only at hline
      by_cases heq : e = epoch
      · subst heq
        rw [Function.update_self] at hline
        cases hline
        exact Line.sound_attach supportsWorkStatus ht.history
      · rw [Function.update_of_ne heq] at hline
        exact ht.lines e line hline
    · have hne : e ≠ epoch := by
        rintro rfl
        rw [hnone] at hline
        cases hline
      dsimp only
      rw [Function.update_of_ne hne]
      exact ⟨line, hline, [], (List.append_nil _).symm, le_rfl, fun _ ht => absurd ht List.not_mem_nil⟩
  · exact ht

theorem Tuned.request (ht : n.Tuned cfg normalizeUrl) (epoch : ℕ) (now : ℚ) :
    (n.step cfg normalizeUrl (.request epoch now)).Tuned cfg normalizeUrl := by
  rw [step]
  rcases hline : n.lines epoch with _ | line
  · exact ht
  · refine ht.onLine (n.state.snapshot cfg (some epoch) line.link.observer.supportsWorkStatus now).1 rfl rfl
      epoch fun line' hline' => ⟨?_, line'.extends_subscribePaused _⟩
    exact (ht.lines epoch line' hline').subscribePaused rfl rfl rfl

/-! ## What arrives -/

/-- Nothing starts the browser over: every snapshot is of its session. -/
theorem Tuned.forSession (ht : n.Tuned cfg normalizeUrl) {s : RuntimeSnapshot}
    (hsession : s.sessionId = n.state.sessionId) : n.browser.forSession s = n.browser := by
  refine Browser.forSession_eq fun id hid => ?_
  rcases hstate : n.browser.serverState
  · exact absurd (hid.symm.trans (ht.before hstate).1) (Option.some_ne_none id)
  · rw [hsession]
    exact Option.some.inj (hid.symm.trans (ht.after hstate).1)

/-- An increment that is a gap leaves the view and its numbers alone. -/
theorem Tuned.gap (ht : n.Tuned cfg normalizeUrl) (gaps count : ℕ) :
    Tuned cfg normalizeUrl { n with browser := { n.browser with
      gaps
      snapshotRequestPending := true
      snapshotRequestCount := count } } := by
  refine ⟨ht.history, ht.lines, ht.before, fun hstate => ?_⟩
  obtain ⟨hid, epoch, line, s, k, hepoch, hline, hon⟩ := ht.after hstate
  exact ⟨hid, epoch, line, s, k, hepoch, hline, hon.sent, hon.base, hon.last, hon.taken, hon.done, hon.past, hon.shown⟩

/-- **A frame arrives.** -/
theorem Tuned.deliver (ht : n.Tuned cfg normalizeUrl) (epoch : ℕ) (f : Frame) (now : ℚ) :
    (n.step cfg normalizeUrl (.deliver epoch f now)).Tuned cfg normalizeUrl ∧
      n.browser.lastAppliedSequence ≤ (n.step cfg normalizeUrl (.deliver epoch f now)).browser.lastAppliedSequence := by
  rw [step]
  split_ifs with hsent
  · obtain ⟨line, hline, hmem⟩ : ∃ line, n.lines epoch = some line ∧ f ∈ line.sent := by
      rcases hline : n.lines epoch with _ | line
      · rw [hline] at hsent
        cases hsent
      · rw [hline, Option.any_some, decide_eq_true_eq] at hsent
        exact ⟨line, rfl, hsent⟩
    have hl := ht.lines epoch line hline
    cases f with
    | snapshot s =>
      have hlogged := hl.snapshots s hmem
      have hsame := ht.forSession hlogged.session
      rw [Frame.message]
      by_cases hinstalled : n.browser.reception (.snapshot s) = .installed
      · have hbound := (Browser.reception_installed hinstalled).1
        rw [hsame] at hbound
        rw [Browser.applyServerMessage, if_pos hinstalled, hsame]
        refine ⟨⟨ht.history, ht.lines, by rintro ⟨⟩, fun _ => ⟨congrArg some hlogged.session, epoch, line, s, 0, ?_, hline,
          Browser.On.install hl hmem n.browser now⟩⟩, (le_max_left _ _).trans hbound⟩
        rw [Browser.snapshotState, hlogged.epoch]
        rfl
      · rw [Browser.applyServerMessage_refused hsame hinstalled now]
        exact ⟨ht, le_rfl⟩
    | increment t =>
      rw [Frame.message]
      by_cases happlied : n.browser.reception (.increment n.state.sessionId t.sequence epoch t.event.payload) = .applied
      · obtain ⟨hstate, hsequence, -, -, hepochs⟩ := Browser.reception_applied happlied
        obtain ⟨hid, epoch', line', s, k, hepoch, hline', hon⟩ := ht.after hstate
        have heq : epoch' = epoch := Option.some.inj (hepoch.symm.trans (hepochs (by rw [hepoch]; rfl)))
        subst heq
        cases hline.symm.trans hline'
        rw [Browser.applyServerMessage, happlied]
        refine ⟨⟨ht.history, ht.lines, fun hc => absurd (hc.symm.trans hstate) Bool.false_ne_true, fun _ =>
          ⟨hid, epoch', line, s, k + 1, hepoch, hline, hon.apply hl hmem hsequence now⟩⟩, ?_⟩
        dsimp only
        omega
      · by_cases hgap : n.browser.reception (.increment n.state.sessionId t.sequence epoch t.event.payload) = .gap
        · rw [Browser.applyServerMessage, hgap]
          exact ⟨ht.gap _ _, le_rfl⟩
        · rw [Browser.applyServerMessage_ignored hgap happlied now]
          exact ⟨ht, le_rfl⟩
  · exact ⟨ht, le_rfl⟩

/-- A message that is none of the browser's business: an increment of another session or of another epoch, or
a snapshot of an older epoch. -/
def Foreign (n : Network) : Message → Prop
  | .increment sessionId _ originEpoch _ =>
    sessionId ≠ n.state.sessionId ∨ n.browser.connectionEpoch ≠ some originEpoch
  | .snapshot s => s.sessionId = n.state.sessionId ∧
    ∃ epoch originEpoch, n.browser.connectionEpoch = some epoch ∧ s.originEpoch = some originEpoch ∧ originEpoch < epoch

/-- **Foreign messages change nothing** once a snapshot is installed. -/
theorem Tuned.foreign (ht : n.Tuned cfg normalizeUrl) (hsession : n.state.sessionId ≠ "")
    (hstate : n.browser.serverState = true) {m : Message} (hm : n.Foreign m) (now : ℚ) :
    n.browser.applyServerMessage cfg normalizeUrl m now = n.browser := by
  obtain ⟨hid, epoch, line, s, k, hepoch, -⟩ := ht.after hstate
  cases m with
  | snapshot s =>
    obtain ⟨hs, epoch', originEpoch, hepoch', horigin, hlt⟩ := hm
    have hsame := ht.forSession hs
    refine Browser.applyServerMessage_refused hsame (fun hinstalled => ?_) now
    have hle := (Browser.reception_installed hinstalled).2 epoch' originEpoch (by rw [hsame, hepoch']) horigin
    exact absurd hle (Nat.not_le.mpr hlt)
  | increment sessionId sequence originEpoch payload =>
    have hforeign : n.browser.reception (.increment sessionId sequence originEpoch payload) = .foreignSession ∨
        n.browser.reception (.increment sessionId sequence originEpoch payload) = .foreignEpoch := by
      rw [Browser.reception]
      by_cases hother : Browser.known n.browser.sessionId ∧ n.browser.sessionId ≠ some sessionId
      · exact Or.inl (if_pos hother)
      · rw [if_neg hother]
        refine Or.inr (if_pos ⟨by rw [hepoch]; rfl, ?_⟩)
        rcases hm with hne | hne
        · refine absurd ⟨?_, ?_⟩ hother
          · rw [hid]
            exact Browser.known_some.mpr hsession
          · rw [hid]
            exact fun hc => hne (Option.some.inj hc).symm
        · exact hne
    refine Browser.applyServerMessage_ignored ?_ ?_ now
    · rcases hforeign with h | h <;> rw [h] <;> rintro ⟨⟩
    · rcases hforeign with h | h <;> rw [h] <;> rintro ⟨⟩

theorem Tuned.stray (ht : n.Tuned cfg normalizeUrl) (hsession : n.state.sessionId ≠ "") (sessionId : String)
    (sequence originEpoch : ℕ) (payload : Payload) (now : ℚ) :
    n.step cfg normalizeUrl (.stray sessionId sequence originEpoch payload now) = n := by
  rw [step]
  split_ifs with hsame
  · rfl
  · have hidle : n.browser.applyServerMessage cfg normalizeUrl (.increment sessionId sequence originEpoch payload) now
        = n.browser := by
      rcases hstate : n.browser.serverState
      · obtain ⟨hid, hepoch⟩ := ht.before hstate
        have hbefore : n.browser.reception (.increment sessionId sequence originEpoch payload) = .beforeSnapshot := by
          rw [Browser.reception, hid, hepoch, if_neg (by simp [Browser.known]), if_neg (by simp), if_pos hstate]
        exact Browser.applyServerMessage_ignored (by rw [hbefore]; rintro ⟨⟩) (by rw [hbefore]; rintro ⟨⟩) now
      · exact ht.foreign hsession hstate (m := .increment sessionId sequence originEpoch payload) (Or.inl hsame) now
    rw [hidle]

/-- **One event.** -/
theorem Tuned.step (ht : n.Tuned cfg normalizeUrl) (hsession : n.state.sessionId ≠ "") (e : Event) :
    (n.step cfg normalizeUrl e).Tuned cfg normalizeUrl ∧
      n.browser.lastAppliedSequence ≤ (n.step cfg normalizeUrl e).browser.lastAppliedSequence ∧
      (n.step cfg normalizeUrl e).state.sessionId = n.state.sessionId := by
  have hhear : ∀ (es : List StateEvent) (n : Network), (es.foldl hear n).browser = n.browser ∧
      (es.foldl hear n).state = n.state := by
    intro es
    induction es with
    | nil => exact fun _ => ⟨rfl, rfl⟩
    | cons event es ih => exact fun n => ih (n.hear event)
  cases e with
  | move m =>
    refine ⟨ht.move m, ?_, ?_⟩
    · rw [Network.step, (hhear _ _).1]
    · rw [Network.step, (hhear _ _).2]
      exact m.sessionId_apply cfg n.state
  | attach epoch supportsWorkStatus =>
    refine ⟨ht.attach epoch supportsWorkStatus, ?_⟩
    rw [Network.step]
    rcases n.lines epoch with _ | line <;> exact ⟨le_rfl, rfl⟩
  | request epoch now =>
    refine ⟨ht.request epoch now, ?_⟩
    rw [Network.step]
    rcases n.lines epoch with _ | line <;> exact ⟨le_rfl, rfl⟩
  | act epoch a =>
    exact ⟨ht.onLine _ rfl rfl epoch fun line hline =>
      ⟨(ht.lines epoch line hline).act a, (ht.lines epoch line hline).extends_act a⟩, le_rfl, rfl⟩
  | deliver epoch f now =>
    refine ⟨(ht.deliver epoch f now).1, (ht.deliver epoch f now).2, ?_⟩
    rw [Network.step]
    split_ifs <;> rfl
  | stray sessionId sequence originEpoch payload now =>
    rw [ht.stray hsession sessionId sequence originEpoch payload now]
    exact ⟨ht, le_rfl, rfl⟩

/-! ## Runs -/

/-- The events a connection sees that were raised after a snapshot. -/
def eventsAfter (n : Network) (line : Line) (s : RuntimeSnapshot) : List StateEvent :=
  n.history.filter fun event => line.link.observer.visible event && decide (s.snapshotSequence < event.sequence)

/-- The increments past a snapshot are the first of the events after it. -/
theorem Tuned.take_eventsAfter (ht : n.Tuned cfg normalizeUrl) {epoch : ℕ} {line : Line}
    (hline : n.lines epoch = some line) {s : RuntimeSnapshot} (hs : Frame.snapshot s ∈ line.sent) {k : ℕ}
    (hk : k ≤ (line.past s).length) :
    (n.eventsAfter line s).take k = ((line.past s).take k).map (·.event) := by
  have hl := ht.lines epoch line hline
  have hsplit : n.eventsAfter line s = (line.past s).map (·.event)
      ++ (line.link.observer.buffer.filter line.link.observer.visible).filter
          fun event => decide (s.snapshotSequence < event.sequence) := by
    have hfilter := congrArg (List.filter fun event => decide (s.snapshotSequence < event.sequence)) hl.complete
    rw [List.filter_filter, List.filter_append, List.filter_map] at hfilter
    refine Eq.trans ?_ hfilter
    refine List.filter_congr fun event _ => ?_
    by_cases hpast : s.snapshotSequence < event.sequence
    · rw [decide_eq_true hpast, decide_eq_true ((hl.snapshots s hs).since.trans_lt hpast), Bool.true_and]
    · rw [decide_eq_false hpast, Bool.and_false, Bool.false_and]
  rw [hsplit, List.take_append_of_le_length (by rw [List.length_map]; exact hk), List.map_take]

/-- **The browser is consistent with a prefix**: whatever the channel does, in every state reached after a
snapshot was installed the browser shows a snapshot some connection sent and the first of the events that
connection saw after it; its number never falls, and foreign messages change nothing. -/
theorem prefix_consistent (cfg : RetentionConfig) (normalizeUrl : String → Option String) (state : SessionState)
    (hsession : state.sessionId ≠ "") (es : List Event) :
    let n := run (Network.step cfg normalizeUrl) { state } es
    (n.browser.serverState = true → ∃ epoch line s k, n.browser.connectionEpoch = some epoch ∧
        n.lines epoch = some line ∧ Frame.snapshot s ∈ line.sent ∧ ∀ (now : ℚ) (clock : ℕ → ℚ),
          n.browser.view.shown = ((View.install cfg normalizeUrl {} s now).follow cfg normalizeUrl clock
            ((n.eventsAfter line s).take k)).shown) ∧
      (∀ e, n.browser.lastAppliedSequence ≤ (n.step cfg normalizeUrl e).browser.lastAppliedSequence) ∧
      (n.browser.serverState = true → ∀ m, n.Foreign m → ∀ now,
        n.browser.applyServerMessage cfg normalizeUrl m now = n.browser) := by
  intro n
  have hreached : n.Tuned cfg normalizeUrl ∧ n.state.sessionId = state.sessionId := by
    refine run_invariant_of_step (I := fun n : Network => n.Tuned cfg normalizeUrl ∧ n.state.sessionId = state.sessionId)
      (fun n e hn => ?_) ⟨tuned_start state, rfl⟩ es
    obtain ⟨htuned, -, hsame⟩ := hn.1.step (hn.2.symm ▸ hsession) e
    exact ⟨htuned, hsame.trans hn.2⟩
  obtain ⟨ht, hid⟩ := hreached
  have hsession' : n.state.sessionId ≠ "" := hid.symm ▸ hsession
  refine ⟨fun hstate => ?_, fun e => (ht.step hsession' e).2.1, fun hstate m hm now => ht.foreign hsession' hstate hm now⟩
  obtain ⟨-, epoch, line, s, k, hepoch, hline, hon⟩ := ht.after hstate
  refine ⟨epoch, line, s, k, hepoch, hline, hon.sent, fun now clock => ?_⟩
  rw [ht.take_eventsAfter hline hon.sent hon.taken]
  exact hon.shown now clock

/-- A worker of epoch 1. -/
def idleWorker (workerId : String) : WorkerState where
  workerId
  topic := "topic"
  modelPolicy := "light"
  status := "idle"
  originEpoch := some 1

/-- The snapshot of a session that has raised nothing. -/
def blankSnapshot : RuntimeSnapshot := (SessionState.snapshot { sessionId := "session" } retentionConfig (some 1) true 0).2

/-- The increment of the first worker event. -/
def firstIncrement : Frame :=
  .increment ⟨1, ⟨1, .worker (idleWorker "a")⟩⟩

/-- Increments arrive before their snapshot, twice, and with one of them lost. -/
def lossyRun : List Event :=
  [.attach 1 true, .request 1 0, .act 1 .flush, .act 1 .acknowledge, .act 1 .writeSnapshot,
    .move (.call (.setWorker (idleWorker "a"))), .act 1 .settle, .act 1 .replayNext, .act 1 .replayEnd,
    .move (.call (.setWorker (idleWorker "b"))), .deliver 1 firstIncrement 0,
    .deliver 1 (.snapshot blankSnapshot) 0, .deliver 1 firstIncrement 0, .deliver 1 firstIncrement 0,
    .deliver 1 (.snapshot blankSnapshot) 0]

theorem prefix_consistent_lossy :
    let n := run (Network.step retentionConfig some) { state := { sessionId := "session" } } lossyRun
    (n.browser.serverState = true ∧ n.browser.lastAppliedSequence = 1) ∧
      ∃ epoch line s k, n.browser.connectionEpoch = some epoch ∧ n.lines epoch = some line ∧
        Frame.snapshot s ∈ line.sent ∧ ∀ (now : ℚ) (clock : ℕ → ℚ),
          n.browser.view.shown = ((View.install retentionConfig some {} s now).follow retentionConfig some clock
            ((n.eventsAfter line s).take k)).shown := by
  intro n
  have hstate : n.browser.serverState = true ∧ n.browser.lastAppliedSequence = 1 := by decide +kernel
  exact ⟨hstate, (prefix_consistent retentionConfig some { sessionId := "session" } (by decide) lossyRun).1 hstate.1⟩

end Network

end Session

end SubagentsLab

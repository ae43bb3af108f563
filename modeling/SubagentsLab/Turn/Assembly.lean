import Mathlib.Tactic.Linarith
import SubagentsLab.Turn.Transcript

/-!
# Turn/Assembly — a turn's fragments are dispatched together, once

Of the completion tasks that have not ended, the one the processor points to is the only one that was not
cancelled, and it has committed exactly when `_completion_committed` says so (`Linked`): so at most one task
is ever on its way to a dispatch, and no cancelled one has taken a text.  What that task waits for is never
over before the grace period is, counted from the last stop frame, with no start frame in between
(`Timely`).

Fragments are then accounted for in the order they came (`Assembled`): those of the turns whose text is
fixed, one text a turn, and after them those of the turn that is still open.
-/

namespace SubagentsLab

open Machinery

namespace CompletionState

variable {s : CompletionState} {id : ℕ} {grace : ℚ}

/-! ## The completion tasks -/

/-- What the processor knows of its completion tasks. -/
structure Linked (s : CompletionState) : Prop where
  below : ∀ id c, s.completionTasks.get? id = some c → id < s.nextTask
  current : ∀ id c, s.completionTasks.get? id = some c → c.cancelRequested = false → s.completionTask = some id
  cancelled : ∀ id c, s.completionTasks.get? id = some c → c.cancelRequested = true → c.phase.committed = false
  pointed : ∀ id, s.completionTask = some id → ∃ phase, s.completionTasks.get? id = some { phase } ∧
    phase.committed = s.completionCommitted
  idle : s.completionTask = none → s.completionCommitted = false
  armed : ∀ id, s.arming = some id → s.completionTask = some id ∧ s.completionCommitted = true ∨
    s.completionTask = none ∧ s.completionTasks.get? id = none

@[simp] theorem get?_suspend (s : CompletionState) (id : ℕ) (phase : CompletionPhase) :
    (s.suspend id phase).completionTasks.get? id = some { phase } := by
  rw [suspend, Dict.get?_set, if_pos rfl]

/-- The current task moves on; it does not take a commit back. -/
theorem Linked.suspend (h : s.Linked) (hid : s.completionTask = some id) {phase : CompletionPhase}
    {committed : Bool} (hphase : phase.committed = committed)
    (hkeep : s.completionCommitted = true → committed = true) :
    ({ s.suspend id phase with completionCommitted := committed } : CompletionState).Linked := by
  obtain ⟨below, current, cancelled, pointed, idle, armed⟩ := h
  constructor <;> grind [CompletionState.suspend]

/-- A task that was cancelled ends. -/
theorem Linked.retire (h : s.Linked) {c : Completion} (hget : s.completionTasks.get? id = some c)
    (hcancelled : c.cancelRequested = true) : (s.retire id).Linked := by
  obtain ⟨below, current, cancelled, pointed, idle, armed⟩ := h
  constructor <;> grind [CompletionState.retire]

/-- The current task ends. -/
theorem Linked.clear (h : s.Linked) (hid : s.completionTask = some id) :
    ({ s.retire id with completionTask := none, completionCommitted := false } : CompletionState).Linked := by
  obtain ⟨below, current, cancelled, pointed, idle, armed⟩ := h
  constructor <;> grind [CompletionState.retire]

theorem Linked.cancelCompletion (h : s.Linked) (hopen : s.completionCommitted = false)
    (harming : s.arming = none) : s.cancelCompletion.Linked := by
  obtain ⟨below, current, cancelled, pointed, idle, armed⟩ := h
  rcases htask : s.completionTask with _ | id
  · constructor <;> grind [CompletionState.cancelCompletion]
  · obtain ⟨phase, hget, hphase⟩ := pointed id htask
    constructor <;> grind [CompletionState.cancelCompletion, CompletionState.cancelTask]

theorem Linked.createCompletion (h : s.Linked) (htask : s.completionTask = none) (harming : s.arming = none) :
    s.createCompletion.Linked := by
  obtain ⟨below, current, cancelled, pointed, idle, armed⟩ := h
  constructor <;> grind [CompletionState.createCompletion, CompletionPhase.committed]

theorem cancelCompletion_completionTask : s.cancelCompletion.completionTask = none := rfl

theorem cancelCompletion_arming : s.cancelCompletion.arming = s.arming := by
  rcases htask : s.completionTask with _ | id
  · simp [cancelCompletion, htask]
  · rcases hget : s.completionTasks.get? id with _ | c <;> simp [cancelCompletion, cancelTask, htask, hget]

/-- A stop frame either finds a task that has committed, and waits, or replaces what there is. -/
theorem armCompletion_cases (h : s.Linked) :
    (∃ id, s.completionTask = some id ∧ s.completionCommitted = true ∧
      s.armCompletion = { s with arming := some id }) ∨
    s.completionCommitted = false ∧ s.armCompletion = s.cancelCompletion.createCompletion := by
  rcases htask : s.completionTask with _ | id
  · have hopen := h.idle htask
    have hnone : s.cancelCompletion = s := by
      obtain ⟨task, tasks, committed, next, arming, now, stopped⟩ := s
      cases htask
      cases hopen
      rfl
    exact Or.inr ⟨hopen, by rw [armCompletion, htask, hnone]⟩
  · obtain ⟨phase, hget, -⟩ := h.pointed id htask
    rcases hcommitted : s.completionCommitted with _ | _
    · exact Or.inr ⟨rfl, by simp [armCompletion, htask, hget, hcommitted]⟩
    · exact Or.inl ⟨id, rfl, rfl, by simp [armCompletion, htask, hget, hcommitted]⟩

theorem Linked.armCompletion (h : s.Linked) (harming : s.arming = none) : s.armCompletion.Linked := by
  obtain ⟨id, htask, hcommitted, heq⟩ | ⟨hopen, heq⟩ := armCompletion_cases h
  · rw [heq]
    obtain ⟨below, current, cancelled, pointed, idle, -⟩ := h
    refine ⟨below, current, cancelled, pointed, idle, fun id' hid' => ?_⟩
    cases hid'
    exact Or.inl ⟨htask, hcommitted⟩
  · rw [heq]
    exact (h.cancelCompletion hopen harming).createCompletion rfl (cancelCompletion_arming.trans harming)

/-- The handler of a stop frame goes on when the task it awaits is done; there is none then. -/
theorem resumeArming_cases (h : s.Linked) :
    s.resumeArming = s ∨ ∃ id, s.arming = some id ∧ s.completionTask = none ∧
      s.resumeArming = { s with arming := none }.createCompletion := by
  rcases harming : s.arming with _ | id
  · exact Or.inl (by rw [resumeArming, harming])
  · rcases hget : s.completionTasks.get? id with _ | c
    · rcases h.armed id harming with ⟨htask, -⟩ | ⟨htask, -⟩
      · obtain ⟨phase, hsome, -⟩ := h.pointed id htask
        rw [hget] at hsome
        cases hsome
      · exact Or.inr ⟨id, rfl, htask, by simp [resumeArming, harming, hget]⟩
    · exact Or.inl (by simp [resumeArming, harming, hget])

theorem Linked.disarm (h : s.Linked) : ({ s with arming := none } : CompletionState).Linked :=
  ⟨h.below, h.current, h.cancelled, h.pointed, h.idle, fun _ hid => nomatch hid⟩

theorem Linked.resumeArming (h : s.Linked) : s.resumeArming.Linked := by
  obtain heq | ⟨id, -, htask, heq⟩ := resumeArming_cases h
  · rwa [heq]
  · rw [heq]
    exact h.disarm.createCompletion htask rfl

/-- A start frame cancels a task that has not committed. -/
theorem resumeSpeech_cases (s : CompletionState) :
    s.completionCommitted = false ∧ s.resumeSpeech = s.cancelCompletion ∨
    (s.completionTask = none ∨ s.completionCommitted = true) ∧ s.resumeSpeech = s := by
  rcases htask : s.completionTask with _ | id <;> rcases hcommitted : s.completionCommitted with _ | _ <;>
    simp [resumeSpeech, htask, hcommitted]

theorem Linked.resumeSpeech (h : s.Linked) (harming : s.arming = none) : s.resumeSpeech.Linked := by
  obtain ⟨hopen, heq⟩ | ⟨-, heq⟩ := resumeSpeech_cases s
  · rw [heq]
    exact h.cancelCompletion hopen harming
  · rwa [heq]

/-- The timer of a sleep wakes the current task. -/
theorem sleepEnds_cases (h : s.Linked) (id : ℕ) :
    s.sleepEnds id = s ∨ ∃ wakeAt, s.completionTask = some id ∧ s.completionCommitted = false ∧
      s.completionTasks.get? id = some { phase := .sleeping wakeAt } ∧ wakeAt ≤ s.now ∧
      s.sleepEnds id = s.suspend id .woken := by
  rw [sleepEnds]
  split
  next wakeAt hget =>
    have htask := h.current id _ hget rfl
    obtain ⟨phase, hget', hphase⟩ := h.pointed id htask
    rw [hget] at hget'
    cases hget'
    split_ifs with hdue
    · exact Or.inr ⟨wakeAt, htask, hphase.symm, hget, hdue, rfl⟩
    · exact Or.inl rfl
  next => exact Or.inl rfl

theorem Linked.sleepEnds (h : s.Linked) (id : ℕ) : (s.sleepEnds id).Linked := by
  obtain heq | ⟨wakeAt, htask, hopen, -, -, heq⟩ := sleepEnds_cases h id
  · rwa [heq]
  · rw [heq]
    have hmoved : ({ s.suspend id .woken with completionCommitted := false } : CompletionState).Linked :=
      h.suspend htask rfl (by simp [hopen])
    rwa [← hopen] at hmoved

theorem Linked.timed (h : s.Linked) (now : ℚ) (stoppedAt : Option ℚ) :
    ({ s with now, stoppedAt } : CompletionState).Linked :=
  ⟨h.below, h.current, h.cancelled, h.pointed, h.idle, h.armed⟩

/-! ## What the tasks wait for -/

/-- A stop frame came `grace` seconds before `time`, and no start frame since. -/
def StoppedBefore (s : CompletionState) (grace time : ℚ) : Prop := ∃ t, s.stoppedAt = some t ∧ t + grace ≤ time

/-- How far the task that is to fix the text may have come. -/
def Due (grace : ℚ) (s : CompletionState) : CompletionPhase → Prop
  | .fresh => s.StoppedBefore 0 s.now
  | .sleeping wakeAt => s.StoppedBefore grace wakeAt
  | .woken => s.StoppedBefore grace s.now
  | .acquiring _ | .pushing => True

/-- The current task, and the handler of a stop frame that is to create one, are no earlier than they may. -/
structure Timely (grace : ℚ) (s : CompletionState) : Prop where
  due : ∀ id c, s.completionTask = some id → s.completionTasks.get? id = some c → s.Due grace c.phase
  armed : ∀ id, s.arming = some id → s.StoppedBefore 0 s.now

theorem StoppedBefore.mono {time time' : ℚ} (h : s.StoppedBefore grace time) (hle : time ≤ time') :
    s.StoppedBefore grace time' := by
  obtain ⟨t, ht, hpast⟩ := h
  exact ⟨t, ht, hpast.trans hle⟩

/-- A task that has committed waits for nothing that time can spoil. -/
theorem due_of_committed {phase : CompletionPhase} (h : phase.committed = true) : s.Due grace phase := by
  cases phase with
  | acquiring text => trivial
  | pushing => trivial
  | fresh => cases h
  | sleeping wakeAt => cases h
  | woken => cases h

theorem Timely.suspend (h : s.Timely grace) (hid : s.completionTask = some id) {phase : CompletionPhase}
    (hdue : s.Due grace phase) : (s.suspend id phase).Timely grace where
  due id' c htask hget := by
    cases hid.symm.trans htask
    rw [CompletionState.suspend, Dict.get?_set, if_pos rfl] at hget
    cases hget
    exact hdue
  armed := h.armed

/-- What has ended, or is pointed to no longer, is not waited for. -/
theorem Timely.of_get? (h : s.Timely grace) {s' : CompletionState}
    (htask : ∀ id, s'.completionTask = some id → s.completionTask = some id ∧
      s'.completionTasks.get? id = s.completionTasks.get? id)
    (harming : s'.arming = s.arming) (hnow : s'.now = s.now) (hstopped : s'.stoppedAt = s.stoppedAt) :
    s'.Timely grace := by
  have hbefore : ∀ grace time, s'.StoppedBefore grace time ↔ s.StoppedBefore grace time := fun grace time => by
    rw [StoppedBefore, StoppedBefore, hstopped]
  constructor
  · intro id c hid hget
    obtain ⟨hid', hget'⟩ := htask id hid
    have hdue := h.due id c hid' (hget' ▸ hget)
    cases hphase : c.phase <;> simp_all [Due]
  · intro id hid
    rw [hbefore, hnow]
    exact h.armed id (harming ▸ hid)

theorem Timely.retire (h : s.Timely grace) (hlinked : s.Linked) {c : Completion}
    (hget : s.completionTasks.get? id = some c) (hcancelled : c.cancelRequested = true) :
    (s.retire id).Timely grace := by
  refine h.of_get? (fun id' hid' => ⟨hid', ?_⟩) rfl rfl rfl
  obtain ⟨phase, hget', -⟩ := hlinked.pointed id' hid'
  have hne : id' ≠ id := by
    rintro rfl
    rw [hget] at hget'
    cases hget'
    cases hcancelled
  rw [CompletionState.retire, Dict.get?_pop, if_neg hne]

/-- A new task is created after the stop frame. -/
theorem Timely.createCompletion (harming : s.arming = none) (hstopped : s.StoppedBefore 0 s.now) :
    s.createCompletion.Timely grace where
  due id c htask hget := by
    cases htask
    rw [CompletionState.createCompletion, Dict.get?_set, if_pos rfl] at hget
    cases hget
    exact hstopped
  armed id hid := by
    rw [CompletionState.createCompletion, harming] at hid
    cases hid

theorem cancelCompletion_clock : s.cancelCompletion.now = s.now ∧ s.cancelCompletion.stoppedAt = s.stoppedAt := by
  rcases htask : s.completionTask with _ | id
  · simp [cancelCompletion, htask]
  · rcases hget : s.completionTasks.get? id with _ | c <;> simp [cancelCompletion, cancelTask, htask, hget]

/-- A stop frame starts the wait afresh. -/
theorem Timely.armCompletion (hlinked : s.Linked) (harming : s.arming = none) :
    ({ s with stoppedAt := some s.now } : CompletionState).armCompletion.Timely grace := by
  have hstopped : ({ s with stoppedAt := some s.now } : CompletionState).StoppedBefore 0 s.now :=
    ⟨s.now, rfl, (add_zero _).le⟩
  obtain ⟨id, htask, hcommitted, heq⟩ | ⟨hopen, heq⟩ := armCompletion_cases (hlinked.timed s.now (some s.now))
  · rw [heq]
    refine ⟨fun id' c hid' hget => ?_, fun _ _ => hstopped⟩
    obtain ⟨phase, hget', hphase⟩ := hlinked.pointed id' hid'
    cases hget'.symm.trans hget
    exact due_of_committed (hphase.trans hcommitted)
  · rw [heq]
    refine .createCompletion (cancelCompletion_arming.trans harming) ?_
    rw [StoppedBefore, cancelCompletion_clock.1, cancelCompletion_clock.2]
    exact hstopped

theorem Timely.resumeArming (h : s.Timely grace) (hlinked : s.Linked) : s.resumeArming.Timely grace := by
  obtain heq | ⟨id, hid, htask, heq⟩ := resumeArming_cases hlinked
  · rwa [heq]
  · rw [heq]
    exact .createCompletion rfl (h.armed id hid)

/-- A start frame leaves no task that has yet to fix a text. -/
theorem Timely.resumeSpeech (hlinked : s.Linked) (harming : s.arming = none) :
    ({ s.resumeSpeech with stoppedAt := none } : CompletionState).Timely grace := by
  obtain ⟨-, heq⟩ | ⟨hpast, heq⟩ := resumeSpeech_cases s
  · rw [heq]
    refine ⟨fun id c htask _ => (nomatch htask), fun id hid => ?_⟩
    cases (cancelCompletion_arming.trans harming).symm.trans hid
  · rw [heq]
    refine ⟨fun id c htask hget => ?_, fun id hid => ?_⟩
    · obtain ⟨phase, hget', hphase⟩ := hlinked.pointed id htask
      cases hget'.symm.trans hget
      rcases hpast with hnone | hcommitted
      · cases hnone.symm.trans htask
      · exact due_of_committed (hphase.trans hcommitted)
    · cases harming.symm.trans hid

theorem Timely.sleepEnds (h : s.Timely grace) (hlinked : s.Linked) (id : ℕ) : (s.sleepEnds id).Timely grace := by
  obtain heq | ⟨wakeAt, htask, -, hget, hdue, heq⟩ := sleepEnds_cases hlinked id
  · rwa [heq]
  · rw [heq]
    exact h.suspend htask ((h.due id _ htask hget : s.StoppedBefore grace wakeAt).mono hdue)

theorem Timely.clock (h : s.Timely grace) {time : ℚ} (hle : s.now ≤ time) :
    ({ s with now := time } : CompletionState).Timely grace where
  due id c htask hget := by
    have hdue := h.due id c htask hget
    cases hphase : c.phase with
    | fresh => exact StoppedBefore.mono (hphase ▸ hdue : s.Due grace .fresh) hle
    | sleeping wakeAt => exact (hphase ▸ hdue : s.Due grace (.sleeping wakeAt))
    | woken => exact StoppedBefore.mono (hphase ▸ hdue : s.Due grace .woken) hle
    | acquiring text => trivial
    | pushing => trivial
  armed id hid := (h.armed id hid).mono hle

/-! ## The text that waits for a slot -/

theorem awaitingText?_of_open {c : Completion} (h : c.phase.committed = false) : c.awaitingText? = none := by
  rcases c with ⟨_ | _ | _ | _ | _, _⟩ <;> first | rfl | cases h

/-- **Only the current task can wait with a text.** -/
theorem Linked.current_of_awaiting (h : s.Linked) {c : Completion} (hget : s.completionTasks.get? id = some c)
    (htext : c.awaitingText? ≠ none) : s.completionTask = some id := by
  rcases hcancelled : c.cancelRequested with _ | _
  · exact h.current id c hget hcancelled
  · exact absurd (awaitingText?_of_open (h.cancelled id c hget hcancelled)) htext

theorem awaitingSlot_of_pointed (h : s.Linked) (htask : s.completionTask = some id) {c : Completion}
    (hget : s.completionTasks.get? id = some c) : s.awaitingSlot = c.awaitingText?.toList := by
  have honly : ∀ id' c', s.completionTasks.get? id' = some c' → c'.awaitingText? ≠ none → id' = id := by
    intro id' c' hget' htext
    cases htask.symm.trans (h.current_of_awaiting hget' htext)
    rfl
  rw [awaitingSlot, Dict.filterMap_values honly, hget, Option.bind_some]

/-- Before the commit no text waits. -/
theorem awaitingSlot_of_open (h : s.Linked) (hopen : s.completionCommitted = false) : s.awaitingSlot = [] := by
  refine List.filterMap_eq_nil_iff.mpr fun c hc => ?_
  obtain ⟨id, hget⟩ := Dict.mem_values.mp hc
  by_contra htext
  obtain ⟨phase, hget', hphase⟩ := h.pointed id (h.current_of_awaiting hget htext)
  cases hget.symm.trans hget'
  exact htext (awaitingText?_of_open (hphase.trans hopen))

/-- A cancelled task ends without a text. -/
theorem awaitingSlot_retire (h : s.Linked) {c : Completion} (hget : s.completionTasks.get? id = some c)
    (hcancelled : c.cancelRequested = true) : (s.retire id).awaitingSlot = s.awaitingSlot := by
  have hretired := h.retire hget hcancelled
  rcases hcommitted : s.completionCommitted with _ | _
  · rw [awaitingSlot_of_open hretired hcommitted, awaitingSlot_of_open h hcommitted]
  · obtain ⟨current, htask⟩ : ∃ current, s.completionTask = some current := by
      rw [← Option.isSome_iff_exists, Option.isSome_iff_ne_none]
      exact fun hnone => by cases (h.idle hnone).symm.trans hcommitted
    obtain ⟨phase, hpointed, -⟩ := hretired.pointed current htask
    have hne : current ≠ id := by
      rintro rfl
      simp [retire] at hpointed
    have hpointed' : s.completionTasks.get? current = some { phase } := by
      rwa [retire, Dict.get?_pop, if_neg hne] at hpointed
    rw [awaitingSlot_of_pointed hretired htask hpointed, awaitingSlot_of_pointed h htask hpointed']

end CompletionState

/-- The fragment a delivery brings: what is left of a transcription without the white space around it, if
anything is. -/
def TurnEvent.heard? : TurnEvent → Option PyStr
  | .deliver (.transcription text) .downstream => if text.strip = [] then none else some text.strip
  | _ => none

theorem TurnEvent.heard?_ne_nil {e : TurnEvent} {text : PyStr} (h : e.heard? = some text) : text ≠ [] := by
  rw [TurnEvent.heard?.eq_def] at h
  split at h
  next raw =>
    split_ifs at h with hblank
    cases h
    exact hblank
  next => cases h

/-- The fragments that were heard, in order. -/
def heard (es : List TurnEvent) : List PyStr := es.filterMap TurnEvent.heard?

/-- The text of a turn: its fragments joined, and cut. -/
def turnText (cfg : TranscriptConfig) (turn : List PyStr) : PyStr := cut 0x20 cfg.maxTranscriptChars turn

namespace FinalTurnTranscriptProcessor

open CompletionState

variable {cfg : TranscriptConfig} {p p' : FinalTurnTranscriptProcessor} {id : ℕ}

/-! ## What a step does -/

theorem resume_cases (h : p.Linked) (id : ℕ) :
    p.resume cfg id = p ∨
    (∃ c, p.completionTasks.get? id = some c ∧ c.cancelRequested = true ∧
      p.resume cfg id = { p with toCompletionState := p.retire id }) ∨
    p.completionTask = some id ∧
      (p.completionTasks.get? id = some {} ∧
          p.resume cfg id =
            { p with toCompletionState := p.suspend id (.sleeping (p.now + cfg.completeGraceSeconds)) } ∨
        p.completionTasks.get? id = some { phase := .woken } ∧ p.resume cfg id = p.completeTurn id ∨
        ∃ text, p.completionTasks.get? id = some { phase := .acquiring text } ∧
          p.dispatchSlots.isGranted id = true ∧
          p.resume cfg id =
            { p with
              toCompletionState := p.suspend id .pushing
              dispatchSlots := p.dispatchSlots.resume id
              dispatchTasks := p.dispatchTasks ++ [text] }) := by
  rcases hget : p.completionTasks.get? id with _ | ⟨phase, cancelled⟩
  · exact Or.inl (by rw [resume, hget])
  · cases cancelled with
    | true =>
      have hopen := h.cancelled id _ hget rfl
      cases phase with
      | acquiring text => cases hopen
      | pushing => cases hopen
      | fresh => exact Or.inr (Or.inl ⟨_, rfl, rfl, by simp [resume, hget]⟩)
      | sleeping wakeAt => exact Or.inr (Or.inl ⟨_, rfl, rfl, by simp [resume, hget]⟩)
      | woken => exact Or.inr (Or.inl ⟨_, rfl, rfl, by simp [resume, hget]⟩)
    | false =>
      have htask := h.current id _ hget rfl
      cases phase with
      | fresh => exact Or.inr (Or.inr ⟨htask, Or.inl ⟨rfl, by simp [resume, hget]⟩⟩)
      | sleeping wakeAt => exact Or.inl (by simp [resume, hget])
      | woken => exact Or.inr (Or.inr ⟨htask, Or.inr (Or.inl ⟨rfl, by simp [resume, hget]⟩)⟩)
      | acquiring text =>
        by_cases hgranted : p.dispatchSlots.isGranted id = true
        · refine Or.inr (Or.inr ⟨htask, Or.inr (Or.inr ⟨text, rfl, hgranted, ?_⟩)⟩)
          simp [resume, hget, hgranted]
        · exact Or.inl (by simp [resume, hget, hgranted])
      | pushing => exact Or.inl (by simp [resume, hget])

/-- The task whose sleep is over ends with an empty buffer, or takes the text and a dispatch slot, or takes
the text and queues. -/
theorem completeTurn_cases (p : FinalTurnTranscriptProcessor) (id : ℕ) :
    joinFragments p.fragments = [] ∧
      p.completeTurn id = { p with
        toCompletionState := { p.retire id with completionTask := none }
        fragments := []
        fragmentChars := 0 } ∨
    joinFragments p.fragments ≠ [] ∧
      (p.dispatchSlots.locked = true ∧
          p.completeTurn id = { p with
            toCompletionState :=
              { p.suspend id (.acquiring (joinFragments p.fragments)) with completionCommitted := true }
            fragments := []
            fragmentChars := 0
            dispatchSlots := p.dispatchSlots.wait id } ∨
        p.dispatchSlots.locked = false ∧
          p.completeTurn id = { p with
            toCompletionState := { p.suspend id .pushing with completionCommitted := true }
            fragments := []
            fragmentChars := 0
            dispatchSlots := p.dispatchSlots.take
            dispatchTasks := p.dispatchTasks ++ [joinFragments p.fragments] }) := by
  by_cases htext : joinFragments p.fragments = []
  · exact Or.inl ⟨htext, if_pos htext⟩
  · refine Or.inr ⟨htext, ?_⟩
    cases hlocked : p.dispatchSlots.locked with
    | true => exact Or.inl ⟨rfl, by rw [completeTurn, if_neg htext, dispatchInBackground, if_pos hlocked]; rfl⟩
    | false =>
      refine Or.inr ⟨rfl, ?_⟩
      rw [completeTurn, if_neg htext, dispatchInBackground, if_neg (by simp [hlocked])]
      rfl

theorem pushed_cases (h : p.Linked) (id : ℕ) :
    p.pushed id = p ∨ p.completionTask = some id ∧ p.completionTasks.get? id = some { phase := .pushing } ∧
      p.pushed id = { p with toCompletionState :=
        { p.retire id with completionTask := none, completionCommitted := false } } := by
  rw [pushed]
  split
  next cancelled hget =>
    cases cancelled with
    | true => cases h.cancelled id _ hget rfl
    | false =>
      have htask := h.current id _ hget rfl
      exact Or.inr ⟨htask, hget, by rw [finish]; simp [retire, htask]⟩
  next => exact Or.inl rfl

/-- A frame that is delivered brings a fragment, or comes while no handler of a stop frame is suspended, or
says nothing. -/
theorem deliver_cases (cfg : TranscriptConfig) (p : FinalTurnTranscriptProcessor) (frame : TurnFrame)
    (direction : FrameDirection) :
    (∃ text, (TurnEvent.deliver frame direction).heard? = some text ∧
      p.deliver cfg frame direction = p.appendFragment cfg text) ∨
    (TurnEvent.deliver frame direction).heard? = none ∧
      (p.deliver cfg frame direction = p ∨ p.arming = none ∧
        (p.deliver cfg frame direction
            = { p with toCompletionState := { p.resumeSpeech with stoppedAt := none } } ∨
          p.deliver cfg frame direction = { p with toCompletionState :=
            { p.toCompletionState with stoppedAt := some p.now }.armCompletion })) := by
  cases direction with
  | upstream => exact Or.inr ⟨by cases frame <;> rfl, Or.inl rfl⟩
  | downstream =>
    rcases harming : p.arming with _ | id
    · cases frame with
      | transcription text =>
        by_cases hblank : text.strip = []
        · exact Or.inr ⟨by simp [TurnEvent.heard?, hblank],
            Or.inl (by simp [deliver, processFrame, harming, hblank])⟩
        · exact Or.inl ⟨text.strip, by simp [TurnEvent.heard?, hblank],
            by simp [deliver, processFrame, harming, hblank]⟩
      | userStartedSpeaking =>
        exact Or.inr ⟨rfl, Or.inr ⟨rfl, Or.inl (by simp [deliver, processFrame, harming])⟩⟩
      | vadUserStartedSpeaking =>
        exact Or.inr ⟨rfl, Or.inr ⟨rfl, Or.inl (by simp [deliver, processFrame, harming])⟩⟩
      | userStoppedSpeaking =>
        exact Or.inr ⟨rfl, Or.inr ⟨rfl, Or.inr (by simp [deliver, processFrame, harming])⟩⟩
      | other => exact Or.inr ⟨rfl, Or.inl (by simp [deliver, processFrame, harming])⟩
    · cases frame with
      | transcription text =>
        by_cases hblank : text.strip = []
        · exact Or.inr ⟨by simp [TurnEvent.heard?, hblank],
            Or.inl (by simp [deliver, processFrame, TurnFrame.isSystem, hblank])⟩
        · exact Or.inl ⟨text.strip, by simp [TurnEvent.heard?, hblank],
            by simp [deliver, processFrame, TurnFrame.isSystem, hblank]⟩
      | userStartedSpeaking => exact Or.inr ⟨rfl, Or.inl (by simp [deliver, harming, TurnFrame.isSystem])⟩
      | vadUserStartedSpeaking => exact Or.inr ⟨rfl, Or.inl (by simp [deliver, harming, TurnFrame.isSystem])⟩
      | userStoppedSpeaking => exact Or.inr ⟨rfl, Or.inl (by simp [deliver, harming, TurnFrame.isSystem])⟩
      | other => exact Or.inr ⟨rfl, Or.inl (by simp [deliver, harming, TurnFrame.isSystem])⟩

/-- A fragment that is heard goes to the buffer, if anywhere. -/
theorem appendFragment_eq (cfg : TranscriptConfig) (p : FinalTurnTranscriptProcessor) (text : PyStr) :
    ∃ fragments fragmentChars, p.appendFragment cfg text = { p with fragments, fragmentChars } := by
  simp only [appendFragment]
  split_ifs <;> exact ⟨_, _, rfl⟩

/-! ## The tasks stay in order -/

/-- The tasks are what the processor knows of them, and on time. -/
structure Sound (cfg : TranscriptConfig) (s : CompletionState) : Prop where
  linked : s.Linked
  timely : s.Timely cfg.completeGraceSeconds

theorem Sound.suspend {s : CompletionState} (h : Sound cfg s) (htask : s.completionTask = some id)
    {phase : CompletionPhase} (hphase : phase.committed = s.completionCommitted)
    (hdue : s.Due cfg.completeGraceSeconds phase) : Sound cfg (s.suspend id phase) :=
  ⟨h.linked.suspend htask hphase fun hcommitted => hcommitted, h.timely.suspend htask hdue⟩

/-- The current task commits. -/
theorem Sound.commit {s : CompletionState} (h : Sound cfg s) (htask : s.completionTask = some id)
    {phase : CompletionPhase} (hphase : phase.committed = true) :
    Sound cfg { s.suspend id phase with completionCommitted := true } := by
  have hmoved := h.timely.suspend htask (due_of_committed hphase : s.Due cfg.completeGraceSeconds phase)
  exact ⟨h.linked.suspend htask hphase fun _ => rfl,
    hmoved.of_get? (fun _ hid => ⟨hid, rfl⟩) rfl rfl rfl⟩

/-- The current task ends. -/
theorem Sound.clear {s : CompletionState} (h : Sound cfg s) (htask : s.completionTask = some id) :
    Sound cfg { s.retire id with completionTask := none, completionCommitted := false } :=
  ⟨h.linked.clear htask, h.timely.of_get? (fun _ hid => nomatch hid) rfl rfl rfl⟩

theorem sound_init : Sound cfg (init cfg).toCompletionState where
  linked := by constructor <;> simp [init]
  timely := by constructor <;> simp [init]

theorem Sound.deliver (h : Sound cfg p.toCompletionState) (frame : TurnFrame) (direction : FrameDirection) :
    Sound cfg (p.deliver cfg frame direction).toCompletionState := by
  obtain ⟨text, -, heq⟩ | ⟨-, heq | ⟨harming, heq | heq⟩⟩ := deliver_cases cfg p frame direction
  · obtain ⟨fragments, fragmentChars, hadded⟩ := appendFragment_eq cfg p text
    rwa [heq, hadded]
  · rwa [heq]
  · rw [heq]
    exact ⟨(h.linked.resumeSpeech harming).timed _ none, .resumeSpeech h.linked harming⟩
  · rw [heq]
    exact ⟨(h.linked.timed _ (some p.now)).armCompletion harming, .armCompletion h.linked harming⟩

theorem Sound.completeTurn (h : Sound cfg p.toCompletionState) (htask : p.completionTask = some id)
    (hopen : p.completionCommitted = false) : Sound cfg (p.completeTurn id).toCompletionState := by
  obtain ⟨-, heq⟩ | ⟨-, ⟨-, heq⟩ | ⟨-, heq⟩⟩ := completeTurn_cases p id
  · rw [heq]
    have hcleared := h.clear htask
    rwa [← hopen] at hcleared
  · rw [heq]
    exact h.commit htask rfl
  · rw [heq]
    exact h.commit htask rfl

theorem Sound.resume (h : Sound cfg p.toCompletionState) (id : ℕ) :
    Sound cfg (p.resume cfg id).toCompletionState := by
  obtain heq | ⟨c, hget, hcancelled, heq⟩ | ⟨htask, hcases⟩ := resume_cases h.linked id
  · rwa [heq]
  · rw [heq]
    exact ⟨h.linked.retire hget hcancelled, h.timely.retire h.linked hget hcancelled⟩
  · obtain ⟨phase, hpointed, hphase⟩ := h.linked.pointed id htask
    obtain ⟨hget, heq⟩ | ⟨hget, heq⟩ | ⟨text, hget, -, heq⟩ := hcases
    · rw [heq]
      have hstopped : p.StoppedBefore 0 p.now := h.timely.due id _ htask hget
      cases hpointed.symm.trans hget
      obtain ⟨t, ht, hpast⟩ := hstopped
      exact h.suspend htask hphase ⟨t, ht, by linarith⟩
    · cases hpointed.symm.trans hget
      rw [heq]
      exact h.completeTurn htask hphase.symm
    · cases hpointed.symm.trans hget
      rw [heq]
      exact h.suspend htask hphase trivial

theorem Sound.step (h : Sound cfg p.toCompletionState) (e : TurnEvent) :
    Sound cfg (p.step cfg e).toCompletionState := by
  cases e with
  | deliver frame direction => exact h.deliver frame direction
  | clock time => exact ⟨h.linked.timed _ p.stoppedAt, h.timely.clock (le_max_left _ _)⟩
  | sleepEnds id => exact ⟨h.linked.sleepEnds id, h.timely.sleepEnds h.linked id⟩
  | resume id => exact h.resume id
  | pushed id =>
    obtain heq | ⟨htask, -, heq⟩ := pushed_cases h.linked id
    · rwa [FinalTurnTranscriptProcessor.step, heq]
    · rw [FinalTurnTranscriptProcessor.step, heq]
      exact h.clear htask
  | resumeArming => exact ⟨h.linked.resumeArming, h.timely.resumeArming h.linked⟩
  | beginDispatch =>
    have hsame : p.beginDispatch.toCompletionState = p.toCompletionState := by
      rw [beginDispatch]
      split <;> rfl
    rwa [FinalTurnTranscriptProcessor.step, hsame]
  | endDispatch =>
    have hsame : p.endDispatch.toCompletionState = p.toCompletionState := by
      rw [endDispatch]
      split_ifs <;> rfl
    rwa [FinalTurnTranscriptProcessor.step, hsame]

/-! ## Where the texts go -/

/-- No text is fixed, and the buffer is as it was. -/
structure Kept (p p' : FinalTurnTranscriptProcessor) : Prop where
  fragments : p'.fragments = p.fragments
  fragmentChars : p'.fragmentChars = p.fragmentChars
  fixedTexts : p'.fixedTexts = p.fixedTexts

/-- The buffer is taken; its text is fixed, if there is any. -/
structure Taken (p p' : FinalTurnTranscriptProcessor) : Prop where
  fragments : p'.fragments = []
  fragmentChars : p'.fragmentChars = 0
  fixedTexts : p'.fixedTexts
    = if joinFragments p.fragments = [] then p.fixedTexts else p.fixedTexts ++ [joinFragments p.fragments]

/-- Nothing waits for a slot before or after. -/
theorem kept_of_open {t : CompletionState} (h : p.Linked) (ht : t.Linked) (hopen : p.completionCommitted = false)
    (hopen' : t.completionCommitted = false) : Kept p { p with toCompletionState := t } :=
  ⟨rfl, rfl, by rw [fixedTexts, fixedTexts, awaitingSlot_of_open ht hopen', awaitingSlot_of_open h hopen]⟩

theorem kept_deliver (h : Sound cfg p.toCompletionState) {frame : TurnFrame} {direction : FrameDirection}
    (hnone : (TurnEvent.deliver frame direction).heard? = none) : Kept p (p.deliver cfg frame direction) := by
  have hsound := h.deliver frame direction
  obtain ⟨text, hsome, -⟩ | ⟨-, heq | ⟨harming, heq | heq⟩⟩ := deliver_cases cfg p frame direction
  · cases hnone.symm.trans hsome
  · rw [heq]
    exact ⟨rfl, rfl, rfl⟩
  · rw [heq] at hsound ⊢
    obtain ⟨hopen, hcancel⟩ | ⟨-, hsame⟩ := resumeSpeech_cases p.toCompletionState
    · exact kept_of_open h.linked hsound.linked hopen (by rw [hcancel]; rfl)
    · rw [hsame]
      exact ⟨rfl, rfl, rfl⟩
  · rw [heq] at hsound ⊢
    obtain ⟨id, -, -, hwait⟩ | ⟨hopen, hnew⟩ := armCompletion_cases (h.linked.timed p.now (some p.now))
    · rw [hwait]
      exact ⟨rfl, rfl, rfl⟩
    · exact kept_of_open h.linked hsound.linked hopen (by rw [hnew]; rfl)

/-- The task whose sleep is over takes the buffer. -/
theorem taken_completeTurn (h : Sound cfg p.toCompletionState) (htask : p.completionTask = some id)
    (hopen : p.completionCommitted = false) : Taken p (p.completeTurn id) := by
  have hsound := h.completeTurn htask hopen
  have hnone : p.awaitingSlot = [] := awaitingSlot_of_open h.linked hopen
  obtain ⟨htext, heq⟩ | ⟨htext, ⟨-, heq⟩ | ⟨-, heq⟩⟩ := completeTurn_cases p id
  · rw [heq] at hsound ⊢
    refine ⟨rfl, rfl, ?_⟩
    rw [if_pos htext, fixedTexts, fixedTexts, awaitingSlot_of_open hsound.linked hopen, hnone]
  · rw [heq] at hsound ⊢
    refine ⟨rfl, rfl, ?_⟩
    have hwaits := awaitingSlot_of_pointed hsound.linked htask (get?_suspend _ _ _)
    rw [if_neg htext, fixedTexts, fixedTexts, hnone, List.append_nil, hwaits]
    rfl
  · rw [heq] at hsound ⊢
    refine ⟨rfl, rfl, ?_⟩
    have hgone := awaitingSlot_of_pointed hsound.linked htask (get?_suspend _ _ _)
    rw [if_neg htext, fixedTexts, fixedTexts, hnone, List.append_nil, hgone, ← List.append_assoc]
    exact List.append_nil _

/-- A step of a completion task leaves the texts alone, moves the one that waits into a dispatch task, or
takes the buffer, a grace period after the last stop frame. -/
theorem resume_texts (h : Sound cfg p.toCompletionState) (id : ℕ) :
    Kept p (p.resume cfg id) ∨
      Taken p (p.resume cfg id) ∧ p.StoppedBefore cfg.completeGraceSeconds p.now := by
  have hsound := h.resume id
  obtain heq | ⟨c, hget, hcancelled, heq⟩ | ⟨htask, hcases⟩ := resume_cases h.linked id
  · rw [heq]
    exact Or.inl ⟨rfl, rfl, rfl⟩
  · rw [heq] at hsound ⊢
    refine Or.inl ⟨rfl, rfl, ?_⟩
    rw [fixedTexts, fixedTexts, awaitingSlot_retire h.linked hget hcancelled]
  · obtain ⟨phase, hpointed, hphase⟩ := h.linked.pointed id htask
    obtain ⟨hget, heq⟩ | ⟨hget, heq⟩ | ⟨text, hget, -, heq⟩ := hcases
    · cases hpointed.symm.trans hget
      rw [heq] at hsound ⊢
      exact Or.inl (kept_of_open h.linked hsound.linked hphase.symm hphase.symm)
    · cases hpointed.symm.trans hget
      rw [heq]
      exact Or.inr ⟨taken_completeTurn h htask hphase.symm, h.timely.due id _ htask hget⟩
    · rw [heq] at hsound ⊢
      refine Or.inl ⟨rfl, rfl, ?_⟩
      have hwaits := awaitingSlot_of_pointed h.linked htask hget
      have hgone := awaitingSlot_of_pointed hsound.linked htask (get?_suspend _ _ _)
      rw [fixedTexts, fixedTexts, hwaits, hgone, ← List.append_assoc]
      exact List.append_nil _

/-- **What a step can do to the texts**: add a fragment that was heard, nothing, or take the buffer, a grace
period after the last stop frame. -/
theorem step_texts (h : Sound cfg p.toCompletionState) (e : TurnEvent) :
    (∃ text, e.heard? = some text ∧ p.step cfg e = p.appendFragment cfg text) ∨
      e.heard? = none ∧ (Kept p (p.step cfg e) ∨
        Taken p (p.step cfg e) ∧ p.StoppedBefore cfg.completeGraceSeconds p.now) := by
  have hsound := h.step e
  cases e with
  | deliver frame direction =>
    obtain ⟨text, hsome, heq⟩ | ⟨hnone, -⟩ := deliver_cases cfg p frame direction
    · exact Or.inl ⟨text, hsome, heq⟩
    · exact Or.inr ⟨hnone, Or.inl (kept_deliver h hnone)⟩
  | clock time => exact Or.inr ⟨rfl, Or.inl ⟨rfl, rfl, rfl⟩⟩
  | sleepEnds id =>
    refine Or.inr ⟨rfl, Or.inl ?_⟩
    obtain heq | ⟨wakeAt, -, hopen, -, -, heq⟩ := sleepEnds_cases h.linked id
    · rw [step, heq]
      exact ⟨rfl, rfl, rfl⟩
    · exact kept_of_open h.linked hsound.linked hopen (by rw [heq]; exact hopen)
  | resume id => exact Or.inr ⟨rfl, resume_texts h id⟩
  | pushed id =>
    refine Or.inr ⟨rfl, Or.inl ?_⟩
    obtain heq | ⟨htask, hget, heq⟩ := pushed_cases h.linked id
    · rw [step, heq]
      exact ⟨rfl, rfl, rfl⟩
    · rw [step, heq] at hsound ⊢
      have hnone : p.awaitingSlot = [] := awaitingSlot_of_pointed h.linked htask hget
      refine ⟨rfl, rfl, ?_⟩
      rw [fixedTexts, fixedTexts, awaitingSlot_of_open hsound.linked rfl, hnone]
  | resumeArming =>
    refine Or.inr ⟨rfl, Or.inl ?_⟩
    obtain heq | ⟨id, -, htask, heq⟩ := resumeArming_cases h.linked
    · rw [step, heq]
      exact ⟨rfl, rfl, rfl⟩
    · have hopen := h.linked.idle htask
      exact kept_of_open h.linked hsound.linked hopen (by rw [heq]; exact hopen)
  | beginDispatch =>
    refine Or.inr ⟨rfl, Or.inl ?_⟩
    rw [step, beginDispatch]
    split
    next => exact ⟨rfl, rfl, rfl⟩
    next text rest hnext =>
      refine ⟨rfl, rfl, ?_⟩
      simp [fixedTexts, hnext]
  | endDispatch =>
    refine Or.inr ⟨rfl, Or.inl ?_⟩
    rw [step, endDispatch]
    split_ifs <;> exact ⟨rfl, rfl, rfl⟩

/-! ## The fragments of a turn -/

/-- The buffer holds the text of the fragments heard since the last text was fixed. -/
structure Buffers (cfg : TranscriptConfig) (turn : List PyStr) (p : FinalTurnTranscriptProcessor) : Prop where
  joined : joinFragments p.fragments = turnText cfg turn
  chars : p.fragmentChars = (joinFragments p.fragments).length
  empty_iff : p.fragments = [] ↔ turn = []
  heard : ∀ text ∈ turn, text ≠ []

theorem Buffers.chars_le {turn : List PyStr} (h : Buffers cfg turn p) : p.fragmentChars ≤ cfg.maxTranscriptChars := by
  rw [h.chars, h.joined]
  exact length_cut_le turn

/-- The first fragment of a turn is cut, never dropped. -/
theorem appendFragment_nil {text : PyStr} (hempty : p.fragments = []) (hchars : p.fragmentChars = 0)
    (htext : text ≠ []) :
    p.appendFragment cfg text = { p with
      fragments := [text.take cfg.maxTranscriptChars]
      fragmentChars := (text.take cfg.maxTranscriptChars).length } := by
  have hpos := cfg.transcriptChars_pos
  have hcut : text.take cfg.maxTranscriptChars ≠ [] := by
    rw [ne_eq, List.take_eq_nil_iff, not_or]
    exact ⟨by omega, htext⟩
  have hroom : ¬ cfg.maxTranscriptChars ≤ 0 := by omega
  simp [appendFragment, hempty, hchars, hroom, hcut]

/-- **A fragment that is heard joins the turn's text.** -/
theorem Buffers.appendFragment {turn : List PyStr} (h : Buffers cfg turn p) {text : PyStr} (htext : text ≠ []) :
    Buffers cfg (turn ++ [text]) (p.appendFragment cfg text) := by
  have hheard : ∀ x ∈ turn ++ [text], x ≠ [] := by
    intro x hx
    rcases List.mem_append.mp hx with hx | hx
    · exact h.heard x hx
    · rwa [List.mem_singleton.mp hx]
  have hsome : turn ++ [text] ≠ [] := List.append_ne_nil_of_right_ne_nil _ (List.cons_ne_nil _ _)
  rcases eq_or_ne turn [] with rfl | hne
  · have hempty := h.empty_iff.mpr rfl
    have hchars : p.fragmentChars = 0 := by rw [h.chars, hempty]; rfl
    rw [appendFragment_nil hempty hchars htext]
    refine ⟨?_, ?_, ?_, hheard⟩
    · rw [List.nil_append, turnText, cut_singleton]
      exact joined_singleton _
    · exact congrArg List.length (joined_singleton _).symm
    · simp
  · have hfull : p.fragments ≠ [] := fun hempty => hne (h.empty_iff.mp hempty)
    have hlength : p.fragmentChars = (turnText cfg turn).length := by rw [h.chars, h.joined]
    have hcut : turnText cfg (turn ++ [text]) = _ := cut_append_singleton hne h.heard text
    rw [← turnText, ← hlength] at hcut
    by_cases hroom : cfg.maxTranscriptChars - p.fragmentChars ≤ 1
    · -- no room for more than a separator
      rw [if_pos hroom] at hcut
      have hdropped : p.appendFragment cfg text = p := by
        simp [FinalTurnTranscriptProcessor.appendFragment, hfull, hroom]
      rw [hdropped]
      exact ⟨h.joined.trans hcut.symm, h.chars, iff_of_false hfull hsome, hheard⟩
    · rw [if_neg hroom] at hcut
      obtain ⟨fragment, hfragment⟩ :
          ∃ fragment, fragment = text.take (cfg.maxTranscriptChars - p.fragmentChars - 1) := ⟨_, rfl⟩
      have hadds : fragment ≠ [] := by
        rw [hfragment, ne_eq, List.take_eq_nil_iff, not_or]
        exact ⟨by omega, htext⟩
      have hadded : p.appendFragment cfg text = { p with
          fragments := p.fragments ++ [fragment]
          fragmentChars := p.fragmentChars + (1 + fragment.length) } := by
        simp [FinalTurnTranscriptProcessor.appendFragment, hfull, hroom, ← hfragment, hadds]
      have hjoined : joinFragments (p.fragments ++ [fragment]) = joinFragments p.fragments ++ 0x20 :: fragment :=
        joined_append_singleton hfull fragment
      rw [hadded]
      refine ⟨?_, ?_, iff_of_false (List.append_ne_nil_of_left_ne_nil hfull _) hsome, hheard⟩
      · rw [hjoined, hcut, h.joined, hfragment]
      · rw [hjoined, h.chars, List.length_append, List.length_cons, Nat.add_comm 1]

theorem Buffers.kept {turn : List PyStr} (h : Buffers cfg turn p) (hkept : Kept p p') : Buffers cfg turn p' where
  joined := hkept.fragments ▸ h.joined
  chars := by rw [hkept.fragmentChars, hkept.fragments, h.chars]
  empty_iff := hkept.fragments ▸ h.empty_iff
  heard := h.heard

theorem Buffers.taken (hfragments : p'.fragments = []) (hchars : p'.fragmentChars = 0) : Buffers cfg [] p' where
  joined := by rw [hfragments, turnText, cut_nil]; rfl
  chars := by rw [hchars, hfragments]; rfl
  empty_iff := iff_of_true hfragments rfl
  heard _ htext := absurd htext List.not_mem_nil

/-- A buffer that joins to nothing has nothing in it. -/
theorem Buffers.eq_nil {turn : List PyStr} (h : Buffers cfg turn p) (htext : joinFragments p.fragments = []) :
    turn = [] := by
  by_contra hne
  exact cut_ne_nil cfg.transcriptChars_pos hne h.heard (h.joined.symm.trans htext)

theorem fixedTexts_appendFragment (cfg : TranscriptConfig) (p : FinalTurnTranscriptProcessor) (text : PyStr) :
    (p.appendFragment cfg text).fixedTexts = p.fixedTexts := by
  obtain ⟨fragments, fragmentChars, hadded⟩ := appendFragment_eq cfg p text
  rw [hadded]
  rfl

/-- The fragments are those of turns whose texts are fixed, and those of the turn in the buffer. -/
structure Assembled (cfg : TranscriptConfig) (fragments : List PyStr) (p : FinalTurnTranscriptProcessor) : Prop where
  sound : Sound cfg p.toCompletionState
  turns : ∃ (turns : List (List PyStr)) (turn : List PyStr), turns.flatten ++ turn = fragments ∧
    p.fixedTexts = turns.map (turnText cfg) ∧ Buffers cfg turn p

theorem assembled_init : Assembled cfg [] (init cfg) :=
  ⟨sound_init, [], [], rfl, rfl, .taken rfl rfl⟩

theorem assembled_step {fragments : List PyStr} (h : Assembled cfg fragments p) (e : TurnEvent) :
    Assembled cfg (fragments ++ e.heard?.toList) (p.step cfg e) := by
  refine ⟨h.sound.step e, ?_⟩
  obtain ⟨turns, turn, hfragments, hfixed, hbuffers⟩ := h.turns
  obtain ⟨text, htext, heq⟩ | ⟨hnone, hkept | ⟨htaken, -⟩⟩ := step_texts h.sound e
  · refine ⟨turns, turn ++ [text], ?_, ?_, ?_⟩
    · rw [htext, ← hfragments, List.append_assoc]
      rfl
    · rw [heq, fixedTexts_appendFragment, hfixed]
    · rw [heq]
      exact hbuffers.appendFragment (TurnEvent.heard?_ne_nil htext)
  · refine ⟨turns, turn, ?_, hkept.fixedTexts.trans hfixed, hbuffers.kept hkept⟩
    rw [hnone, hfragments]
    exact (List.append_nil _).symm
  · have hall : fragments ++ e.heard?.toList = turns.flatten ++ turn := by
      rw [hnone, hfragments]
      exact List.append_nil _
    by_cases hempty : joinFragments p.fragments = []
    · have hturn := hbuffers.eq_nil hempty
      refine ⟨turns, [], hall.symm ▸ hturn ▸ rfl, ?_, .taken htaken.fragments htaken.fragmentChars⟩
      rw [htaken.fixedTexts, if_pos hempty, hfixed]
    · refine ⟨turns ++ [turn], [], ?_, ?_, .taken htaken.fragments htaken.fragmentChars⟩
      · rw [hall, List.flatten_append, List.flatten_singleton, List.append_nil]
      · rw [htaken.fixedTexts, if_neg hempty, hfixed, hbuffers.joined, List.map_append]
        rfl

theorem assembled_run {fragments : List PyStr} (h : Assembled cfg fragments p) (es : List TurnEvent) :
    Assembled cfg (fragments ++ heard es) (run (step cfg) p es) := by
  induction es generalizing fragments p with
  | nil => rwa [heard, List.filterMap_nil, List.append_nil]
  | cons e es ih =>
    have hrest := ih (assembled_step h e)
    have hheard : heard (e :: es) = e.heard?.toList ++ heard es := by
      rcases hsome : e.heard? with _ | text <;> simp [heard, hsome]
    rwa [run_cons, hheard, ← List.append_assoc]

/-- **Turn assembly loses and splits nothing**: after any events the fragments heard are, in order, those of
turns whose texts are fixed, one text a turn in the order they are dispatched, and those of the turn in the
buffer; a turn's text is its fragments joined and cut at the limit.  Any step that fixes a text fixes the
whole buffer, a grace period after the last stop frame with no start frame in between; and the count of
characters is right and within the limit. -/
theorem turns_assembled (cfg : TranscriptConfig) (es : List TurnEvent) :
    let p := run (step cfg) (init cfg) es
    (∃ (turns : List (List PyStr)) (turn : List PyStr), turns.flatten ++ turn = heard es ∧
      p.fixedTexts = turns.map (turnText cfg) ∧ joinFragments p.fragments = turnText cfg turn) ∧
    (∀ e, (p.step cfg e).fixedTexts = p.fixedTexts ∨
      (p.step cfg e).fixedTexts = p.fixedTexts ++ [joinFragments p.fragments] ∧
        (p.step cfg e).fragments = [] ∧ p.StoppedBefore cfg.completeGraceSeconds p.now) ∧
    p.fragmentChars = (joinFragments p.fragments).length ∧ p.fragmentChars ≤ cfg.maxTranscriptChars := by
  intro p
  have hassembled : Assembled cfg (heard es) p := assembled_run assembled_init es
  obtain ⟨turns, turn, hfragments, hfixed, hbuffers⟩ := hassembled.turns
  refine ⟨⟨turns, turn, hfragments, hfixed, hbuffers.joined⟩, fun e => ?_, hbuffers.chars, hbuffers.chars_le⟩
  obtain ⟨text, -, heq⟩ | ⟨-, hkept | ⟨htaken, hdue⟩⟩ := step_texts hassembled.sound e
  · exact Or.inl (heq ▸ fixedTexts_appendFragment cfg p text)
  · exact Or.inl hkept.fixedTexts
  · have hfixes := htaken.fixedTexts
    split_ifs at hfixes with hempty
    · exact Or.inl hfixes
    · exact Or.inr ⟨hfixes, htaken.fragments, hdue⟩

/-- With one character of room left the next fragment is dropped, for that would be the separator. -/
theorem fragment_dropped_below_limit :
    let cfg : TranscriptConfig := { maxTranscriptChars := 5 }
    let es : List TurnEvent := [.deliver (.transcription (.ofString "abcd")) .downstream,
      .deliver (.transcription (.ofString "e")) .downstream]
    let p := run (step cfg) (init cfg) es
    heard es = [.ofString "abcd", .ofString "e"] ∧ p.fixedTexts = [] ∧ p.fragments = [.ofString "abcd"] ∧
      (joinFragments p.fragments).length < cfg.maxTranscriptChars := by
  decide +kernel

/-! ## Backpressure -/

/-- Every dispatch slot is free, handed to a completion task that is still queued, or with a dispatch task. -/
def SlotsAccounted (cfg : TranscriptConfig) (p : FinalTurnTranscriptProcessor) : Prop :=
  p.dispatchSlots.permits + p.dispatchTasks.length + p.dispatching = cfg.maxPendingDispatches

theorem slotsAccounted_init : SlotsAccounted cfg (init cfg) := rfl

/-- A step that touches neither the slots nor the dispatch tasks. -/
theorem SlotsAccounted.of_eq (h : SlotsAccounted cfg p) (hslots : p'.dispatchSlots = p.dispatchSlots)
    (htasks : p'.dispatchTasks = p.dispatchTasks) (hrunning : p'.dispatching = p.dispatching) :
    SlotsAccounted cfg p' := by
  rw [SlotsAccounted, hslots, htasks, hrunning]
  exact h

/-- A step that leaves a dispatch task behind takes a slot for it. -/
theorem SlotsAccounted.dispatch (h : SlotsAccounted cfg p) {text : PyStr}
    (hslots : p'.dispatchSlots.permits + 1 = p.dispatchSlots.permits)
    (htasks : p'.dispatchTasks = p.dispatchTasks ++ [text]) (hrunning : p'.dispatching = p.dispatching) :
    SlotsAccounted cfg p' := by
  rw [SlotsAccounted] at h
  rw [SlotsAccounted, htasks, hrunning, List.length_append, List.length_singleton]
  omega

theorem slotsAccounted_deliver (h : SlotsAccounted cfg p) (frame : TurnFrame) (direction : FrameDirection) :
    SlotsAccounted cfg (p.deliver cfg frame direction) := by
  obtain ⟨text, -, heq⟩ | ⟨-, heq | ⟨-, heq | heq⟩⟩ := deliver_cases cfg p frame direction
  · obtain ⟨fragments, fragmentChars, hadded⟩ := appendFragment_eq cfg p text
    rw [heq, hadded]
    exact h.of_eq rfl rfl rfl
  · rwa [heq]
  · rw [heq]
    exact h.of_eq rfl rfl rfl
  · rw [heq]
    exact h.of_eq rfl rfl rfl

theorem slotsAccounted_resume (h : SlotsAccounted cfg p) (hlinked : p.Linked) (id : ℕ) :
    SlotsAccounted cfg (p.resume cfg id) := by
  obtain heq | ⟨c, -, -, heq⟩ | ⟨-, ⟨-, heq⟩ | ⟨-, heq⟩ | ⟨text, -, hgranted, heq⟩⟩ :=
    resume_cases hlinked id
  · rwa [heq]
  · rw [heq]
    exact h.of_eq rfl rfl rfl
  · rw [heq]
    exact h.of_eq rfl rfl rfl
  · rw [heq]
    obtain ⟨-, heq⟩ | ⟨-, ⟨-, heq⟩ | ⟨hfree, heq⟩⟩ := completeTurn_cases p id
    · rw [heq]
      exact h.of_eq rfl rfl rfl
    · rw [heq, SlotsAccounted, Semaphore.permits_wait]
      exact h
    · rw [heq]
      exact h.dispatch (Semaphore.permits_take hfree) rfl rfl
  · rw [heq]
    exact h.dispatch (Semaphore.permits_resume hgranted) rfl rfl

theorem slotsAccounted_step (h : SlotsAccounted cfg p) (hlinked : p.Linked) (e : TurnEvent) :
    SlotsAccounted cfg (p.step cfg e) := by
  cases e with
  | deliver frame direction => exact slotsAccounted_deliver h frame direction
  | clock time => exact h.of_eq rfl rfl rfl
  | sleepEnds id => exact h.of_eq rfl rfl rfl
  | resume id => exact slotsAccounted_resume h hlinked id
  | pushed id =>
    obtain heq | ⟨-, -, heq⟩ := pushed_cases hlinked id
    · rwa [step, heq]
    · rw [step, heq]
      exact h.of_eq rfl rfl rfl
  | resumeArming => exact h.of_eq rfl rfl rfl
  | beginDispatch =>
    rw [step, beginDispatch]
    split
    next => exact h
    next text rest hnext =>
      rw [SlotsAccounted, hnext, List.length_cons] at h
      simp only [SlotsAccounted]
      omega
  | endDispatch =>
    rw [step, endDispatch]
    split_ifs with hidle
    · exact h
    · have hreleased := p.dispatchSlots.permits_release
      simp only [SlotsAccounted] at h ⊢
      omega

/-- **No more dispatches are pending than there are slots.** -/
theorem dispatches_bounded (cfg : TranscriptConfig) (es : List TurnEvent) :
    (run (step cfg) (init cfg) es).dispatchTasks.length + (run (step cfg) (init cfg) es).dispatching
      ≤ cfg.maxPendingDispatches := by
  have haccounted : SlotsAccounted cfg (run (step cfg) (init cfg) es) ∧
      Sound cfg (run (step cfg) (init cfg) es).toCompletionState :=
    run_invariant_of_step (I := fun p => SlotsAccounted cfg p ∧ Sound cfg p.toCompletionState)
      (fun p e h => ⟨slotsAccounted_step h.1 h.2.linked e, h.2.step e⟩) ⟨slotsAccounted_init, sound_init⟩ es
  have hslots := haccounted.1
  rw [SlotsAccounted] at hslots
  omega

end FinalTurnTranscriptProcessor

end SubagentsLab

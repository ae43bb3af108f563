import SubagentsLab.Services.Tts

/-!
# Services/Synthesis — what a synthesis says

Whatever else goes on, a synthesis tells the callback it found that it has started, yields its frames, and says how it
ended: `Stage.next` is the whole order, and where a call stands in it is read off the call (`Synthesis.stage`).

* `synthesis_protocol`: over whole runs of the service, for every call of `run_tts`.
-/

namespace SubagentsLab

open Machinery

namespace Tts

/-! ## The order of what is said -/

/-- How far a synthesis has got. -/
inductive Stage
  | unbegun
  | refused
  | serving (p : Party)
  | announced (p : Party)
  | playing (p : Party) (bytes : ℕ)
  | ended (p : Party)
  | stopped (p : Party)
  | failing (p : Party)
  | unknown (p : Party)
  deriving DecidableEq

/-- **The order of what a synthesis says.**  It speaks for one party from its beginning on; the end of its audio and an
unknown delivery exclude each other, and it yields no more audio than it may. -/
def Stage.next (cfg : TtsConfig) : Stage → Output → Option Stage
  | unbegun, .refused _ _ => some refused
  | unbegun, .began _ p => some (serving p)
  | serving p, .report _ q .synthesisStarted => if q = p then some (announced p) else none
  | announced p, .frame _ contextId .started => if contextId = p.contextId then some (playing p 0) else none
  | playing p bytes, .frame _ contextId (.audio audio _) =>
    if contextId = p.contextId ∧ bytes + audio.length ≤ cfg.maxAudioBytesPerUtterance then
      some (playing p (bytes + audio.length))
    else none
  | playing p _, .report _ q .synthesisEnded => if q = p then some (ended p) else none
  | ended p, .frame _ contextId .stopped => if contextId = p.contextId then some (stopped p) else none
  | serving p, .failed _ _ => some (failing p)
  | announced p, .failed _ _ => some (failing p)
  | playing p _, .failed _ _ => some (failing p)
  | failing p, .report _ q .deliveryUnknown => if q = p then some (unknown p) else none
  | _, _ => none

/-- It is said how a synthesis ended. -/
def Output.closing : Output → Bool
  | .report _ _ .synthesisEnded => true
  | .report _ _ .deliveryUnknown => true
  | _ => false

/-- How often it has been said how it ended. -/
def Stage.closings : Stage → ℕ
  | ended _ | stopped _ | unknown _ => 1
  | _ => 0

theorem closings_le (a : Stage) : a.closings ≤ 1 := by
  cases a <;> simp [Stage.closings]

theorem closings_next (cfg : TtsConfig) (a : Stage) (o : Output) (b : Stage) (h : a.next cfg o = some b) :
    b.closings = a.closings + if o.closing then 1 else 0 := by
  unfold Stage.next at h
  split at h
  all_goals first
    | (obtain rfl := Option.some.inj h; rfl)
    | (split_ifs at h; obtain rfl := Option.some.inj h; rfl)
    | cases h

/-- What a call says itself; the rest is between the service and its client. -/
def Output.saidBy (id : ℕ) : Output → Option Output
  | .began i p => if i = id then some (.began i p) else none
  | .report i p r => if i = id then some (.report i p r) else none
  | .frame i contextId f => if i = id then some (.frame i contextId f) else none
  | .failed i message => if i = id then some (.failed i message) else none
  | .refused i message => if i = id then some (.refused i message) else none
  | _ => none

/-- Where a call stands. -/
def Synthesis.stage (run : Synthesis) : Stage :=
  match run.phase with
  | .connecting | .connected => .unbegun
  | .refused => .refused
  | .appending | .committing => .serving run.party
  | .announcing => .announced run.party
  | .yieldedStarted | .receiving | .yieldedAudio => .playing run.party run.audioBytes
  | .ending | .cutShort => .ended run.party
  | .yieldedStopped | .finished => .stopped run.party
  | .aborting | .untold => .failing run.party
  | .notifying | .told => .unknown run.party

/-- The phases before the first frame. -/
def Phase.early : Phase → Bool
  | .connecting | .appending | .committing | .announcing => true
  | _ => false

/-- Before the first frame no audio has come. -/
def Synthesis.Unplayed (run : Synthesis) : Prop := run.phase.early = true → run.audioBytes = 0

theorem Synthesis.unplayed_of_late {run : Synthesis} (h : run.phase.early = false) : run.Unplayed := fun hearly =>
  absurd (hearly.symm.trans h) (by decide)

namespace LocalTTS

variable {cfg : TtsConfig} {s : LocalTTS}

/-- Where a call stands, of those there have been. -/
def stand (s : LocalTTS) (id : ℕ) : Stage := (s.runs[id]?).elim .unbegun Synthesis.stage

/-- Every call is as far as its phase says. -/
def Unplayed (s : LocalTTS) : Prop := ∀ run ∈ s.runs, run.Unplayed

/-- One call moves on, in order, and the others neither move nor speak. -/
structure Moves (cfg : TtsConfig) (s : LocalTTS) (id : ℕ) (run : Synthesis) (r : LocalTTS × List Output) : Prop where
  follows : ∃ run', r.1.runs = s.runs.set id run' ∧ run'.Unplayed ∧
    Follows (Stage.next cfg) run.stage (r.2.filterMap (Output.saidBy id)) run'.stage
  others : ∀ i ≠ id, r.2.filterMap (Output.saidBy i) = []

theorem abortClient_runs (s : LocalTTS) (client : Option ℕ) : (s.abortClient client).1.runs = s.runs := by
  rw [abortClient]
  split <;> rfl

theorem abortClient_said (s : LocalTTS) (client : Option ℕ) (i : ℕ) :
    (s.abortClient client).2.filterMap (Output.saidBy i) = [] := by
  rw [abortClient]
  split <;> rfl

/-- Nothing is said. -/
theorem moves_silent {id : ℕ} {run run' : Synthesis} {r : LocalTTS × List Output} (hruns : r.1.runs = s.runs.set id run')
    (hunplayed : run'.Unplayed) (hstage : run'.stage = run.stage) (hsaid : ∀ i, r.2.filterMap (Output.saidBy i) = []) :
    Moves cfg s id run r where
  follows := by
    refine ⟨run', hruns, hunplayed, ?_⟩
    rw [hsaid id, hstage]
    exact .refl _
  others := fun i _ => hsaid i

theorem moves_unwind {id : ℕ} {run run' : Synthesis} (message : String)
    (hstage : run.stage.next cfg (.failed id message) = some (.failing run'.party)) :
    Moves cfg s id run (s.unwind id run' message) where
  follows := by
    refine ⟨{ run' with phase := .aborting }, ?_, Synthesis.unplayed_of_late rfl, ?_⟩
    · rw [unwind]
      dsimp only [put]
      rw [abortClient_runs]
    · have hsaid : (s.unwind id run' message).2.filterMap (Output.saidBy id) = [.failed id message] := by
        rw [unwind]
        dsimp only
        rw [List.filterMap_cons, abortClient_said]
        simp [Output.saidBy]
      rw [hsaid]
      exact .single hstage
  others := by
    intro i hne
    rw [unwind]
    dsimp only
    rw [List.filterMap_cons, abortClient_said]
    simp [Output.saidBy, Ne.symm hne]

theorem complete_runs (s : LocalTTS) (id : ℕ) (run : Synthesis) (phase : Phase) :
    (s.complete id run phase).1.runs = s.runs.set id { run with phase } := rfl

/-- The call says one thing. -/
theorem moves_said {id : ℕ} {run run' : Synthesis} {r : LocalTTS × List Output} {o : Output}
    (hruns : r.1.runs = s.runs.set id run') (hunplayed : run'.Unplayed) (hout : r.2 = [o])
    (hown : ∀ i, o.saidBy i = if id = i then some o else none) (hnext : run.stage.next cfg o = some run'.stage) :
    Moves cfg s id run r where
  follows := by
    refine ⟨run', hruns, hunplayed, ?_⟩
    rw [hout, List.filterMap_cons, hown, if_pos rfl]
    exact .single hnext
  others := by
    intro i hne
    rw [hout, List.filterMap_cons, hown, if_neg (Ne.symm hne)]
    rfl

theorem moves_takeClient {id : ℕ} {run : Synthesis} (hstage : run.stage = .unbegun) (hunplayed : run.audioBytes = 0) :
    Moves cfg s id run (s.takeClient id run) := by
  rw [takeClient]
  rcases hcontext : run.contextId with _ | contextId
  · exact moves_silent rfl (fun _ => hunplayed) hstage.symm (fun _ => rfl)
  rcases s.slot.client with _ | c
  all_goals
    dsimp only
    refine ⟨⟨_, rfl, fun _ => hunplayed, ?_⟩, fun i hne => by simp [Output.saidBy, Ne.symm hne]⟩
    rw [hstage]
  · -- no client: it begins, fails at once, and its delivery is unknown
    have hsaid : ∀ p q : Party, ∀ message, [Output.began id p, .failed id message, .report id q .deliveryUnknown].filterMap
        (Output.saidBy id) = [.began id p, .failed id message, .report id q .deliveryUnknown] := by
      intro p q message
      simp [Output.saidBy]
    rw [hsaid]
    exact follows_cons_iff.mpr ⟨_, rfl, follows_cons_iff.mpr ⟨_, rfl, .single (if_pos rfl)⟩⟩
  · have hsaid : ∀ p : Party, [Output.began id p, .acquired id c, .append id run.text].filterMap (Output.saidBy id)
        = [.began id p] := by
      intro p
      simp [Output.saidBy]
    rw [hsaid]
    exact .single rfl

theorem moves_goesOn {id : ℕ} {run : Synthesis} (hunplayed : run.Unplayed) (hself : s.runs.set id run = s.runs) :
    Moves cfg s id run (s.goesOn id run) := by
  have hstays : Moves cfg s id run (s, []) := moves_silent hself.symm hunplayed rfl (fun _ => rfl)
  rw [goesOn]
  rcases hphase : run.phase <;> dsimp only
  case appending =>
    have hzero := hunplayed (by rw [hphase]; rfl)
    exact moves_silent rfl (fun _ => hzero) (by rw [Synthesis.stage, Synthesis.stage, hphase]; rfl) (fun _ => rfl)
  case committing =>
    have hzero := hunplayed (by rw [hphase]; rfl)
    exact moves_said rfl (fun _ => hzero) rfl (fun i => by simp [Output.saidBy])
      (by rw [Synthesis.stage, hphase]; exact if_pos rfl)
  case announcing =>
    have hzero := hunplayed (by rw [hphase]; rfl)
    refine moves_said rfl (fun _ => hzero) rfl (fun i => by simp [Output.saidBy]) ?_
    rw [Synthesis.stage, hphase, Synthesis.stage, hzero]
    exact if_pos rfl
  case ending =>
    exact moves_said rfl (Synthesis.unplayed_of_late rfl) rfl (fun i => by simp [Output.saidBy])
      (by rw [Synthesis.stage, hphase]; exact if_pos rfl)
  case aborting =>
    exact moves_said rfl (Synthesis.unplayed_of_late rfl) rfl (fun i => by simp [Output.saidBy])
      (by rw [Synthesis.stage, hphase]; exact if_pos rfl)
  case yieldedStarted | yieldedAudio | yieldedStopped | notifying =>
    exact moves_silent rfl (Synthesis.unplayed_of_late rfl) (by rw [Synthesis.stage, Synthesis.stage, hphase]; rfl)
      (fun _ => rfl)
  all_goals exact hstays

theorem moves_raises {id : ℕ} {run : Synthesis} (message : String) (hunplayed : run.Unplayed)
    (hself : s.runs.set id run = s.runs) : Moves cfg s id run (s.raises id run message) := by
  have hstays : Moves cfg s id run (s, []) := moves_silent hself.symm hunplayed rfl (fun _ => rfl)
  rw [raises]
  rcases hphase : run.phase <;> dsimp only
  case connecting =>
    refine ⟨⟨{ run with phase := .refused }, ?_, Synthesis.unplayed_of_late rfl, ?_⟩, fun i hne => ?_⟩
    · rw [put, abortClient_runs]
    · rw [List.filterMap_cons, abortClient_said, Synthesis.stage, hphase]
      simp [Output.saidBy, Stage.next, Synthesis.stage, Follows]
    · rw [List.filterMap_cons, abortClient_said]
      simp [Output.saidBy, Ne.symm hne]
  case appending | committing | announcing | yieldedStarted | receiving | yieldedAudio =>
    exact moves_unwind message (by rw [Synthesis.stage, hphase]; rfl)
  case ending | yieldedStopped | aborting | notifying =>
    exact moves_silent rfl (Synthesis.unplayed_of_late rfl) (by rw [Synthesis.stage, Synthesis.stage, hphase]; rfl)
      (fun _ => rfl)
  all_goals exact hstays

theorem moves_hears {id : ℕ} {run : Synthesis} (event : ProviderEvent) (hunplayed : run.Unplayed)
    (hself : s.runs.set id run = s.runs) : Moves cfg s id run (s.hears cfg id run event) := by
  have hstays : Moves cfg s id run (s, []) := moves_silent hself.symm hunplayed rfl (fun _ => rfl)
  rw [hears]
  rcases hphase : run.phase <;> dsimp only
  case receiving =>
    have hplaying : run.stage = .playing run.party run.audioBytes := by rw [Synthesis.stage, hphase]
    have hunwind : ∀ (run' : Synthesis) message, run'.party = run.party →
        Moves cfg s id run (s.unwind id run' message) := fun run' message hparty =>
      moves_unwind message (by rw [hplaying, hparty]; rfl)
    split_ifs with hcount hdelta hdone herror
    · exact hunwind _ _ rfl
    · rcases event.audio with _ | audio
      · exact hunwind _ _ rfl
      · dsimp only
        split_ifs with hbytes
        · exact hunwind _ _ rfl
        · refine moves_said rfl (Synthesis.unplayed_of_late rfl) rfl (fun i => by simp [Output.saidBy]) ?_
          rw [hplaying]
          exact if_pos ⟨rfl, not_lt.mp hbytes⟩
    · exact moves_said rfl (Synthesis.unplayed_of_late rfl) rfl (fun i => by simp [Output.saidBy])
        (by rw [hplaying]; exact if_pos rfl)
    · exact hunwind _ _ rfl
    · exact moves_silent rfl (Synthesis.unplayed_of_late rfl) hplaying.symm (fun _ => rfl)
  all_goals exact hstays

/-! ## Steps and runs -/

/-- Every call keeps to the order. -/
def Ordered (cfg : TtsConfig) (s : LocalTTS) (r : LocalTTS × List Output) : Prop :=
  r.1.Unplayed ∧ ∀ i, Follows (Stage.next cfg) (s.stand i) (r.2.filterMap (Output.saidBy i)) (r.1.stand i)

theorem ordered_of_runs {r : LocalTTS × List Output} (hkept : s.Unplayed) (hruns : r.1.runs = s.runs)
    (hsaid : ∀ i, r.2.filterMap (Output.saidBy i) = []) : Ordered cfg s r := by
  refine ⟨fun run hrun => hkept run (hruns ▸ hrun), fun i => ?_⟩
  rw [hsaid, stand, stand, hruns]
  exact .refl _

theorem Moves.ordered {id : ℕ} {run : Synthesis} {r : LocalTTS × List Output} (h : Moves cfg s id run r)
    (hkept : s.Unplayed) (hrun : s.runs[id]? = some run) : Ordered cfg s r := by
  obtain ⟨run', hruns, hunplayed, hfollows⟩ := h.follows
  have hlt : id < s.runs.length := (List.getElem?_eq_some_iff.mp hrun).1
  refine ⟨fun other hother => ?_, fun i => ?_⟩
  · rw [hruns] at hother
    rcases List.mem_or_eq_of_mem_set hother with hold | rfl
    · exact hkept other hold
    · exact hunplayed
  · rcases eq_or_ne i id with rfl | hne
    · have hnew : r.1.stand i = run'.stage := by rw [stand, hruns, List.getElem?_set_self hlt, Option.elim_some]
      rw [hnew, stand, hrun, Option.elim_some]
      exact hfollows
    · have hsame : r.1.stand i = s.stand i := by rw [stand, hruns, List.getElem?_set_ne (Ne.symm hne), ← stand]
      rw [hsame, h.others i hne]
      exact .refl _

/-- A call that moves on, if there is one. -/
theorem ordered_onRun {id : ℕ} {f : Synthesis → LocalTTS × List Output} (hkept : s.Unplayed)
    (h : ∀ run, run.Unplayed → s.runs.set id run = s.runs → Moves cfg s id run (f run)) :
    Ordered cfg s (s.onRun id f) := by
  rw [onRun]
  rcases hrun : s.runs[id]? with _ | run
  · exact ordered_of_runs hkept rfl fun _ => rfl
  · obtain ⟨hlt, hget⟩ := List.getElem?_eq_some_iff.mp hrun
    have hself : s.runs.set id run = s.runs := by rw [← hget, List.set_getElem_self]
    exact (h run (hkept run (List.mem_of_getElem? hrun)) hself).ordered hkept hrun

/-- A call begins: it is on the list, and has said nothing. -/
theorem ordered_begin (run : Synthesis) {r : LocalTTS × List Output} (hkept : s.Unplayed) (hunplayed : run.Unplayed)
    (hstage : run.stage = .unbegun)
    (h : Moves cfg { s with runs := s.runs ++ [run] } s.runs.length run r) : Ordered cfg s r := by
  have hlisted : ({ s with runs := s.runs ++ [run] } : LocalTTS).Unplayed := by
    intro other hother
    rcases List.mem_append.mp hother with hold | hnew
    · exact hkept other hold
    · rw [List.mem_singleton.mp hnew]
      exact hunplayed
  obtain ⟨hafter, hfollows⟩ := h.ordered hlisted (by rw [List.getElem?_append_right le_rfl, Nat.sub_self]; rfl)
  refine ⟨hafter, fun i => ?_⟩
  have hsame : s.stand i = ({ s with runs := s.runs ++ [run] } : LocalTTS).stand i := by
    rw [stand, stand]
    rcases lt_trichotomy i s.runs.length with hlt | rfl | hgt
    · rw [List.getElem?_append_left hlt]
    · rw [List.getElem?_eq_none le_rfl, List.getElem?_append_right le_rfl, Nat.sub_self]
      exact hstage.symm
    · rw [List.getElem?_eq_none hgt.le, List.getElem?_eq_none]
      rw [List.length_append, List.length_singleton]
      omega
  rw [hsame]
  exact hfollows i

theorem ordered_connect (hkept : s.Unplayed) (contextId : Option String) (text : String) :
    Ordered cfg s (s.connect contextId text) := by
  have hunplayed : ∀ run : Synthesis, run = { contextId, text, phase := .connecting } → run.Unplayed := by
    rintro run rfl _
    rfl
  refine ordered_begin _ hkept (hunplayed _ rfl) rfl ?_
  rw [connect]
  dsimp only
  rcases s.slot.client with _ | c
  · exact moves_silent rfl (fun _ => rfl) rfl fun _ => rfl
  · exact moves_takeClient rfl rfl

theorem ordered_step (cfg : TtsConfig) (hkept : s.Unplayed) (e : Event) : Ordered cfg s (s.step cfg e) := by
  cases e with
  | start | stop | setOnEvent => exact ordered_of_runs hkept rfl fun _ => rfl
  | connect => exact ordered_connect hkept none ""
  | runTts contextId text =>
    rw [step, runTts]
    split_ifs
    · exact ordered_connect hkept _ text
    · let called : Synthesis := { contextId, text, phase := .connecting }
      have hset : s.runs ++ [{ called with phase := .refused }]
          = (s.runs ++ [called]).set s.runs.length { called with phase := .refused } := by
        rw [List.set_append_right _ _ le_rfl, Nat.sub_self]
        rfl
      exact ordered_begin called hkept (fun _ => rfl) rfl
        (moves_said hset (Synthesis.unplayed_of_late rfl) rfl (fun i => by simp [Output.saidBy]) rfl)
  | connects id rate =>
    refine ordered_onRun hkept fun run hunplayed hself => ?_
    rw [connects]
    rcases hphase : run.phase <;> dsimp only
    case connecting =>
      have hmoves : Moves cfg { s with sampleRate := (rate.filter (0 < ·)).getD s.sampleRate } id run _ :=
        moves_takeClient (by rw [Synthesis.stage, hphase]) (hunplayed (by rw [hphase]; rfl))
      exact ⟨hmoves.follows, hmoves.others⟩
    all_goals exact moves_silent hself.symm hunplayed rfl fun _ => rfl
  | goesOn id => exact ordered_onRun hkept fun run => moves_goesOn
  | raises id message => exact ordered_onRun hkept fun run => moves_raises message
  | hears id event => exact ordered_onRun hkept fun run => moves_hears event
  | streamEnds id =>
    refine ordered_onRun hkept fun run hunplayed hself => ?_
    split_ifs with hphase
    · exact moves_unwind _ (by rw [Synthesis.stage, hphase]; rfl)
    · exact moves_silent hself.symm hunplayed rfl fun _ => rfl
  | onAudioContextInterrupted contextId =>
    rw [step]
    split
    · exact ordered_of_runs hkept rfl fun _ => rfl
    · exact ordered_of_runs hkept (abortClient_runs _ _) (abortClient_said _ _)
  | cleanup => exact ordered_of_runs hkept (abortClient_runs s none) (abortClient_said s none)

/-- What a run has a call say. -/
def said (cfg : TtsConfig) (es : List Event) (id : ℕ) : List Output :=
  (outputs (step cfg) {} es).filterMap (Output.saidBy id)

/-- The service after a run. -/
def after (cfg : TtsConfig) (es : List Event) : LocalTTS := run (fun s e => (step cfg s e).1) {} es

/-- **A synthesis speaks in order.**  Whatever runs beside it, is interrupted or raises, what a call of `run_tts` says is
in the order of `Stage.next`: it speaks for the callback it found when it took its client, starts, yields no more audio
than it may, and then says that the synthesis has ended, or else that its delivery is unknown.  It says so at most once;
once, when it is over, unless it never had a client or closing its client raised. -/
theorem synthesis_protocol (cfg : TtsConfig) (es : List Event) (id : ℕ) :
    Follows (Stage.next cfg) .unbegun (said cfg es id) ((after cfg es).stand id) ∧
      (said cfg es id).countP Output.closing ≤ 1 ∧
      ∀ run ∈ (after cfg es).runs[id]?, run.phase ∈ [Phase.finished, .cutShort, .told] →
        (said cfg es id).countP Output.closing = 1 := by
  have hinitial : ({} : LocalTTS).Unplayed := fun run hrun => absurd hrun List.not_mem_nil
  have hfollows : Follows (Stage.next cfg) .unbegun (said cfg es id) ((after cfg es).stand id) :=
    follows_outputs (fun s : LocalTTS => s.stand id) (fun s e hkept =>
      ⟨(ordered_step cfg hkept e).1, (ordered_step cfg hkept e).2 id⟩) hinitial es
  have hcount := hfollows.count Stage.closings Output.closing (closings_next cfg)
  have hunbegun : Stage.unbegun.closings = 0 := rfl
  rw [hunbegun, Nat.zero_add] at hcount
  refine ⟨hfollows, hcount ▸ closings_le _, fun run hrun hover => ?_⟩
  rw [← hcount, stand, hrun, Option.elim_some, Synthesis.stage]
  simp only [List.mem_cons, List.not_mem_nil, or_false] at hover
  rcases hover with hphase | hphase | hphase <;> rw [hphase] <;> rfl

end LocalTTS

end Tts

end SubagentsLab

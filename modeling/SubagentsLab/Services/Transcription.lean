import SubagentsLab.Services.Stt

/-!
# Services/Transcription — what a call of `run_stt` comes to

A call yields one frame at most, and hands its transcript to the callback it found when it began (`Stage.next`).  Where
it fails, its client is closed, and nobody takes that client again.

* `transcription_protocol`: over whole runs of the service, for every call.
* `failed_clients_closed`: over whole runs of the service, for every client.
-/

namespace SubagentsLab

open Machinery

namespace Stt

/-! ## The order of what is said -/

/-- How far a call has got. -/
inductive Stage
  | unbegun
  | transcribing (onFinal : Option ℕ)
  | heard (onFinal : Option ℕ) (text : String)
  | handed (onFinal : ℕ) (text : String)
  | waiting (onFinal : ℕ) (text : String)
  | erred
  | ended
  deriving DecidableEq

/-- **The order of what a call says.**  It yields one frame at most; a transcript is handed over after it has been
yielded, to the callback there was at the beginning, and that is called with it once, if the service has not stopped. -/
def Stage.next : Stage → Output → Option Stage
  | unbegun, .began _ onFinal => some (transcribing onFinal)
  | unbegun, .failed _ _ => some ended
  | transcribing onFinal, .frame _ (.transcription text) => some (heard onFinal text)
  | transcribing _, .frame _ (.error _) => some erred
  | transcribing _, .returned _ => some ended
  | transcribing _, .failed _ _ => some ended
  | heard onFinal text, .handed _ h text' => if onFinal = some h ∧ text' = text then some (handed h text) else none
  | heard onFinal _, .returned _ => if onFinal = none then some ended else none
  | heard _ _, .failed _ _ => some ended
  | handed h text, .returned _ => some (waiting h text)
  | waiting h text, .called _ h' text' => if h' = h ∧ text' = text then some ended else none
  | waiting _ text, .dropped _ text' => if text' = text then some ended else none
  | erred, .returned _ => some ended
  | erred, .failed _ _ => some ended
  | _, _ => none

/-- What a call says itself; the rest is between the service and its client. -/
def Output.saidBy (id : ℕ) : Output → Option Output
  | .began i onFinal => if i = id then some (.began i onFinal) else none
  | .frame i f => if i = id then some (.frame i f) else none
  | .handed i h text => if i = id then some (.handed i h text) else none
  | .called i h text => if i = id then some (.called i h text) else none
  | .dropped i text => if i = id then some (.dropped i text) else none
  | .returned i => if i = id then some (.returned i) else none
  | .failed i message => if i = id then some (.failed i message) else none
  | _ => none

/-- Where a call stands. -/
def Transcription.stage (run : Transcription) : Stage :=
  match run.phase, run.onFinal with
  | .connecting, onFinal | .sending, onFinal | .committing, onFinal | .listening, onFinal | .aborting _, onFinal =>
    .transcribing onFinal
  | .yieldedTranscription text, onFinal => .heard onFinal text
  | .yieldedError, _ => .erred
  | .finished (some text), some h => .waiting h text
  | .finished _, _ | .gaveUp, _ | .unwinding, _ | .failed, _ => .ended

/-- The call has failed, or an error has come. -/
def Phase.lost : Phase → Bool
  | .aborting _ | .yieldedError | .unwinding | .gaveUp | .failed => true
  | _ => false

/-- What an output says of a client. -/
def Output.onClient (c : ℕ) : Output → Option ClientLabel
  | .created d => if d = c then some .created else none
  | .acquired _ d => if d = c then some .acquired else none
  | .closed d => if d = c then some .closed else none
  | _ => none

namespace LocalSTT

variable {s s' : LocalSTT} {os : List Output} {id : ℕ} {run run' : Transcription}

/-- Where a call stands, of those there have been. -/
def stand (s : LocalSTT) (id : ℕ) : Stage := (s.runs[id]?).elim .unbegun Transcription.stage

/-- The clients of the calls have been made, and one that has failed a call is not kept. -/
structure Kept (s : LocalSTT) : Prop where
  made : ∀ run ∈ s.runs, ∀ c ∈ run.client, c < s.slot.nextClient
  lost : ∀ run ∈ s.runs, run.phase.lost = true → ∀ c ∈ run.client, s.slot.client ≠ some c

/-- A step keeps that, has each call say what it may say, and does with each client what may be done with it. -/
structure Orderly (s : LocalSTT) (r : LocalSTT × List Output) : Prop where
  kept : r.1.Kept
  speaks : ∀ i, Follows Stage.next (s.stand i) (r.2.filterMap (Output.saidBy i)) (r.1.stand i)
  follows : ∀ c, Follows ClientStage.next (s.slot.stage c) (r.2.filterMap (Output.onClient c)) (r.1.slot.stage c)

theorem stand_put (hrun : s.runs[id]? = some run) (i : ℕ) :
    (s.put id run').stand i = if i = id then run'.stage else s.stand i := by
  have hlt : id < s.runs.length := (List.getElem?_eq_some_iff.mp hrun).1
  rw [stand, put]
  split_ifs with heq
  · rw [heq, List.getElem?_set_self hlt, Option.elim_some]
  · rw [List.getElem?_set_ne (Ne.symm heq), ← stand]

theorem stand_of_get (hrun : s.runs[id]? = some run) : s.stand id = run.stage := by
  rw [stand, hrun, Option.elim_some]

/-- Nothing happens. -/
theorem orderly_idle (h : s.Kept) : Orderly s (s, []) := ⟨h, fun _ => .refl _, fun _ => .refl _⟩

/-- Nothing of the calls and of the clients changes. -/
theorem orderly_of_eq (h : s.Kept) (hslot : s'.slot = s.slot) (hruns : s'.runs = s.runs) : Orderly s (s', []) where
  kept := ⟨by rw [hruns, hslot]; exact h.made, by rw [hruns, hslot]; exact h.lost⟩
  speaks := fun i => by
    have hsame : s'.stand i = s.stand i := by rw [stand, stand, hruns]
    rw [hsame]
    exact .refl _
  follows := fun c => by
    rw [hslot]
    exact .refl _

/-- A call moves on with the client it has. -/
theorem Kept.put (h : s.Kept) (id : ℕ) (hmade : ∀ c ∈ run'.client, c < s.slot.nextClient)
    (hlost : run'.phase.lost = true → ∀ c ∈ run'.client, s.slot.client ≠ some c) : (s.put id run').Kept where
  made := fun other hother => by
    rcases List.mem_or_eq_of_mem_set hother with hold | rfl
    · exact h.made other hold
    · exact hmade
  lost := fun other hother => by
    rcases List.mem_or_eq_of_mem_set hother with hold | rfl
    · exact h.lost other hold
    · exact hlost

/-- **One call moves on**, and says what it may; the clients are left alone. -/
theorem orderly_put (h : s.Kept) (hrun : s.runs[id]? = some run) (hclient : run'.client = run.client)
    (hlost : run'.phase.lost = true → run.phase.lost = true)
    (hsaid : Follows Stage.next run.stage (os.filterMap (Output.saidBy id)) run'.stage)
    (hothers : ∀ i ≠ id, os.filterMap (Output.saidBy i) = [])
    (hsilent : ∀ c, os.filterMap (Output.onClient c) = []) : Orderly s (s.put id run', os) where
  kept := by
    have hmem := List.mem_of_getElem? hrun
    refine h.put id ?_ fun hphase => ?_
    · rw [hclient]
      exact h.made run hmem
    · rw [hclient]
      exact h.lost run hmem (hlost hphase)
  speaks := fun i => by
    rw [stand_put hrun]
    split_ifs with heq
    · rw [heq, stand_of_get hrun]
      exact hsaid
    · rw [hothers i heq]
      exact .refl _
  follows := fun c => by
    rw [hsilent c]
    exact .refl _

/-- **A client is forgotten before it is closed.** -/
theorem follows_abortClient {client : Option ℕ} (hmade : ∀ c ∈ client, c < s.slot.nextClient) (c : ℕ) :
    Follows ClientStage.next (s.slot.stage c) ((s.abortClient client).2.filterMap (Output.onClient c))
      ((s.abortClient client).1.slot.stage c) := by
  rw [abortClient]
  rcases hd : client.or s.slot.client with _ | d
  · exact .refl _
  have hlt : d < s.slot.nextClient := by
    rcases client with _ | e
    · exact s.slot.made d hd
    · exact hmade d hd
  rcases eq_or_ne c d with rfl | hne
  · rw [ClientSlot.stage_drop_self hlt, List.filterMap_cons, Output.onClient, if_pos rfl]
    exact .single (ClientSlot.closed_of_made hlt)
  · rw [ClientSlot.stage_drop_of_ne hne, List.filterMap_cons, Output.onClient, if_neg (Ne.symm hne)]
    exact .refl _

theorem abortClient_runs (s : LocalSTT) (client : Option ℕ) : (s.abortClient client).1.runs = s.runs := by
  rw [abortClient]
  split <;> rfl

theorem abortClient_nextClient (s : LocalSTT) (client : Option ℕ) :
    (s.abortClient client).1.slot.nextClient = s.slot.nextClient := by
  rw [abortClient]
  split <;> rfl

theorem abortClient_said (s : LocalSTT) (client : Option ℕ) (i : ℕ) :
    (s.abortClient client).2.filterMap (Output.saidBy i) = [] := by
  rw [abortClient]
  split <;> rfl

/-- Who is kept afterwards was kept before, and is not the client that is aborted. -/
theorem client_abortClient {client : Option ℕ} {c : ℕ} (h : (s.abortClient client).1.slot.client = some c) :
    s.slot.client = some c ∧ client ≠ some c := by
  rw [abortClient] at h
  rcases client with _ | d
  · rcases hslot : s.slot.client with _ | e
    · simp [hslot] at h
    · simp [hslot, ClientSlot.client_drop] at h
      exact absurd h.1.symm h.2
  · obtain ⟨hold, hne⟩ := ClientSlot.client_drop.mp h
    exact ⟨hold, fun heq => hne (Option.some.inj heq).symm⟩

theorem Kept.abortClient (h : s.Kept) (client : Option ℕ) : (s.abortClient client).1.Kept where
  made := by
    rw [abortClient_runs, abortClient_nextClient]
    exact h.made
  lost := by
    rw [abortClient_runs]
    intro run hrun hphase c hc hkept
    exact h.lost run hrun hphase c hc (client_abortClient hkept).1

/-- **A call that fails is rid of its client.** -/
theorem orderly_leave (h : s.Kept) (hrun : s.runs[id]? = some run) {phase : Phase} (os : List Output)
    (hsaid : Follows Stage.next run.stage (os.filterMap (Output.saidBy id)) ({ run with phase } : Transcription).stage)
    (hothers : ∀ i ≠ id, os.filterMap (Output.saidBy i) = [])
    (hsilent : ∀ c, os.filterMap (Output.onClient c) = []) :
    Orderly s ((s.leave id run phase).1, os ++ (s.leave id run phase).2) where
  kept := by
    have hmade := h.made run (List.mem_of_getElem? hrun)
    refine (h.abortClient run.client).put id ?_ fun _ c hc hkept => ?_
    · rw [abortClient_nextClient]
      exact hmade
    · exact (client_abortClient hkept).2 hc
  speaks := fun i => by
    have hget : (s.abortClient run.client).1.runs[id]? = some run := by
      rw [abortClient_runs]
      exact hrun
    have hsame : (s.abortClient run.client).1.stand i = s.stand i := by rw [stand, stand, abortClient_runs]
    rw [leave]
    dsimp only
    rw [stand_put hget, List.filterMap_append, abortClient_said, List.append_nil, hsame]
    split_ifs with heq
    · rw [heq, stand_of_get hrun]
      exact hsaid
    · rw [hothers i heq]
      exact .refl _
  follows := fun c => by
    rw [leave]
    dsimp only
    rw [List.filterMap_append, hsilent c, List.nil_append]
    exact follows_abortClient (h.made run (List.mem_of_getElem? hrun)) c

theorem orderly_unwind (h : s.Kept) (hrun : s.runs[id]? = some run) (message : String)
    (hnext : run.stage.next (.failed id message) = some .ended) : Orderly s (s.unwind id run message) := by
  refine orderly_leave h hrun [.failed id message] ?_ (fun i hne => ?_) fun _ => rfl
  · rw [List.filterMap_cons, Output.saidBy, if_pos rfl]
    exact .single hnext
  · rw [List.filterMap_cons, Output.saidBy, if_neg (Ne.symm hne)]
    rfl

theorem orderly_quit (h : s.Kept) (hrun : s.runs[id]? = some run) (error : String)
    (hphase : run.phase = .listening) : Orderly s (s.leave id run (.aborting error)) := by
  refine orderly_leave h hrun [] ?_ (fun _ _ => rfl) fun _ => rfl
  rw [Transcription.stage, Transcription.stage, hphase]
  exact .refl _

/-! ## Steps and runs -/

theorem orderly_goesOn (h : s.Kept) (hrun : s.runs[id]? = some run) : Orderly s (s.goesOn id run) := by
  rw [goesOn]
  rcases hphase : run.phase with _ | _ | _ | _ | text | error | _ | _ | final | _ | _ <;> dsimp only
  case connecting | sending | committing =>
    refine orderly_put h hrun rfl (fun hlost => absurd hlost (by simp [Phase.lost])) ?_ (fun _ _ => rfl) fun _ => rfl
    rw [Transcription.stage, Transcription.stage, hphase]
    exact .refl _
  case unwinding =>
    refine orderly_put h hrun rfl (fun _ => by rw [hphase]; rfl) ?_ (fun _ _ => rfl) fun _ => rfl
    rw [Transcription.stage, Transcription.stage, hphase]
    exact .refl _
  case yieldedTranscription =>
    rcases hfinal : run.onFinal with _ | n <;> dsimp only
    · refine orderly_put h hrun rfl (fun hlost => absurd hlost (by simp [Phase.lost])) ?_ (fun i hne => ?_) fun _ => rfl
      · rw [Transcription.stage, Transcription.stage, hphase, hfinal]
        simp [Output.saidBy, Stage.next, Follows]
      · simp [Output.saidBy, Ne.symm hne]
    · refine orderly_put h hrun rfl (fun hlost => absurd hlost (by simp [Phase.lost])) ?_ (fun i hne => ?_) fun _ => rfl
      · rw [Transcription.stage, Transcription.stage, hphase, hfinal]
        simp [Output.saidBy, Stage.next, Follows]
      · simp [Output.saidBy, Ne.symm hne]
  case aborting | yieldedError =>
    refine orderly_put h hrun rfl (fun _ => by rw [hphase]; rfl) ?_ (fun i hne => ?_) fun _ => rfl
    · rw [Transcription.stage, Transcription.stage, hphase]
      simp [Output.saidBy, Stage.next, Follows]
    · simp [Output.saidBy, Ne.symm hne]
  all_goals exact orderly_idle h

theorem orderly_raises (h : s.Kept) (hrun : s.runs[id]? = some run) (message : String) :
    Orderly s (s.raises id run message) := by
  rw [raises]
  rcases hphase : run.phase with _ | _ | _ | _ | text | error | _ | _ | final | _ | _ <;> dsimp only
  case unwinding =>
    refine orderly_put h hrun rfl (fun _ => by rw [hphase]; rfl) ?_ (fun _ _ => rfl) fun _ => rfl
    rw [Transcription.stage, Transcription.stage, hphase]
    exact .refl _
  case finished | gaveUp | failed => exact orderly_idle h
  all_goals exact orderly_unwind h hrun message (by rw [Transcription.stage, hphase]; rfl)

theorem orderly_hears (h : s.Kept) (hrun : s.runs[id]? = some run) (event : ProviderEvent) :
    Orderly s (s.hears id run event) := by
  rw [hears]
  split
  · rename_i hphase
    split_ifs
    · refine orderly_put h hrun rfl (fun hlost => absurd hlost (by simp [Phase.lost])) ?_ (fun i hne => ?_) fun _ => rfl
      · rw [Transcription.stage, Transcription.stage, hphase]
        simp [Output.saidBy, Stage.next, Follows]
      · simp [Output.saidBy, Ne.symm hne]
    · refine orderly_put h hrun rfl (fun hlost => absurd hlost (by simp [Phase.lost])) ?_ (fun i hne => ?_) fun _ => rfl
      · rw [Transcription.stage, Transcription.stage, hphase]
        simp [Output.saidBy, Stage.next, Follows]
      · simp [Output.saidBy, Ne.symm hne]
    · exact orderly_quit h hrun _ hphase
    · exact orderly_idle h
  · exact orderly_idle h

theorem orderly_runFinal (h : s.Kept) (hrun : s.runs[id]? = some run) : Orderly s (s.runFinal id run) := by
  rw [runFinal]
  split
  · rename_i text n hphase hfinal
    refine orderly_put h hrun rfl (fun hlost => absurd hlost (by simp [Phase.lost])) ?_ (fun i hne => ?_) fun c => ?_
    · rw [Transcription.stage, Transcription.stage, hphase, hfinal]
      rcases s.started <;> simp [Output.saidBy, Stage.next, Follows]
    · rcases s.started <;> simp [Output.saidBy, Ne.symm hne]
    · rcases s.started <;> rfl
  · exact orderly_idle h

/-- A call that moves on, if there is one. -/
theorem orderly_onRun (h : s.Kept) {f : Transcription → LocalSTT × List Output}
    (hf : ∀ run, s.runs[id]? = some run → Orderly s (f run)) : Orderly s (s.onRun id f) := by
  rw [onRun]
  split
  · rename_i run hrun
    exact hf run hrun
  · exact orderly_idle h

/-- A call that begins is put at the end of the list, and the others stand where they stood. -/
theorem stand_append (s : LocalSTT) (slot : ClientSlot) (run : Transcription) (i : ℕ) :
    ({ s with slot, runs := s.runs ++ [run] } : LocalSTT).stand i
      = if i = s.runs.length then run.stage else s.stand i := by
  rw [stand, stand]
  dsimp only
  split_ifs with heq
  · rw [heq, List.getElem?_append_right (Nat.le_refl _), Nat.sub_self]
    rfl
  · rcases Nat.lt_or_gt_of_ne heq with hlt | hgt
    · rw [List.getElem?_append_left hlt]
    · rw [List.getElem?_eq_none (Nat.le_of_lt hgt), List.getElem?_eq_none]
      rw [List.length_append, List.length_singleton]
      omega

theorem stand_length (s : LocalSTT) : s.stand s.runs.length = .unbegun := by
  rw [stand, List.getElem?_eq_none (Nat.le_refl _)]
  rfl

/-- **A call begins**, with the client that is kept, with a new one, or with none. -/
theorem orderly_begin (h : s.Kept) {slot : ClientSlot} (run : Transcription)
    (hmade : ∀ c ∈ run.client, c < slot.nextClient) (hgrows : s.slot.nextClient ≤ slot.nextClient)
    (hkept : ∀ c, slot.client = some c → s.slot.client = some c ∨ c = s.slot.nextClient)
    (hlost : run.phase.lost = true → run.client = none)
    (hsaid : Follows Stage.next .unbegun (os.filterMap (Output.saidBy s.runs.length)) run.stage)
    (hothers : ∀ i ≠ s.runs.length, os.filterMap (Output.saidBy i) = [])
    (hfollows : ∀ c, Follows ClientStage.next (s.slot.stage c) (os.filterMap (Output.onClient c)) (slot.stage c)) :
    Orderly s ({ s with slot, runs := s.runs ++ [run] }, os) where
  kept := by
    refine ⟨fun other hother => ?_, fun other hother hphase c hc hclient => ?_⟩
    · rcases List.mem_append.mp hother with hold | hnew
      · exact fun c hc => Nat.lt_of_lt_of_le (h.made other hold c hc) hgrows
      · rw [List.mem_singleton.mp hnew]
        exact hmade
    · rcases List.mem_append.mp hother with hold | hnew
      · rcases hkept c hclient with hsame | rfl
        · exact h.lost other hold hphase c hc hsame
        · exact absurd (h.made other hold _ hc) (Nat.lt_irrefl _)
      · rw [List.mem_singleton.mp hnew] at hphase hc
        rw [hlost hphase] at hc
        cases hc
  speaks := fun i => by
    rw [stand_append]
    split_ifs with heq
    · rw [heq, stand_length]
      exact hsaid
    · rw [hothers i heq]
      exact .refl _
  follows := hfollows

theorem orderly_runStt (h : s.Kept) (audio : List UInt8) (refusal : Option String) :
    Orderly s (s.runStt audio refusal) := by
  unfold runStt
  dsimp only
  split
  · split
    · rename_i c hc
      refine orderly_begin h _ ?_ (Nat.le_refl _) (fun d hd => .inl hd)
        (fun hlost => absurd hlost (by simp [Phase.lost])) ?_
        (fun i hne => by simp [List.filterMap_cons, Output.saidBy, Ne.symm hne]) fun d => ?_
      · rintro d ⟨⟩
        exact s.slot.made c hc
      · simp [List.filterMap_cons, Output.saidBy, Stage.next, Follows, Transcription.stage]
      · rcases eq_or_ne c d with rfl | hne
        · rw [ClientSlot.stage_of_client hc]
          simp [List.filterMap_cons, Output.onClient, ClientStage.next, Follows]
        · simp [List.filterMap_cons, Output.onClient, hne, Follows]
    · refine orderly_begin h _ (by rintro d ⟨⟩) (Nat.le_refl _) (fun d hd => .inl hd) (fun _ => rfl) ?_
        (fun i hne => by simp [Output.saidBy, Ne.symm hne]) fun d => .refl _
      simp [Output.saidBy, Stage.next, Follows, Transcription.stage]
    · rename_i hnone
      refine orderly_begin h _ ?_ (Nat.le_succ _) (fun d hd => .inr (Option.some.inj hd).symm)
        (fun hlost => absurd hlost (by simp [Phase.lost])) ?_
        (fun i hne => by simp [List.filterMap_cons, Output.saidBy, Ne.symm hne]) fun d => ?_
      · rintro d ⟨⟩
        exact Nat.lt_succ_self _
      · simp [List.filterMap_cons, Output.saidBy, Stage.next, Follows, Transcription.stage]
      · rcases eq_or_ne d s.slot.nextClient with rfl | hne
        · rw [ClientSlot.stage_create_self, ClientSlot.stage_nextClient]
          simp [List.filterMap_cons, Output.onClient, ClientStage.next, Follows]
        · rw [ClientSlot.stage_create_of_ne hnone hne]
          simp [List.filterMap_cons, Output.onClient, Ne.symm hne, Follows]
  · refine orderly_begin h _ (by rintro d ⟨⟩) (Nat.le_refl _) (fun d hd => .inl hd) (fun _ => rfl) ?_
      (fun i hne => by simp [Output.saidBy, Ne.symm hne]) fun d => .refl _
    simp [Output.saidBy, Stage.next, Follows, Transcription.stage]

theorem orderly_step (h : s.Kept) (e : Event) : Orderly s (s.step e) := by
  cases e with
  | start | stop | setOnFinal => exact orderly_of_eq h rfl rfl
  | runStt audio refusal => exact orderly_runStt h audio refusal
  | goesOn id => exact orderly_onRun h fun run hrun => orderly_goesOn h hrun
  | raises id message => exact orderly_onRun h fun run hrun => orderly_raises h hrun message
  | hears id event => exact orderly_onRun h fun run hrun => orderly_hears h hrun event
  | streamEnds id =>
    refine orderly_onRun h fun run hrun => ?_
    rw [streamEnds]
    split
    · rename_i hphase
      exact orderly_quit h hrun _ hphase
    · exact orderly_idle h
  | runFinal id => exact orderly_onRun h fun run hrun => orderly_runFinal h hrun
  | cleanup =>
    refine ⟨h.abortClient none, fun i => ?_, follows_abortClient (by rintro c ⟨⟩)⟩
    have hsame : (s.abortClient none).1.stand i = s.stand i := by rw [stand, stand, abortClient_runs]
    rw [step, abortClient_said, hsame]
    exact .refl _

/-- A service before its first call. -/
theorem kept_start : ({} : LocalSTT).Kept :=
  ⟨fun _ hrun => absurd hrun List.not_mem_nil, fun _ hrun => absurd hrun List.not_mem_nil⟩

/-- The service after a run. -/
def after (es : List Event) : LocalSTT := Machinery.run (fun s e => (step s e).1) {} es

/-- What has happened in a run. -/
def history (es : List Event) : List Output := outputs step {} es

/-- **A call of `run_stt` speaks in order.**  Whatever runs beside it, fails or is closed: it yields one frame at most,
and hands over the transcript it has yielded, that one, once, to the callback there was when it began; the callback is
called with it once, or not at all if the service has stopped by then. -/
theorem transcription_protocol (es : List Event) (id : ℕ) :
    Follows Stage.next .unbegun ((history es).filterMap (Output.saidBy id)) ((after es).stand id) :=
  follows_outputs (fun s : LocalSTT => s.stand id) (fun _ e h => ⟨(orderly_step h e).kept, (orderly_step h e).speaks id⟩)
    kept_start es

/-- **A client that has failed a call is not used again.**  A client is made once and taken by a call only before it is
closed, and a client of a call that has failed, or has been told of an error, is closed. -/
theorem failed_clients_closed (es : List Event) :
    (∀ c, Follows ClientStage.next .unmade ((history es).filterMap (Output.onClient c)) ((after es).slot.stage c)) ∧
      ∀ run ∈ (after es).runs, run.phase.lost = true → ∀ c ∈ run.client, (after es).slot.stage c = .closed := by
  have hstep : ∀ (s : LocalSTT) (e : Event), s.Kept → (step s e).1.Kept := fun s e h => (orderly_step h e).kept
  have hfinal : (after es).Kept := run_invariant_of_step hstep kept_start es
  refine ⟨fun c => ?_, fun run hrun hphase c hc => ?_⟩
  · exact follows_outputs (fun s : LocalSTT => s.slot.stage c)
      (fun _ e h => ⟨(orderly_step h e).kept, (orderly_step h e).follows c⟩) kept_start es
  · rw [ClientSlot.stage, if_neg (hfinal.lost run hrun hphase c hc), if_pos (hfinal.made run hrun c hc)]

end LocalSTT

end Stt

end SubagentsLab

import SubagentsLab.Services.Synthesis

/-!
# Services/Fencing — an aborted client is never taken again

A service keeps one client at a time, and every context that is registered runs on that one (`Kept`).  Aborting it —
because a synthesis has failed, was interrupted, or the service is cleaned up — forgets it before it is closed, so that
whoever comes next makes another.

* `clients_fenced`: over whole runs of the service, for every client.
-/

namespace SubagentsLab

open Machinery

namespace Tts

/-- What an output says of a client. -/
def Output.onClient (c : ℕ) : Output → Option ClientLabel
  | .created d => if d = c then some .created else none
  | .acquired _ d => if d = c then some .acquired else none
  | .closed d => if d = c then some .closed else none
  | _ => none

namespace LocalTTS

variable {cfg : TtsConfig} {s s' : LocalTTS} {os : List Output}

/-- The registered contexts run on the client that is kept; the clients of the calls have been made. -/
structure Kept (s : LocalTTS) : Prop where
  current : ∀ contextId c, s.contextClients.get? contextId = some c → s.slot.client = some c
  made : ∀ run ∈ s.runs, ∀ c ∈ run.client, c < s.slot.nextClient

/-- A step keeps that, and does with each client what may be done with it. -/
structure Fenced (s : LocalTTS) (r : LocalTTS × List Output) : Prop where
  kept : r.1.Kept
  follows : ∀ c, Follows ClientStage.next (s.slot.stage c) (r.2.filterMap (Output.onClient c)) (r.1.slot.stage c)

theorem Fenced.trans {r : LocalTTS × List Output} (h : Fenced s (s', os)) (h' : Fenced s' r) :
    Fenced s (r.1, os ++ r.2) where
  kept := h'.kept
  follows := fun c => by
    rw [List.filterMap_append]
    exact (h.follows c).append (h'.follows c)

/-- No client is concerned. -/
theorem fenced_of_slot (hkept : s'.Kept) (hslot : s'.slot = s.slot)
    (hsilent : ∀ c, os.filterMap (Output.onClient c) = []) : Fenced s (s', os) where
  kept := hkept
  follows := fun c => by
    rw [hsilent, hslot]
    exact .refl _

theorem Kept.pop (h : s.Kept) (contextId : String) :
    Kept { s with contextClients := s.contextClients.pop contextId } where
  current := fun other c hget => by
    rw [Dict.get?_pop] at hget
    split_ifs at hget
    exact h.current other c hget
  made := h.made

/-- A call moves on with a client that has been made. -/
theorem Kept.put (h : s.Kept) (id : ℕ) {run : Synthesis} (hrun : ∀ c ∈ run.client, c < s.slot.nextClient) :
    (s.put id run).Kept where
  current := h.current
  made := fun other hother => by
    rcases List.mem_or_eq_of_mem_set hother with hold | rfl
    · exact h.made other hold
    · exact hrun

/-- **A client is forgotten before it is closed**, with the contexts that run on it. -/
theorem fenced_abortClient (h : s.Kept) {client : Option ℕ} (hclient : ∀ c ∈ client, c < s.slot.nextClient) :
    Fenced s (s.abortClient client) := by
  rw [abortClient]
  rcases hc : client.or s.slot.client with _ | c
  · exact fenced_of_slot h rfl fun _ => rfl
  have hmade : c < s.slot.nextClient := by
    rcases client with _ | d
    · exact s.slot.made c hc
    · exact hclient c hc
  refine ⟨⟨fun contextId d hget => ?_, h.made⟩, fun d => ?_⟩
  · rw [Dict.get?_filter, Option.filter_eq_some_iff] at hget
    exact ClientSlot.client_drop.mpr ⟨h.current contextId d hget.1, by simpa using hget.2⟩
  · rcases eq_or_ne d c with rfl | hne
    · rw [ClientSlot.stage_drop_self hmade, List.filterMap_cons, Output.onClient, if_pos rfl]
      exact .single (ClientSlot.closed_of_made hmade)
    · rw [ClientSlot.stage_drop_of_ne hne, List.filterMap_cons, Output.onClient, if_neg (Ne.symm hne)]
      exact .refl _

/-- A call that is put on the list after a step. -/
theorem Fenced.put {r : LocalTTS × List Output} (h : Fenced s r) (id : ℕ) (run : Synthesis)
    (hrun : ∀ c ∈ run.client, c < r.1.slot.nextClient) : Fenced s (r.1.put id run, r.2) where
  kept := h.kept.put id hrun
  follows := h.follows

theorem abortClient_nextClient (s : LocalTTS) (client : Option ℕ) :
    (s.abortClient client).1.slot.nextClient = s.slot.nextClient := by
  rw [abortClient]
  split <;> rfl

/-- The registration of a context may go. -/
theorem Kept.popIf (h : s.Kept) (p : Prop) [Decidable p] (contextId : String) :
    Kept { s with contextClients := if p then s.contextClients.pop contextId else s.contextClients } := by
  split_ifs
  · exact h.pop contextId
  · exact h

theorem fenced_unwind (h : s.Kept) (id : ℕ) {run : Synthesis} (hrun : ∀ c ∈ run.client, c < s.slot.nextClient)
    (message : String) : Fenced s (s.unwind id run message) := by
  have haborted := fenced_abortClient
    (h.popIf (s.contextClients.get? (run.contextId.getD "") = run.client) (run.contextId.getD "")) hrun
  have hput := haborted.put id { run with phase := .aborting } (by rw [abortClient_nextClient]; exact hrun)
  exact ⟨hput.kept, hput.follows⟩

theorem fenced_complete (h : s.Kept) (id : ℕ) {run : Synthesis} (hrun : ∀ c ∈ run.client, c < s.slot.nextClient)
    (phase : Phase) : Fenced s (s.complete id run phase) :=
  fenced_of_slot ((h.popIf _ (run.contextId.getD "")).put id hrun) rfl fun _ => rfl

/-- What says nothing of a client. -/
theorem fenced_said (h : s.Kept) (id : ℕ) {run : Synthesis} (hrun : ∀ c ∈ run.client, c < s.slot.nextClient)
    (hsilent : ∀ c, os.filterMap (Output.onClient c) = []) : Fenced s (s.put id run, os) :=
  fenced_of_slot (h.put id hrun) rfl hsilent

/-- **Whoever takes a client takes the one that is kept.** -/
theorem fenced_takeClient (h : s.Kept) (id : ℕ) {run : Synthesis} (hrun : ∀ c ∈ run.client, c < s.slot.nextClient) :
    Fenced s (s.takeClient id run) := by
  rw [takeClient]
  rcases run.contextId with _ | contextId
  · exact fenced_said h id hrun fun _ => rfl
  dsimp only
  split
  · rename_i c hc
    have hcurrent : Kept { s with contextClients := s.contextClients.set contextId c } := by
      refine ⟨fun other d hget => ?_, h.made⟩
      rw [Dict.get?_set] at hget
      split_ifs at hget
      · exact hget ▸ hc
      · exact h.current other d hget
    refine ⟨hcurrent.put id s.slot.made, fun d => ?_⟩
    rcases eq_or_ne c d with rfl | hne
    · have hsaid : ∀ p : Party, [Output.began id p, .acquired id c, .append id run.text].filterMap (Output.onClient c)
          = [.acquired] := by
        intro p
        simp [List.filterMap_cons, Output.onClient]
      rw [hsaid]
      change Follows _ (s.slot.stage c) _ (s.slot.stage c)
      rw [ClientSlot.stage_of_client hc]
      exact .single rfl
    · have hsaid : ∀ p : Party, [Output.began id p, .acquired id c, .append id run.text].filterMap (Output.onClient d)
          = [] := by
        intro p
        simp [List.filterMap_cons, Output.onClient, hne]
      rw [hsaid]
      exact .refl _
  · exact fenced_of_slot ((h.pop contextId).put id s.slot.made) rfl fun _ => rfl

/-- A call that is put on the list has no client yet. -/
theorem Kept.begin (h : s.Kept) {run : Synthesis} (hrun : run.client = none) :
    Kept { s with runs := s.runs ++ [run] } where
  current := h.current
  made := fun other hother => by
    rcases List.mem_append.mp hother with hold | hnew
    · exact h.made other hold
    · rw [List.mem_singleton.mp hnew, hrun]
      rintro c ⟨⟩

/-- **A client is made when none is kept.** -/
theorem fenced_create (h : s.Kept) (hnone : s.slot.client = none) (id : ℕ) (run : Synthesis) :
    Fenced s ({ s with slot := s.slot.create }.put id { run with client := some s.slot.nextClient },
      [.created s.slot.nextClient]) where
  kept := by
    have hcreated : Kept { s with slot := s.slot.create } := by
      refine ⟨fun contextId c hget => ?_, fun run hrun c hc => (h.made run hrun c hc).trans (Nat.lt_succ_self _)⟩
      have hc := h.current contextId c hget
      rw [hnone] at hc
      cases hc
    exact hcreated.put id s.slot.create.made
  follows := fun c => by
    change Follows _ (s.slot.stage c) _ (s.slot.create.stage c)
    rcases eq_or_ne c s.slot.nextClient with rfl | hne
    · rw [ClientSlot.stage_create_self, ClientSlot.stage_nextClient, List.filterMap_cons, Output.onClient, if_pos rfl]
      exact .single rfl
    · rw [ClientSlot.stage_create_of_ne hnone hne, List.filterMap_cons, Output.onClient, if_neg (Ne.symm hne)]
      exact .refl _

theorem fenced_connect (h : s.Kept) (contextId : Option String) (text : String) :
    Fenced s (s.connect contextId text) := by
  have hbegun : Kept { s with runs := s.runs ++ [{ contextId, text, phase := .connecting }] } := h.begin rfl
  rw [connect]
  dsimp only
  split
  · have htaken := fenced_takeClient hbegun s.runs.length (hbegun.made _ (List.mem_append_right _ List.mem_cons_self))
    exact ⟨htaken.kept, htaken.follows⟩
  · rename_i hnone
    have hcreated := fenced_create hbegun hnone s.runs.length { contextId, text, phase := .connecting }
    exact ⟨hcreated.kept, hcreated.follows⟩

/-! ## Steps and runs -/

theorem fenced_goesOn (h : s.Kept) (id : ℕ) {run : Synthesis} (hrun : ∀ c ∈ run.client, c < s.slot.nextClient) :
    Fenced s (s.goesOn id run) := by
  rw [goesOn]
  rcases run.phase <;> dsimp only
  case yieldedStopped => exact fenced_complete h id hrun .finished
  case connecting | receiving | connected | refused | finished | cutShort | told | untold =>
    exact fenced_of_slot h rfl fun _ => rfl
  all_goals exact fenced_said h id hrun fun _ => rfl

theorem fenced_raises (h : s.Kept) (id : ℕ) {run : Synthesis} (hrun : ∀ c ∈ run.client, c < s.slot.nextClient)
    (message : String) : Fenced s (s.raises id run message) := by
  rw [raises]
  rcases run.phase <;> dsimp only
  case connecting =>
    have hput := (fenced_abortClient h hrun).put id { run with phase := .refused }
      (by rw [abortClient_nextClient]; exact hrun)
    exact ⟨hput.kept, hput.follows⟩
  case appending | committing | announcing | yieldedStarted | receiving | yieldedAudio =>
    exact fenced_unwind h id hrun message
  case ending => exact fenced_complete h id hrun .cutShort
  case yieldedStopped => exact fenced_complete h id hrun .finished
  case aborting | notifying => exact fenced_said h id hrun fun _ => rfl
  all_goals exact fenced_of_slot h rfl fun _ => rfl

theorem fenced_hears (h : s.Kept) (id : ℕ) {run : Synthesis} (hrun : ∀ c ∈ run.client, c < s.slot.nextClient)
    (event : ProviderEvent) : Fenced s (s.hears cfg id run event) := by
  -- neither the counts nor the phase matter here
  have hunwind : ∀ (run' : Synthesis) message, run'.client = run.client → Fenced s (s.unwind id run' message) :=
    fun run' message hclient => fenced_unwind h id (by rwa [hclient]) message
  have hsaid : ∀ (run' : Synthesis) (os : List Output), (∀ c, os.filterMap (Output.onClient c) = []) →
      run'.client = run.client → Fenced s (s.put id run', os) :=
    fun run' os hsilent hclient => fenced_said h id (by rwa [hclient]) hsilent
  rw [hears]
  rcases run.phase <;> dsimp only
  case receiving =>
    split_ifs
    · exact hunwind _ _ rfl
    · rcases event.audio with _ | audio
      · exact hunwind _ _ rfl
      · dsimp only
        split_ifs
        · exact hunwind _ _ rfl
        · exact hsaid _ _ (fun _ => rfl) rfl
    · exact hsaid _ _ (fun _ => rfl) rfl
    · exact hunwind _ _ rfl
    · exact hsaid _ _ (fun _ => rfl) rfl
  all_goals exact fenced_of_slot h rfl fun _ => rfl

/-- A call that moves on, if there is one. -/
theorem fenced_onRun (h : s.Kept) {id : ℕ} {f : Synthesis → LocalTTS × List Output}
    (hf : ∀ run : Synthesis, (∀ c ∈ run.client, c < s.slot.nextClient) → Fenced s (f run)) :
    Fenced s (s.onRun id f) := by
  rw [onRun]
  rcases hrun : s.runs[id]? with _ | run
  · exact fenced_of_slot h rfl fun _ => rfl
  · exact hf run (h.made run (List.mem_of_getElem? hrun))

theorem fenced_step (cfg : TtsConfig) (h : s.Kept) (e : Event) : Fenced s (s.step cfg e) := by
  cases e with
  | start | stop | setOnEvent => exact fenced_of_slot ⟨h.current, h.made⟩ rfl fun _ => rfl
  | connect => exact fenced_connect h none ""
  | runTts contextId text =>
    rw [step, runTts]
    split_ifs
    · exact fenced_connect h _ text
    · exact fenced_of_slot (h.begin rfl) rfl fun _ => rfl
  | connects id rate =>
    refine fenced_onRun h fun run hrun => ?_
    rw [connects]
    rcases run.phase <;> dsimp only
    case connecting =>
      have hrated : Kept { s with sampleRate := (rate.filter (0 < ·)).getD s.sampleRate } := ⟨h.current, h.made⟩
      have htaken := fenced_takeClient hrated id hrun
      exact ⟨htaken.kept, htaken.follows⟩
    all_goals exact fenced_of_slot h rfl fun _ => rfl
  | goesOn id => exact fenced_onRun h fun run hrun => fenced_goesOn h id hrun
  | raises id message => exact fenced_onRun h fun run hrun => fenced_raises h id hrun message
  | hears id event => exact fenced_onRun h fun run hrun => fenced_hears h id hrun event
  | streamEnds id =>
    refine fenced_onRun h fun run hrun => ?_
    split_ifs
    · exact fenced_unwind h id hrun _
    · exact fenced_of_slot h rfl fun _ => rfl
  | onAudioContextInterrupted contextId =>
    rw [step]
    split
    · exact fenced_of_slot h rfl fun _ => rfl
    · rename_i c hget
      have hmade : ∀ d ∈ some c, d < s.slot.nextClient := by
        rintro d ⟨⟩
        exact s.slot.made _ (h.current contextId _ hget)
      have haborted := fenced_abortClient (h.pop contextId) hmade
      exact ⟨haborted.kept, haborted.follows⟩
  | cleanup => exact fenced_abortClient h (by rintro c ⟨⟩)

/-- **Aborted clients are fenced off.**  Whatever calls of the service run side by side: a client is made once, is taken
only before it is closed, and at most one has not been closed, the one that is kept, on which all the contexts run that
are registered. -/
theorem clients_fenced (cfg : TtsConfig) (es : List Event) :
    (∀ c, Follows ClientStage.next .unmade ((outputs (step cfg) {} es).filterMap (Output.onClient c))
      ((after cfg es).slot.stage c)) ∧
    (∀ c, (after cfg es).slot.stage c = .opened ↔ (after cfg es).slot.client = some c) ∧
    ∀ contextId, ∀ c ∈ (after cfg es).contextClients.get? contextId, (after cfg es).slot.client = some c := by
  have hinitial : ({} : LocalTTS).Kept := by
    refine ⟨?_, fun run hrun => absurd hrun List.not_mem_nil⟩
    rintro contextId c ⟨⟩
  have hstep : ∀ (s : LocalTTS) (e : Event), s.Kept → (step cfg s e).1.Kept := fun s e h => (fenced_step cfg h e).kept
  have hfinal : (after cfg es).Kept := run_invariant_of_step hstep hinitial es
  refine ⟨fun c => ?_, fun c => ?_, fun contextId c hget => hfinal.current contextId c hget⟩
  · exact follows_outputs (fun s : LocalTTS => s.slot.stage c)
      (fun s e h => ⟨(fenced_step cfg h e).kept, (fenced_step cfg h e).follows c⟩) hinitial es
  · rw [ClientSlot.stage]
    split_ifs with hclient hmade <;> simp [hclient]

end LocalTTS

end Tts

end SubagentsLab

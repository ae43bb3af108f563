import SubagentsLab.Speech.Admission

/-!
# Speech/Records — reports on several items

The scheduler reports items one by one; a sweep reports many.  Acknowledgements leave no record
(`voiced` picks out the others).  Terminal reports close the records of their items and touch no other
(`standing_emits`).
-/

namespace SubagentsLab

open Machinery

/-- The utterances of a list of items that leave a record. -/
def voiced (items : List SpeechItem) : List UtteranceId :=
  (items.filter fun item => !item.isAck).map (·.utteranceId)

theorem mem_voiced {items : List SpeechItem} {u : UtteranceId} :
    u ∈ voiced items ↔ ∃ item ∈ items, item.isAck = false ∧ item.utteranceId = u := by
  simp [voiced, and_assoc]

@[simp] theorem voiced_nil : voiced [] = [] := rfl

theorem voiced_append (items items' : List SpeechItem) :
    voiced (items ++ items') = voiced items ++ voiced items' := by
  simp [voiced]

namespace SessionState

variable {st : SessionState} {d : DeliveryState} {stale : Bool} {epoch : Option ℤ} {item : SpeechItem}
  {u : UtteranceId}

/-- The epoch fence lets reports on the item through. -/
def Hears (st : SessionState) (stale : Bool) (epoch : Option ℤ) (item : SpeechItem) : Prop :=
  item.isAck = false → stale = true ∨ (epoch <|> item.originEpoch) = st.activeEpoch

@[simp] theorem emit_activeEpoch : (st.emit d stale epoch item).activeEpoch = st.activeEpoch := by
  rw [emit]
  split_ifs
  · rfl
  · exact speechProgress_activeEpoch

theorem emit_of_terminal {q : SpeechProgress} (hq : st.speech u = some q)
    (hterm : q.state.terminal = true) : (st.emit d stale epoch item).speech u = some q := by
  rw [emit]
  split_ifs
  · exact hq
  · exact speechProgress_of_terminal hq hterm

/-- A terminal report on an item closes its record, and touches no other. -/
theorem standing_emit_terminal (hd : d.terminal = true) (h : st.Hears stale epoch item) :
    (st.emit d stale epoch item).standing u
      = if u ∈ voiced [item] then some true else st.standing u := by
  rw [emit]
  rcases hack : item.isAck with _ | _
  · rcases eq_or_ne u item.utteranceId with rfl | hne
    · rw [if_neg (by simp), if_pos (mem_voiced.mpr ⟨item, by simp [hack]⟩)]
      exact standing_of_terminal (p := item.progress d epoch) (h hack) hd
    · rw [if_neg (by simp), if_neg (by simp [mem_voiced, hne.symm])]
      exact standing_of_ne hne
  · simp [voiced, hack]

/-- A report on an item that is not terminal leaves the standing of every record as it is. -/
theorem standing_emit_progress (hd : d.terminal = false) (hsome : st.standing u ≠ none) :
    (st.emit d stale epoch item).standing u = st.standing u := by
  rw [emit]
  split_ifs
  · rfl
  · exact standing_of_progress hd hsome

theorem recorded_emit (hsome : st.standing u ≠ none) :
    (st.emit d stale epoch item).standing u ≠ none := by
  rw [emit]
  split_ifs
  · exact hsome
  · exact standing_ne_none hsome

theorem standing_emit_of_ne (h : u ≠ item.utteranceId) :
    (st.emit d stale epoch item).standing u = st.standing u := by
  rw [emit]
  split_ifs
  · rfl
  · exact standing_of_ne h

/-- Terminal reports on several items. -/
abbrev emits (st : SessionState) (d : DeliveryState) (stale : Bool) (epoch : Option ℤ)
    (items : List SpeechItem) : SessionState :=
  items.foldl (fun st item => st.emit d stale epoch item) st

theorem emits_activeEpoch (items : List SpeechItem) :
    (st.emits d stale epoch items).activeEpoch = st.activeEpoch := by
  induction items generalizing st with
  | nil => rfl
  | cons item items ih => exact ih.trans emit_activeEpoch

theorem emits_of_terminal {q : SpeechProgress} (hterm : q.state.terminal = true)
    (items : List SpeechItem) (hq : st.speech u = some q) :
    (st.emits d stale epoch items).speech u = some q := by
  induction items generalizing st with
  | nil => exact hq
  | cons item items ih => exact ih (emit_of_terminal hq hterm)

/-- Reports on acknowledgements change nothing. -/
theorem emits_of_acks {items : List SpeechItem} (h : ∀ item ∈ items, item.isAck = true) :
    st.emits d stale epoch items = st := by
  induction items with
  | nil => rfl
  | cons item items ih =>
    rw [emits, List.foldl_cons, emit, if_pos (h item List.mem_cons_self)]
    exact ih fun x hx => h x (List.mem_cons_of_mem item hx)

/-- **Terminal reports close the records of their items, and touch no other.** -/
theorem standing_emits (hd : d.terminal = true) {items : List SpeechItem}
    (h : ∀ item ∈ items, st.Hears stale epoch item) :
    (st.emits d stale epoch items).standing u
      = if u ∈ voiced items then some true else st.standing u := by
  induction items generalizing st with
  | nil => rfl
  | cons item items ih =>
    have hrest : ∀ x ∈ items, (st.emit d stale epoch item).Hears stale epoch x := fun x hx hack => by
      rw [emit_activeEpoch]
      exact h x (List.mem_cons_of_mem item hx) hack
    rw [emits, List.foldl_cons, ih hrest,
      standing_emit_terminal hd (h item List.mem_cons_self), ← List.singleton_append (l := items),
      voiced_append]
    simp only [List.mem_append]
    split_ifs <;> simp_all

end SessionState

end SubagentsLab

import Mathlib.Data.List.Flatten
import SubagentsLab.Machinery.Dict

/-!
# Machinery/Lanes — queues filed by key

A `Lanes key` holds items in first-in-first-out lanes, one for each key that has any, in the order
the keys came up.  Every item stands in the lane of its own key and no lane is empty; both are part
of the data, so a lane can be emptied only by dropping its key.  `items_assign_perm` says what a
write does to the items as a whole, and every other operation is a write.
-/

namespace Machinery

/-- Items filed under their keys, in lanes that are never empty. -/
structure Lanes {κ α : Type*} [DecidableEq κ] (key : α → κ) where
  lanes : Dict κ (List α)
  filed : ∀ k q, lanes.get? k = some q → q ≠ [] ∧ ∀ a ∈ q, key a = k

namespace Lanes

variable {κ α : Type*} [DecidableEq κ] {key : α → κ}

/-- No lane at all. -/
def empty : Lanes key := ⟨∅, by simp⟩

instance : EmptyCollection (Lanes key) := ⟨empty⟩

/-- The keys that have items, oldest lane first. -/
def keys (L : Lanes key) : List κ := L.lanes.keys

/-- The lane of a key. -/
def lane (L : Lanes key) (k : κ) : List α := (L.lanes.get? k).getD []

/-- Every item, lane by lane. -/
def items (L : Lanes key) : List α := L.lanes.values.flatten

/-- Write back the lane of a key; an empty one is dropped with its key. -/
def assign (L : Lanes key) (k : κ) (q : List α) (h : ∀ a ∈ q, key a = k) : Lanes key :=
  if hq : q = [] then
    ⟨L.lanes.pop k, fun k' q' hget => L.filed k' q' (by
      rw [Dict.get?_pop] at hget
      split_ifs at hget
      exact hget)⟩
  else
    ⟨L.lanes.set k q, fun k' q' hget => by
      rw [Dict.get?_set] at hget
      split_ifs at hget with hk
      · cases hget
        exact ⟨hq, hk ▸ h⟩
      · exact L.filed k' q' hget⟩

theorem key_of_mem_lane {L : Lanes key} {k : κ} {a : α} (h : a ∈ L.lane k) : key a = k := by
  rw [lane] at h
  rcases hget : L.lanes.get? k with _ | q
  · simp [hget] at h
  · rw [hget] at h
    exact (L.filed k q hget).2 a h

/-- Append an item to the lane of its key. -/
def push (L : Lanes key) (a : α) : Lanes key :=
  L.assign (key a) (L.lane (key a) ++ [a]) (by
    intro b hb
    rcases List.mem_append.mp hb with hb | hb
    · exact key_of_mem_lane hb
    · rw [List.mem_singleton.mp hb])

/-- Keep only the items of one lane that meet `p`. -/
def keep (L : Lanes key) (k : κ) (p : α → Bool) : Lanes key :=
  L.assign k ((L.lane k).filter p) fun _ ha => key_of_mem_lane (List.mem_of_mem_filter ha)

/-- Drop the first item of one lane. -/
def dropHead (L : Lanes key) (k : κ) : Lanes key :=
  L.assign k (L.lane k).tail fun _ ha => key_of_mem_lane (List.mem_of_mem_tail ha)

/-- Drop one lane. -/
def pop (L : Lanes key) (k : κ) : Lanes key := L.assign k [] (by simp)

/-! ## Lanes after a write -/

@[simp] theorem lane_assign (L : Lanes key) (k k' : κ) (q : List α) (h : ∀ a ∈ q, key a = k) :
    (L.assign k q h).lane k' = if k' = k then q else L.lane k' := by
  rw [assign]
  split_ifs with hq hk hk
  · simp [lane, hk, hq]
  · simp [lane, hk]
  · simp [lane, hk]
  · simp [lane, hk]

@[simp] theorem lane_empty (k : κ) : (∅ : Lanes key).lane k = [] := rfl

@[simp] theorem items_empty : (∅ : Lanes key).items = [] := rfl

theorem lane_push (L : Lanes key) (a : α) (k : κ) :
    (L.push a).lane k = if k = key a then L.lane (key a) ++ [a] else L.lane k := by
  rw [push, lane_assign]

theorem lane_dropHead (L : Lanes key) (k k' : κ) :
    (L.dropHead k).lane k' = if k' = k then (L.lane k).tail else L.lane k' := by
  rw [dropHead, lane_assign]

theorem lane_keep (L : Lanes key) (k k' : κ) (p : α → Bool) :
    (L.keep k p).lane k' = if k' = k then (L.lane k).filter p else L.lane k' := by
  rw [keep, lane_assign]

theorem lane_pop (L : Lanes key) (k k' : κ) :
    (L.pop k).lane k' = if k' = k then [] else L.lane k' := by
  rw [pop, lane_assign]

theorem mem_keys {L : Lanes key} {k : κ} : k ∈ L.keys ↔ L.lane k ≠ [] := by
  rw [keys, Dict.mem_keys, lane]
  rcases hget : L.lanes.get? k with _ | q
  · simp
  · simpa using (L.filed k q hget).1

theorem mem_items {L : Lanes key} {a : α} : a ∈ L.items ↔ a ∈ L.lane (key a) := by
  rw [items, List.mem_flatten, lane]
  constructor
  · rintro ⟨q, hq, ha⟩
    obtain ⟨k, hk⟩ := Dict.mem_values.mp hq
    obtain rfl := (L.filed k q hk).2 a ha
    rw [hk]
    exact ha
  · intro ha
    rcases hget : L.lanes.get? (key a) with _ | q
    · simp [hget] at ha
    · rw [hget] at ha
      exact ⟨q, Dict.mem_values.mpr ⟨key a, hget⟩, ha⟩

/-! ## Items after a write -/

theorem flatten_toList (L : Lanes key) (k : κ) : (L.lanes.get? k).toList.flatten = L.lane k := by
  rw [lane]
  rcases L.lanes.get? k with _ | q <;> simp

/-- **A write trades the old lane for the new one.** -/
theorem items_assign_perm (L : Lanes key) (k : κ) (q : List α) (h : ∀ a ∈ q, key a = k) :
    ((L.assign k q h).items ++ L.lane k).Perm (L.items ++ q) := by
  rw [← flatten_toList]
  rw [assign]
  split_ifs with hq
  · have hperm := (L.lanes.values_pop_perm k).flatten
    rw [List.flatten_append] at hperm
    simpa [items, hq] using hperm
  · have hperm := (L.lanes.values_set_perm k q).flatten
    simpa [items] using hperm

theorem items_push_perm (L : Lanes key) (a : α) : (L.push a).items.Perm (a :: L.items) := by
  have hw : ((L.push a).items ++ L.lane (key a)).Perm (L.items ++ (L.lane (key a) ++ [a])) :=
    L.items_assign_perm (key a) _ _
  rw [← List.append_assoc] at hw
  exact (List.perm_append_right_iff _).mp (hw.trans (List.perm_append_singleton a _))

theorem items_dropHead_perm (L : Lanes key) {k : κ} {a : α} {q : List α} (h : L.lane k = a :: q) :
    (a :: (L.dropHead k).items).Perm L.items := by
  have hw : ((L.dropHead k).items ++ L.lane k).Perm (L.items ++ (L.lane k).tail) :=
    L.items_assign_perm k _ _
  rw [h, List.tail_cons] at hw
  exact (List.perm_append_right_iff q).mp (List.perm_middle.symm.trans hw)

theorem items_keep_perm (L : Lanes key) (k : κ) (p : α → Bool) :
    ((L.keep k p).items ++ (L.lane k).filter (fun a => !p a)).Perm L.items := by
  have hw : ((L.keep k p).items ++ L.lane k).Perm (L.items ++ (L.lane k).filter p) :=
    L.items_assign_perm k _ _
  have hsplit := (List.filter_append_perm p (L.lane k)).symm
  refine (List.perm_append_right_iff ((L.lane k).filter p)).mp (List.Perm.trans ?_ hw)
  rw [List.append_assoc]
  exact (List.perm_append_comm.trans hsplit.symm).append_left _

theorem items_pop_perm (L : Lanes key) (k : κ) :
    ((L.pop k).items ++ L.lane k).Perm L.items := by
  have hw : ((L.pop k).items ++ L.lane k).Perm (L.items ++ []) := L.items_assign_perm k _ _
  rwa [List.append_nil] at hw

end Lanes

end Machinery

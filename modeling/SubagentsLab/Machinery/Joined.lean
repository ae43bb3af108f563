import Mathlib.Data.List.Basic

/-!
# Machinery/Joined — texts joined by a separator, within a bound

`joined sep` puts a separator between the pieces of a list.  `cut` keeps to a bound: it takes as much of
the joined text as the bound allows, and where the cut would fall right after a separator (`PartsAt`) it
leaves the separator out as well.  What a buffer does that only ever adds to its end, and cuts or drops
the piece it adds, comes to the same (`cut_append_singleton`).
-/

namespace Machinery

variable {α : Type*} {sep : α} {max : ℕ}

/-- The pieces with `sep` between them. -/
def joined (sep : α) (pieces : List (List α)) : List α := [sep].intercalate pieces

@[simp] theorem joined_nil : joined sep [] = [] := rfl

@[simp] theorem joined_singleton (piece : List α) : joined sep [piece] = piece := List.intercalate_singleton

theorem joined_append (sep : α) {xs ys : List (List α)} (hxs : xs ≠ []) (hys : ys ≠ []) :
    joined sep (xs ++ ys) = joined sep xs ++ sep :: joined sep ys := by
  induction xs with
  | nil => exact absurd rfl hxs
  | cons x xs ih =>
    rw [List.cons_append, joined, List.intercalate_cons_of_ne_nil (List.append_ne_nil_of_right_ne_nil _ hys)]
    rcases eq_or_ne xs [] with rfl | hne
    · rw [List.nil_append, joined_singleton, joined, List.append_assoc, List.singleton_append]
    · have hcons : joined sep (x :: xs) = x ++ [sep] ++ joined sep xs := List.intercalate_cons_of_ne_nil hne
      rw [← joined, ih hne, hcons]
      simp only [List.append_assoc]

theorem joined_append_singleton {xs : List (List α)} (hxs : xs ≠ []) (piece : List α) :
    joined sep (xs ++ [piece]) = joined sep xs ++ sep :: piece := by
  rw [joined_append sep hxs (List.cons_ne_nil _ _), joined_singleton]

/-- A piece that is not empty shows in the joined text. -/
theorem joined_ne_nil {xs : List (List α)} (hxs : xs ≠ []) (h : ∀ x ∈ xs, x ≠ []) : joined sep xs ≠ [] := by
  obtain ⟨x, xs, rfl⟩ := List.exists_cons_of_ne_nil hxs
  rcases eq_or_ne xs [] with rfl | hne
  · rw [joined_singleton]
    exact h x List.mem_cons_self
  · rw [joined, List.intercalate_cons_of_ne_nil hne]
    exact List.append_ne_nil_of_left_ne_nil
      (List.append_ne_nil_of_left_ne_nil (h x List.mem_cons_self) _) _

/-! ## The cut -/

/-- The first `max` characters of the joined text end with a separator, after which a piece is to come. -/
def PartsAt (sep : α) (max : ℕ) (pieces : List (List α)) : Prop :=
  ∃ k < pieces.length, 0 < k ∧ (joined sep (pieces.take k)).length + 1 = max

instance (pieces : List (List α)) : Decidable (PartsAt sep max pieces) :=
  inferInstanceAs (Decidable (∃ k < pieces.length, 0 < k ∧ (joined sep (pieces.take k)).length + 1 = max))

/-- The joined text, cut to `max` characters; a separator that the cut would leave at the end goes too. -/
def cut (sep : α) (max : ℕ) (pieces : List (List α)) : List α :=
  (joined sep pieces).take (if PartsAt sep max pieces then max - 1 else max)

/-- The first pieces of several are shorter than all of them by the separator, and by what is not empty
after it. -/
theorem length_joined_take (sep : α) {pieces : List (List α)} {k : ℕ} (hpos : 0 < k) (hk : k < pieces.length)
    (h : ∀ piece ∈ pieces, piece ≠ []) :
    (joined sep (pieces.take k)).length + 1 < (joined sep pieces).length := by
  have htake : pieces.take k ≠ [] := by
    rw [← List.length_pos_iff, List.length_take]
    omega
  have hdrop : pieces.drop k ≠ [] := by
    rw [← List.length_pos_iff, List.length_drop]
    omega
  have hrest : joined sep (pieces.drop k) ≠ [] :=
    joined_ne_nil hdrop fun piece hpiece => h piece (List.mem_of_mem_drop hpiece)
  have hpos := List.length_pos_iff.mpr hrest
  have hsplit := congrArg List.length (joined_append sep htake hdrop)
  rw [List.take_append_drop, List.length_append, List.length_cons] at hsplit
  omega

/-- A text within the bound has no cut to fall anywhere. -/
theorem not_partsAt {pieces : List (List α)} (h : ∀ piece ∈ pieces, piece ≠ [])
    (hlen : (joined sep pieces).length ≤ max) : ¬ PartsAt sep max pieces := by
  rintro ⟨k, hk, hpos, heq⟩
  have hlt := length_joined_take sep hpos hk h
  omega

/-- **What is within the bound stays whole.** -/
theorem cut_eq_joined {pieces : List (List α)} (h : ∀ piece ∈ pieces, piece ≠ [])
    (hlen : (joined sep pieces).length ≤ max) : cut sep max pieces = joined sep pieces := by
  rw [cut, if_neg (not_partsAt h hlen), List.take_of_length_le hlen]

theorem length_cut_le (pieces : List (List α)) : (cut sep max pieces).length ≤ max := by
  rw [cut, List.length_take]
  split_ifs <;> omega

@[simp] theorem cut_nil : cut sep max ([] : List (List α)) = [] := by
  rw [cut, joined_nil, List.take_nil]

@[simp] theorem cut_singleton (piece : List α) : cut sep max [piece] = piece.take max := by
  have hone : ¬ PartsAt sep max [piece] := by
    rintro ⟨k, hk, hpos, -⟩
    rw [List.length_singleton] at hk
    omega
  rw [cut, if_neg hone, joined_singleton]

/-- A cut leaves something of the first piece. -/
theorem cut_ne_nil {pieces : List (List α)} (hpos : 0 < max) (hne : pieces ≠ [])
    (h : ∀ piece ∈ pieces, piece ≠ []) : cut sep max pieces ≠ [] := by
  rw [cut, ne_eq, List.take_eq_nil_iff, not_or]
  refine ⟨?_, joined_ne_nil hne h⟩
  split_ifs with hparts
  · obtain ⟨k, hk, hk0, heq⟩ := hparts
    have htake : pieces.take k ≠ [] := by
      rw [← List.length_pos_iff, List.length_take]
      omega
    have hsome : joined sep (pieces.take k) ≠ [] :=
      joined_ne_nil htake fun piece hpiece => h piece (List.mem_of_mem_take hpiece)
    have hlength := List.length_pos_iff.mpr hsome
    omega
  · omega

/-- What is over the bound leaves no room but for a separator. -/
theorem le_length_cut {pieces : List (List α)} (hlen : max < (joined sep pieces).length) :
    max ≤ (cut sep max pieces).length + 1 := by
  rw [cut, List.length_take]
  split_ifs <;> omega

/-! ## One more piece -/

theorem partsAt_append_singleton {pieces : List (List α)} (hne : pieces ≠ []) (piece : List α) :
    PartsAt sep max (pieces ++ [piece])
      ↔ PartsAt sep max pieces ∨ (joined sep pieces).length + 1 = max := by
  have hpos := List.length_pos_iff.mpr hne
  constructor
  · rintro ⟨k, hk, hk0, heq⟩
    rw [List.length_append, List.length_singleton] at hk
    rw [List.take_append_of_le_length (by omega)] at heq
    rcases Nat.lt_or_ge k pieces.length with hlt | hge
    · exact Or.inl ⟨k, hlt, hk0, heq⟩
    · rw [List.take_of_length_le hge] at heq
      exact Or.inr heq
  · rintro (⟨k, hk, hk0, heq⟩ | heq)
    · exact ⟨k, by simp; omega, hk0, by rwa [List.take_append_of_le_length (Nat.le_of_lt hk)]⟩
    · exact ⟨pieces.length, by simp, hpos, by rwa [List.take_left' rfl]⟩

/-- **Once the bound is passed nothing is added.** -/
theorem cut_append_of_lt {pieces : List (List α)} (hlen : max < (joined sep pieces).length) (piece : List α) :
    cut sep max (pieces ++ [piece]) = cut sep max pieces := by
  have hne : pieces ≠ [] := by
    rintro rfl
    exact Nat.not_lt_zero _ hlen
  have hparts : PartsAt sep max (pieces ++ [piece]) ↔ PartsAt sep max pieces := by
    rw [partsAt_append_singleton hne, or_iff_left (by omega)]
  simp only [cut, hparts, joined_append_singleton hne]
  exact List.take_append_of_le_length (by split_ifs <;> omega)

/-- **The cut of one more piece**: no room for more than a separator, and the piece is dropped; otherwise as
much of it is added as there is room for. -/
theorem cut_append_singleton {pieces : List (List α)} (hne : pieces ≠ []) (h : ∀ piece ∈ pieces, piece ≠ [])
    (piece : List α) :
    cut sep max (pieces ++ [piece]) =
      if max - (cut sep max pieces).length ≤ 1 then cut sep max pieces
      else cut sep max pieces ++ sep :: piece.take (max - (cut sep max pieces).length - 1) := by
  rcases Nat.lt_or_ge max (joined sep pieces).length with hlt | hle
  · have hroom := le_length_cut hlt
    rw [if_pos (by omega), cut_append_of_lt hlt]
  · rw [cut_eq_joined h hle]
    have hparts : PartsAt sep max (pieces ++ [piece]) ↔ (joined sep pieces).length + 1 = max := by
      rw [partsAt_append_singleton hne, or_iff_right (not_partsAt h hle)]
    simp only [cut, hparts, joined_append_singleton hne]
    split_ifs with hsep hroom hroom
    · rw [List.take_append_of_le_length (by omega), List.take_of_length_le (by omega)]
    · omega
    · rw [List.take_append_of_le_length (by omega), List.take_of_length_le (by omega)]
    · rw [List.take_append, List.take_of_length_le hle]
      congr 1
      obtain ⟨n, hn⟩ : ∃ n, max - (joined sep pieces).length = n + 1 := ⟨_, (Nat.succ_pred (by omega)).symm⟩
      rw [hn, List.take_succ_cons, Nat.add_sub_cancel]

end Machinery

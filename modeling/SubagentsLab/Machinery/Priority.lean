import Mathlib.Data.List.MinMax
import Mathlib.Order.Bounds.Basic

/-!
# Machinery/Priority — the first of the highest

`max(candidates, key=rank)` over the candidates of a list that are eligible: it takes the one of the highest
rank, and of several the first (`firstHighest_firstMax`).
-/

namespace Machinery

namespace Priority

variable {α β : Type*} [LinearOrder β]

/-- The element is eligible, those before it that are eligible rank lower, those after it no higher. -/
structure FirstHighest (eligible : α → Prop) (rank : α → β) (before : List α) (a : α) (after : List α) : Prop where
  isEligible : eligible a
  before_lt : ∀ x ∈ before, eligible x → rank x < rank a
  after_le : ∀ x ∈ after, eligible x → rank x ≤ rank a

theorem FirstHighest.le {eligible : α → Prop} {rank : α → β} {before after : List α} {a x : α}
    (h : FirstHighest eligible rank before a after) (hx : x ∈ before ++ a :: after) (heligible : eligible x) :
    rank x ≤ rank a := by
  rcases List.mem_append.mp hx with hx | hx
  · exact (h.before_lt x hx heligible).le
  · rcases List.mem_cons.mp hx with rfl | hx
    · exact le_rfl
    · exact h.after_le x hx heligible

/-- `max(candidates, key=rank, default=None)`. -/
def firstMax (rank : α → β) (candidates : List α) : Option α := candidates.argmax rank

variable {eligible : α → Bool} {rank : α → β}

/-- **What `max` takes.** -/
theorem firstHighest_firstMax {as : List α} {a : α} (h : firstMax rank (as.filter eligible) = some a) :
    ∃ before after, as = before ++ a :: after ∧ FirstHighest (eligible · = true) rank before a after := by
  rw [firstMax] at h
  induction as generalizing a with
  | nil => cases h
  | cons x as ih =>
    by_cases hx : eligible x = true
    · rw [List.filter_cons_of_pos hx, List.argmax_cons] at h
      rcases hrest : (as.filter eligible).argmax rank with _ | b
      · rw [hrest] at h
        cases h
        rw [List.argmax_eq_none, List.filter_eq_nil_iff] at hrest
        exact ⟨[], as, rfl, hx, fun _ hy => (nomatch hy), fun y hy hyes => absurd hyes (hrest y hy)⟩
      · rw [hrest] at h
        dsimp only at h
        obtain ⟨before, after, rfl, hb⟩ := ih hrest
        split_ifs at h with hlt
        · cases h
          refine ⟨x :: before, after, rfl, hb.isEligible, fun y hy hyes => ?_, hb.after_le⟩
          rcases List.mem_cons.mp hy with rfl | hy
          · exact hlt
          · exact hb.before_lt y hy hyes
        · cases h
          exact ⟨[], _, rfl, hx, fun _ hy => (nomatch hy), fun y hy hyes => (hb.le hy hyes).trans (not_lt.mp hlt)⟩
    · rw [List.filter_cons_of_neg hx] at h
      obtain ⟨before, after, rfl, hb⟩ := ih h
      refine ⟨x :: before, after, rfl, hb.isEligible, fun y hy hyes => ?_, hb.after_le⟩
      rcases List.mem_cons.mp hy with rfl | hy
      · exact absurd hyes hx
      · exact hb.before_lt y hy hyes

/-- `max` takes nothing where nothing is eligible. -/
theorem firstMax_filter_eq_none {as : List α} :
    firstMax rank (as.filter eligible) = none ↔ ∀ a ∈ as, eligible a = false := by
  rw [firstMax, List.argmax_eq_none, List.filter_eq_nil_iff]
  simp

/-- `max(ns, default=bottom)`. -/
theorem isGreatest_max? {ns : List ℤ} {bottom : ℤ} (h : ∀ n ∈ ns, bottom ≤ n) :
    IsGreatest (insert bottom {n | n ∈ ns}) (ns.max?.getD bottom) := by
  rcases hmax : ns.max? with _ | n
  · rw [List.max?_eq_none_iff] at hmax
    simp [hmax]
  · obtain ⟨hmem, hle⟩ := List.max?_eq_some_iff.mp hmax
    refine ⟨.inr hmem, ?_⟩
    rintro n' (rfl | hn')
    · exact h n hmem
    · exact hle n' hn'

end Priority

end Machinery

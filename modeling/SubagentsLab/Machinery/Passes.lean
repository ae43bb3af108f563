import Mathlib.Data.List.Nodup

/-!
# Machinery/Passes — passes over items with a key

A pass folds a list of items into a state.  Seen under a key, an item does something to the state only if the
key is its own; then the pass does to every key what the one item with that key does (`view_foldl_filterMap`),
and nothing where there is none (`view_foldl_of_forall`).  A search for an item with a key finds that one or none
(`find?_key_and`).
-/

namespace Machinery

variable {σ τ β γ κ : Type*}

/-- A pass whose every step leaves the view alone. -/
theorem view_foldl_of_forall (view : σ → τ) {step : σ → γ → σ} {ys : List γ}
    (h : ∀ y ∈ ys, ∀ s, view (step s y) = view s) (s : σ) : view (ys.foldl step s) = view s := by
  induction ys generalizing s with
  | nil => rfl
  | cons y ys ih =>
    rw [List.foldl_cons, ih fun y' hy' => h y' (List.mem_cons_of_mem y hy')]
    exact h y List.mem_cons_self s

/-- **A pass over the items that are concerned by it**: each does to the view under its key what it does alone. -/
theorem view_foldl_filterMap (view : κ → σ → τ) (key : β → κ) (act : β → γ → τ → τ) {step : σ → γ → σ}
    {select : β → Option γ} {xs : List β} (hnodup : (xs.map key).Nodup)
    (hown : ∀ x ∈ xs, ∀ y ∈ select x, ∀ s, view (key x) (step s y) = act x y (view (key x) s))
    (hother : ∀ x ∈ xs, ∀ y ∈ select x, ∀ k ≠ key x, ∀ s, view k (step s y) = view k s) {x : β} (hx : x ∈ xs) (s : σ) :
    view (key x) ((xs.filterMap select).foldl step s)
      = (select x).elim (view (key x) s) fun y => act x y (view (key x) s) := by
  induction xs generalizing s with
  | nil => cases hx
  | cons x' xs ih =>
    rw [List.map_cons, List.nodup_cons] at hnodup
    have hrest : ∀ k, k ∉ xs.map key → ∀ s, view k ((xs.filterMap select).foldl step s) = view k s := by
      refine fun k hk s => view_foldl_of_forall (view k) (fun y hy s => ?_) s
      obtain ⟨x'', hx'', hsome⟩ := List.mem_filterMap.mp hy
      refine hother x'' (List.mem_cons_of_mem x' hx'') y hsome k ?_ s
      rintro rfl
      exact hk (List.mem_map_of_mem hx'')
    rcases List.mem_cons.mp hx with rfl | hmem
    · rcases hselect : select x with _ | y
      · rw [List.filterMap_cons, hselect]
        exact hrest _ hnodup.1 s
      · rw [List.filterMap_cons, hselect]
        exact (hrest _ hnodup.1 _).trans (hown x List.mem_cons_self y hselect s)
    · have hne : key x ≠ key x' := fun heq => hnodup.1 (heq ▸ List.mem_map_of_mem hmem)
      have hih := fun s => ih hnodup.2 (fun x'' hx'' => hown x'' (List.mem_cons_of_mem x' hx''))
        (fun x'' hx'' => hother x'' (List.mem_cons_of_mem x' hx'')) hmem s
      rcases hselect : select x' with _ | y
      · rw [List.filterMap_cons, hselect]
        exact hih s
      · have hsame := hother x' List.mem_cons_self y hselect (key x) hne s
        rw [List.filterMap_cons, hselect]
        exact (hih (step s y)).trans (by rw [hsame])

/-- **A search for an item with a key and more**: only the one with the key can do. -/
theorem find?_key_and [DecidableEq κ] (key : β → κ) (q : β → Prop) [DecidablePred q] {xs : List β}
    (hnodup : (xs.map key).Nodup) (k : κ) :
    (xs.find? fun x => key x = k ∧ q x) = (xs.find? fun x => key x = k).filter q := by
  induction xs with
  | nil => rfl
  | cons x xs ih =>
    rw [List.map_cons, List.nodup_cons] at hnodup
    rw [List.find?_cons, List.find?_cons]
    by_cases hkey : key x = k
    · have hnone : (xs.find? fun x' => key x' = k ∧ q x') = none := by
        refine List.find?_eq_none.mpr fun x' hx' hfound => hnodup.1 ?_
        rw [hkey, ← (of_decide_eq_true hfound).1]
        exact List.mem_map_of_mem hx'
      by_cases hq : q x
      · simp [hkey, hq, Option.filter]
      · rw [hnone]
        simp [hkey, hq, Option.filter]
    · rw [ih hnodup.2]
      simp [hkey]

end Machinery

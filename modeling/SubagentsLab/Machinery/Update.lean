import SubagentsLab.Machinery.Dict

/-!
# Machinery/Update — one dictionary written over another

Writing all of a dictionary over another one takes each key from the second where it is there, and from the
first elsewhere (`get?_update`).
-/

namespace Machinery

namespace Dict

variable {κ α β : Type*} [DecidableEq κ]

/-- `d.update(e)`, of a list of entries. -/
def writeAll (d : Dict κ α) (es : List (κ × α)) : Dict κ α := es.foldl (fun d e => d.set e.1 e.2) d

/-- `d.update(e)`. -/
def update (d e : Dict κ α) : Dict κ α := d.writeAll e.entries

/-- The same keys with other values. -/
def mapValues (f : α → β) (d : Dict κ α) : Dict κ β where
  entries := d.entries.map fun e => (e.1, f e.2)
  nodup_keys := by
    rw [List.map_map]
    exact d.nodup_keys

/-- Some of the entries. -/
def filter (p : κ → α → Bool) (d : Dict κ α) : Dict κ α where
  entries := d.entries.filter fun e => p e.1 e.2
  nodup_keys := d.nodup_keys.sublist (List.filter_sublist.map _)

theorem find_eq_none {k : κ} {es : List (κ × α)} (h : k ∉ es.map Prod.fst) : find k es = none := by
  induction es with
  | nil => rfl
  | cons e es ih =>
    rw [List.map_cons, List.mem_cons, not_or] at h
    rw [find, if_neg (Ne.symm h.1), ih h.2]

theorem get?_writeAll {es : List (κ × α)} (h : (es.map Prod.fst).Nodup) (d : Dict κ α) (k : κ) :
    (d.writeAll es).get? k = (find k es).or (d.get? k) := by
  induction es generalizing d with
  | nil => rfl
  | cons e es ih =>
    rw [List.map_cons, List.nodup_cons] at h
    rw [writeAll, List.foldl_cons, ← writeAll, ih h.2, get?_set, find]
    by_cases hk : e.1 = k
    · rw [if_pos hk, if_pos hk.symm, find_eq_none (hk ▸ h.1), Option.none_or, Option.some_or]
    · rw [if_neg hk, if_neg (Ne.symm hk)]

@[simp] theorem get?_update (d e : Dict κ α) (k : κ) : (d.update e).get? k = (e.get? k).or (d.get? k) :=
  get?_writeAll e.nodup_keys d k

@[simp] theorem get?_mapValues (f : α → β) (d : Dict κ α) (k : κ) : (d.mapValues f).get? k = (d.get? k).map f := by
  obtain ⟨es, hes⟩ := d
  rw [get?, get?, mapValues]
  dsimp only
  induction es with
  | nil => rfl
  | cons e es ih =>
    rw [List.map_cons, find, find]
    by_cases hk : e.1 = k
    · rw [if_pos hk, if_pos hk, Option.map_some]
    · rw [if_neg hk, if_neg hk, ih (List.nodup_cons.mp hes).2]

@[simp] theorem get?_filter (p : κ → α → Bool) (d : Dict κ α) (k : κ) :
    (d.filter p).get? k = (d.get? k).filter (p k) := by
  ext a
  rw [Option.filter_eq_some_iff, get?_eq_some_iff, get?_eq_some_iff, filter, List.mem_filter]

end Dict

end Machinery

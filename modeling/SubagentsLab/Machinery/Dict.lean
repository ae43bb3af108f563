import Mathlib.Data.Finset.Card
import Mathlib.Data.List.Nodup

/-!
# Machinery/Dict — insertion-ordered dictionaries

A `Dict` is a list of entries with pairwise distinct keys, in insertion order: writing a key that is
present replaces its value in place, writing a new key appends it, and popping a key keeps the order
of the others.  The order is observable (iteration, "the first such key"), so it is part of the data.
-/

namespace Machinery

/-- An insertion-ordered dictionary; no key occurs twice. -/
structure Dict (κ α : Type*) where
  entries : List (κ × α)
  nodup_keys : (entries.map Prod.fst).Nodup

namespace Dict

variable {κ α : Type*} [DecidableEq κ]

instance [DecidableEq α] : DecidableEq (Dict κ α) := fun d d' =>
  decidable_of_iff (d.entries = d'.entries) (by cases d; cases d'; simp)

/-- The dictionary with no entry. -/
def empty : Dict κ α := ⟨[], List.nodup_nil⟩

instance : EmptyCollection (Dict κ α) := ⟨empty⟩

/-- The keys, in insertion order. -/
def keys (d : Dict κ α) : List κ := d.entries.map Prod.fst

/-- The values, in insertion order of their keys. -/
def values (d : Dict κ α) : List α := d.entries.map Prod.snd

/-- Lookup in a list of entries: the first one under the key. -/
def find (k : κ) : List (κ × α) → Option α
  | [] => none
  | e :: es => if e.1 = k then some e.2 else find k es

/-- `d.get(k)`. -/
def get? (d : Dict κ α) (k : κ) : Option α := find k d.entries

/-- Replace the value under `k` in place, or append a new entry. -/
def write (k : κ) (a : α) : List (κ × α) → List (κ × α)
  | [] => [(k, a)]
  | e :: es => if e.1 = k then (k, a) :: es else e :: write k a es

theorem map_fst_write (k : κ) (a : α) (es : List (κ × α)) :
    (write k a es).map Prod.fst
      = if k ∈ es.map Prod.fst then es.map Prod.fst else es.map Prod.fst ++ [k] := by
  induction es with
  | nil => rfl
  | cons e es ih =>
    by_cases h : e.1 = k
    · simp [write, h]
    · have h' : k ≠ e.1 := fun hk => h hk.symm
      by_cases hm : k ∈ es.map Prod.fst <;> simp_all [write]

/-- `d[k] = a`. -/
def set (d : Dict κ α) (k : κ) (a : α) : Dict κ α where
  entries := write k a d.entries
  nodup_keys := by
    rw [map_fst_write]
    split
    · exact d.nodup_keys
    · rename_i h
      exact List.nodup_append.mpr ⟨d.nodup_keys, List.nodup_singleton k, by
        intro x hx y hy
        rw [List.mem_singleton.mp hy]
        rintro rfl
        exact h hx⟩

/-- `d.pop(k, None)`. -/
def pop (d : Dict κ α) (k : κ) : Dict κ α where
  entries := d.entries.filter fun e => e.1 ≠ k
  nodup_keys := d.nodup_keys.sublist (List.filter_sublist.map _)

/-! ## Lookup -/

theorem find_eq_some_iff {k : κ} {a : α} {es : List (κ × α)} (h : (es.map Prod.fst).Nodup) :
    find k es = some a ↔ (k, a) ∈ es := by
  induction es with
  | nil => simp [find]
  | cons e es ih =>
    obtain ⟨k', a'⟩ := e
    rw [List.map_cons, List.nodup_cons] at h
    by_cases hk : k' = k
    · subst hk
      have hnot : ∀ b, (k', b) ∉ es := fun b hb => h.1 (List.mem_map.mpr ⟨(k', b), hb, rfl⟩)
      simp [find, hnot, eq_comm]
    · have hk' : k ≠ k' := fun hc => hk hc.symm
      simp [find, hk, hk', ih h.2]

theorem get?_eq_some_iff {d : Dict κ α} {k : κ} {a : α} :
    d.get? k = some a ↔ (k, a) ∈ d.entries := find_eq_some_iff d.nodup_keys

@[simp] theorem get?_empty (k : κ) : (∅ : Dict κ α).get? k = none := rfl

theorem find_write (k k' : κ) (a : α) (es : List (κ × α)) :
    find k' (write k a es) = if k' = k then some a else find k' es := by
  induction es with
  | nil => simp [write, find, eq_comm]
  | cons e es ih =>
    by_cases hk : e.1 = k
    · by_cases hk' : k' = k
      · simp [write, find, hk, hk']
      · have hne : k ≠ k' := fun hc => hk' hc.symm
        simp [write, find, hk, hk', hne]
    · by_cases hk' : k' = k
      · subst hk'
        simpa [write, find, hk] using ih
      · simp [write, find, hk, hk', ih]

@[simp, grind =] theorem get?_set (d : Dict κ α) (k k' : κ) (a : α) :
    (d.set k a).get? k' = if k' = k then some a else d.get? k' := find_write k k' a d.entries

@[simp, grind =] theorem get?_pop (d : Dict κ α) (k k' : κ) :
    (d.pop k).get? k' = if k' = k then none else d.get? k' := by
  refine Option.ext fun a => ?_
  by_cases h : k' = k
  · simp [get?_eq_some_iff, pop, h]
  · simp [get?_eq_some_iff, pop, h]

theorem get?_foldl_pop (ks : List κ) (d : Dict κ α) (k : κ) :
    (ks.foldl pop d).get? k = if k ∈ ks then none else d.get? k := by
  induction ks generalizing d with
  | nil => simp
  | cons x ks ih =>
    rw [List.foldl_cons, ih, get?_pop]
    by_cases hx : k = x <;> simp [hx]

theorem entries_foldl_pop (ks : List κ) (d : Dict κ α) :
    (ks.foldl pop d).entries = d.entries.filter fun e => e.1 ∉ ks := by
  induction ks generalizing d with
  | nil => simp
  | cons x ks ih =>
    rw [List.foldl_cons, ih, pop, List.filter_filter]
    refine List.filter_congr fun e _ => ?_
    by_cases hx : e.1 = x <;> simp [hx]

/-- Popping the first keys keeps the rest. -/
theorem entries_foldl_pop_take (n : ℕ) (d : Dict κ α) :
    ((d.keys.take n).foldl pop d).entries = d.entries.drop n := by
  have hnodup := d.nodup_keys
  rw [← List.take_append_drop n d.entries, List.map_append, List.nodup_append] at hnodup
  rw [entries_foldl_pop, keys, ← List.map_take]
  have hgone : (d.entries.take n).filter (fun e => e.1 ∉ (d.entries.take n).map Prod.fst) = [] :=
    List.filter_eq_nil_iff.mpr fun e he hnot => of_decide_eq_true hnot (List.mem_map_of_mem he)
  have hkept : (d.entries.drop n).filter (fun e => e.1 ∉ (d.entries.take n).map Prod.fst) = d.entries.drop n :=
    List.filter_eq_self.mpr fun e he => decide_eq_true fun hmem =>
      hnodup.2.2 e.1 hmem e.1 (List.mem_map_of_mem he) rfl
  calc d.entries.filter (fun e => e.1 ∉ (d.entries.take n).map Prod.fst)
      = (d.entries.take n ++ d.entries.drop n).filter fun e => e.1 ∉ (d.entries.take n).map Prod.fst := by
        rw [List.take_append_drop]
    _ = d.entries.drop n := by rw [List.filter_append, hgone, hkept, List.nil_append]

/-- The entries under a key: one, or none. -/
theorem filterMap_entries (d : Dict κ α) (k : κ) :
    d.entries.filterMap (fun e => if e.1 = k then some e.2 else none) = (d.get? k).toList := by
  obtain ⟨es, hnodup⟩ := d
  rw [get?]
  dsimp only
  induction es with
  | nil => rfl
  | cons e es ih =>
    rw [List.map_cons, List.nodup_cons] at hnodup
    by_cases hk : e.1 = k
    · have hnone : es.filterMap (fun e => if e.1 = k then some e.2 else none) = [] :=
        List.filterMap_eq_nil_iff.mpr fun e' he' => if_neg fun heq : e'.1 = k =>
          hnodup.1 (List.mem_map.mpr ⟨e', he', heq.trans hk.symm⟩)
      rw [List.filterMap_cons, if_pos hk, hnone, find, if_pos hk]
      rfl
    · rw [List.filterMap_cons, if_neg hk, find, if_neg hk]
      exact ih hnodup.2

theorem mem_keys {d : Dict κ α} {k : κ} : k ∈ d.keys ↔ (d.get? k).isSome := by
  rw [Option.isSome_iff_exists]
  simp [keys, get?_eq_some_iff]

theorem mem_values {d : Dict κ α} {a : α} : a ∈ d.values ↔ ∃ k, d.get? k = some a := by
  simp [values, get?_eq_some_iff]

/-- What only one key can give, the values give as that key does. -/
theorem filterMap_values {β : Type*} {d : Dict κ α} {k : κ} {f : α → Option β}
    (h : ∀ k' a, d.get? k' = some a → f a ≠ none → k' = k) :
    d.values.filterMap f = ((d.get? k).bind f).toList := by
  have hsame : ∀ e ∈ d.entries, (f ∘ Prod.snd) e = (if e.1 = k then some e.2 else none).bind f := by
    intro e he
    split_ifs with hk
    · rfl
    · by_contra hsome
      exact hk (h e.1 e.2 (get?_eq_some_iff.mpr he) hsome)
  rw [values, List.filterMap_map, List.filterMap_congr hsame, ← List.filterMap_filterMap, filterMap_entries]
  rcases d.get? k with _ | a
  · rfl
  · rcases hf : f a with _ | b <;> simp [hf]

/-! ## Values up to order -/

theorem perm_write (k : κ) (a : α) {es : List (κ × α)} (h : (es.map Prod.fst).Nodup) :
    ((write k a es).map Prod.snd ++ (find k es).toList).Perm (es.map Prod.snd ++ [a]) := by
  induction es with
  | nil => exact .refl _
  | cons e es ih =>
    obtain ⟨k', b⟩ := e
    rw [List.map_cons, List.nodup_cons] at h
    by_cases hk : k' = k
    · simp only [write, find, hk, if_true, List.map_cons, Option.toList_some, List.cons_append]
      exact (List.perm_append_singleton b _).cons a |>.trans (.swap b a _) |>.trans
        ((List.perm_append_singleton a _).symm.cons b)
    · simpa only [write, find, hk, if_false, List.map_cons, List.cons_append] using (ih h.2).cons b

/-- Writing a key trades its old value for the new one. -/
theorem values_set_perm (d : Dict κ α) (k : κ) (a : α) :
    ((d.set k a).values ++ (d.get? k).toList).Perm (d.values ++ [a]) := perm_write k a d.nodup_keys

theorem perm_filter (k : κ) {es : List (κ × α)} (h : (es.map Prod.fst).Nodup) :
    ((es.filter fun e => e.1 ≠ k).map Prod.snd ++ (find k es).toList).Perm (es.map Prod.snd) := by
  induction es with
  | nil => exact .refl _
  | cons e es ih =>
    obtain ⟨k', b⟩ := e
    rw [List.map_cons, List.nodup_cons] at h
    by_cases hk : k' = k
    · have hnot : (es.filter fun e => e.1 ≠ k) = es := by
        refine List.filter_eq_self.mpr fun e he => ?_
        have hne : e.1 ≠ k := fun hc => h.1 (List.mem_map.mpr ⟨e, he, hc.trans hk.symm⟩)
        simpa using hne
      rw [List.filter_cons_of_neg (by simpa using hk), hnot]
      simpa only [find, hk, if_true, List.map_cons, Option.toList_some]
        using List.perm_append_singleton b _
    · rw [List.filter_cons_of_pos (by simpa using hk)]
      simpa only [find, hk, if_false, List.map_cons, List.cons_append] using (ih h.2).cons b

/-- Popping a key takes its value out. -/
theorem values_pop_perm (d : Dict κ α) (k : κ) :
    ((d.pop k).values ++ (d.get? k).toList).Perm d.values := perm_filter k d.nodup_keys

/-! ## Size -/

omit [DecidableEq κ] in
theorem length_keys (d : Dict κ α) : d.keys.length = d.values.length := by
  rw [keys, values, List.length_map, List.length_map]

theorem length_keys_set (d : Dict κ α) (k : κ) (a : α) :
    (d.set k a).keys.length + (d.get? k).toList.length = d.keys.length + 1 := by
  rw [length_keys, length_keys, ← List.length_append, (d.values_set_perm k a).length_eq, List.length_append,
    List.length_singleton]

theorem length_keys_pop (d : Dict κ α) (k : κ) :
    (d.pop k).keys.length + (d.get? k).toList.length = d.keys.length := by
  rw [length_keys, length_keys, ← List.length_append, (d.values_pop_perm k).length_eq]

/-- A dictionary is no larger than a set its keys are from. -/
theorem length_keys_le {d : Dict κ α} {K : Finset κ} (h : ∀ k, (d.get? k).isSome → k ∈ K) :
    d.keys.length ≤ K.card := by
  have hcard : d.keys.toFinset.card = d.keys.length := List.toFinset_card_of_nodup d.nodup_keys
  rw [← hcard]
  exact Finset.card_le_card fun k hk => h k (mem_keys.mp (List.mem_toFinset.mp hk))

/-! ## Values that know their key -/

/-- Where every value tells its key, looking a value up by what it tells is looking up the key, in
whatever order the values are listed. -/
theorem find?_values {d : Dict κ α} {f : α → κ} (h : ∀ k a, d.get? k = some a → f a = k) {as : List α}
    (has : ∀ a, a ∈ as ↔ a ∈ d.values) (k : κ) : as.find? (fun a => f a = k) = d.get? k := by
  rcases hget : d.get? k with _ | a
  · rw [List.find?_eq_none]
    intro a ha hk
    obtain ⟨k', hk'⟩ := mem_values.mp ((has a).mp ha)
    rw [← h k' a hk', of_decide_eq_true hk, hget] at hk'
    cases hk'
  · have hfound : (as.find? fun a => f a = k).isSome :=
      List.find?_isSome.mpr ⟨a, (has a).mpr (mem_values.mpr ⟨k, hget⟩), decide_eq_true (h k a hget)⟩
    obtain ⟨b, hb⟩ := Option.isSome_iff_exists.mp hfound
    obtain ⟨k', hk'⟩ := mem_values.mp ((has b).mp (List.mem_of_find?_eq_some hb))
    have htold := List.find?_some hb
    rw [decide_eq_true_eq, h k' b hk'] at htold
    rw [hb, ← hget, ← htold, hk']

/-- A dictionary of values under the keys they tell holds the last of each. -/
theorem get?_foldl_set (f : α → κ) (as : List α) (d : Dict κ α) (k : κ) :
    (as.foldl (fun d a => d.set (f a) a) d).get? k = (as.reverse.find? fun a => f a = k).or (d.get? k) := by
  induction as using List.reverseRecOn with
  | nil => rfl
  | append_singleton as a ih =>
    rw [List.foldl_append, List.foldl_cons, List.foldl_nil, get?_set, ih, List.reverse_append,
      List.reverse_singleton, List.singleton_append, List.find?_cons]
    by_cases hk : f a = k
    · simp [hk]
    · have hk' : k ≠ f a := fun hc => hk hc.symm
      simp [hk, hk']

omit [DecidableEq κ] in
theorem eq_of_entries {d d' : Dict κ α} (h : d.entries = d'.entries) : d = d' := by
  cases d
  cases d'
  cases h
  rfl

/-- A key that is not there is appended. -/
theorem write_of_notMem {k : κ} (a : α) {es : List (κ × α)} (h : k ∉ es.map Prod.fst) :
    write k a es = es ++ [(k, a)] := by
  induction es with
  | nil => rfl
  | cons e es ih =>
    rw [List.map_cons, List.mem_cons, not_or] at h
    rw [write, if_neg (Ne.symm h.1), ih h.2, List.cons_append]

/-- Writing values under distinct keys that they tell files them in order. -/
theorem entries_foldl_set {β : Type*} (f : β → κ) (g : β → α) (bs : List β) (h : (bs.map f).Nodup) :
    (bs.foldl (fun (d : Dict κ α) b => d.set (f b) (g b)) ∅).entries = bs.map fun b => (f b, g b) := by
  induction bs using List.reverseRecOn with
  | nil => rfl
  | append_singleton bs b ih =>
    rw [List.map_append, List.map_singleton, List.nodup_append] at h
    have hnew : f b ∉ (bs.map fun b => (f b, g b)).map Prod.fst := by
      rw [List.map_map]
      exact fun hmem => h.2.2 (f b) hmem (f b) (List.mem_singleton_self _) rfl
    rw [List.foldl_append, List.foldl_cons, List.foldl_nil, List.map_append, List.map_singleton]
    rw [← ih h.1] at hnew ⊢
    exact write_of_notMem (g b) hnew

/-- **A dictionary is rebuilt from its values**, where every value tells its key. -/
theorem foldl_set_values {d : Dict κ α} {f : α → κ} (h : ∀ k a, d.get? k = some a → f a = k) :
    d.values.foldl (fun d a => d.set (f a) a) ∅ = d := by
  have hentries : d.values.map (fun a => (f a, a)) = d.entries := by
    rw [values, List.map_map]
    refine (List.map_congr_left fun e he => ?_).trans (List.map_id _)
    exact Prod.ext (h e.1 e.2 (get?_eq_some_iff.mpr he)) rfl
  have hnodup : (d.values.map f).Nodup := by
    have hkeys : d.values.map f = (d.values.map fun a => (f a, a)).map Prod.fst := by rw [List.map_map]; rfl
    rw [hkeys, hentries]
    exact d.nodup_keys
  exact eq_of_entries ((entries_foldl_set f id _ hnodup).trans hentries)

end Dict

end Machinery

import Mathlib.Data.List.Flatten
import Mathlib.Data.List.Nodup
import Mathlib.Order.Nat
import Mathlib.Data.Nat.Init
import Mathlib.Tactic.Tauto

/-!
# Machinery/Search — breadth-first order

The nodes of a graph, level by level: a level holds what the level before leads to, in the order it is met, and
of that nothing whose **key** has been met before.  A node without a key is held whenever it is met.  The graph is
given by the children of its nodes; it may be infinite, shared and cyclic.

Where every node is its own key, this is breadth-first order as it is usually meant: no node is listed twice, and a
node is listed if and only if a walk of at most that length leads to it.  Where keys are made some other way, two
nodes may be taken for one.

* `mem_breadthFirst_iff`, `mem_level_iff`: if keys tell apart the nodes that are reached, nothing is lost.
* `keyed_breadthFirst`: if moreover nothing comes after a node without a key, the order is the usual one.
-/

namespace Machinery

variable {α κ : Type*} [DecidableEq κ] (key : α → Option κ)

/-- What of a list has a key that has not been seen, once each, and what has no key; in order. -/
def fresh (seen : List κ) : List α → List α
  | [] => []
  | x :: xs =>
    match key x with
    | none => x :: fresh seen xs
    | some k => if k ∈ seen then fresh seen xs else x :: fresh (k :: seen) xs

/-- The nodes of a list that have a key. -/
def keyed (xs : List α) : List α := xs.filter fun v => (key v).isSome

section Keyed

variable {key}

omit [DecidableEq κ]

theorem keyed_cons_of_none {x : α} (h : key x = none) (xs : List α) : keyed key (x :: xs) = keyed key xs :=
  List.filter_cons_of_neg (by rw [h]; exact Bool.false_ne_true)

theorem keyed_cons_of_some {x : α} {k : κ} (h : key x = some k) (xs : List α) :
    keyed key (x :: xs) = x :: keyed key xs := List.filter_cons_of_pos (by rw [h]; rfl)

theorem keyed_append (xs ys : List α) : keyed key (xs ++ ys) = keyed key xs ++ keyed key ys := List.filter_append ..

theorem mem_keyed {xs : List α} {x : α} : x ∈ keyed key xs ↔ x ∈ xs ∧ ∃ k, key x = some k := by
  rw [keyed, List.mem_filter, Option.isSome_iff_exists]

end Keyed

section Fresh

variable {key} {seen seen' : List κ} {x : α} {k : κ}

theorem fresh_cons_of_none (h : key x = none) (xs : List α) : fresh key seen (x :: xs) = x :: fresh key seen xs := by
  rw [fresh, h]

theorem fresh_cons_of_mem (h : key x = some k) (hk : k ∈ seen) (xs : List α) :
    fresh key seen (x :: xs) = fresh key seen xs := by
  simp only [fresh, h, if_pos hk]

theorem fresh_cons_of_new (h : key x = some k) (hk : k ∉ seen) (xs : List α) :
    fresh key seen (x :: xs) = x :: fresh key (k :: seen) xs := by
  simp only [fresh, h, if_neg hk]

theorem fresh_sublist (seen : List κ) (xs : List α) : (fresh key seen xs).Sublist xs := by
  induction xs generalizing seen with
  | nil => exact .slnil
  | cons x xs ih =>
    rcases h : key x with _ | k
    · rw [fresh_cons_of_none h]
      exact (ih seen).cons_cons x
    · by_cases hk : k ∈ seen
      · rw [fresh_cons_of_mem h hk]
        exact (ih seen).cons x
      · rw [fresh_cons_of_new h hk]
        exact (ih _).cons_cons x

/-- No key that has been seen is met again. -/
theorem key_notMem_of_mem_fresh {xs : List α} (hx : x ∈ fresh key seen xs) (h : key x = some k) : k ∉ seen := by
  induction xs generalizing seen with
  | nil => exact absurd hx List.not_mem_nil
  | cons y ys ih =>
    rcases hy : key y with _ | k'
    · rw [fresh_cons_of_none hy] at hx
      rcases List.mem_cons.mp hx with rfl | hx
      · rw [h] at hy
        cases hy
      · exact ih hx
    · by_cases hk : k' ∈ seen
      · rw [fresh_cons_of_mem hy hk] at hx
        exact ih hx
      · rw [fresh_cons_of_new hy hk] at hx
        rcases List.mem_cons.mp hx with rfl | hx
        · rw [h] at hy
          cases hy
          exact hk
        · exact fun hmem => ih hx (List.mem_cons_of_mem _ hmem)

/-- What has no key is kept. -/
theorem mem_fresh_of_none {xs : List α} (hx : x ∈ xs) (h : key x = none) : x ∈ fresh key seen xs := by
  induction xs generalizing seen with
  | nil => exact absurd hx List.not_mem_nil
  | cons y ys ih =>
    rcases hy : key y with _ | k
    · rw [fresh_cons_of_none hy]
      exact (List.mem_cons.mp hx).elim (fun heq => heq ▸ List.mem_cons_self) fun hx => List.mem_cons_of_mem _ (ih hx)
    · have hx : x ∈ ys := by
        refine (List.mem_cons.mp hx).resolve_left ?_
        rintro rfl
        rw [h] at hy
        cases hy
      by_cases hk : k ∈ seen
      · rw [fresh_cons_of_mem hy hk]
        exact ih hx
      · rw [fresh_cons_of_new hy hk]
        exact List.mem_cons_of_mem _ (ih hx)

/-- A key that is met is held, with whatever has it first. -/
theorem exists_mem_fresh {xs : List α} (hx : x ∈ xs) (h : key x = some k) (hk : k ∉ seen) :
    ∃ y ∈ fresh key seen xs, key y = some k := by
  induction xs generalizing seen with
  | nil => exact absurd hx List.not_mem_nil
  | cons y ys ih =>
    rcases hy : key y with _ | k'
    · rw [fresh_cons_of_none hy]
      have hx : x ∈ ys := by
        refine (List.mem_cons.mp hx).resolve_left ?_
        rintro rfl
        rw [h] at hy
        cases hy
      obtain ⟨z, hz, hkz⟩ := ih hx hk
      exact ⟨z, List.mem_cons_of_mem _ hz, hkz⟩
    · by_cases hsame : k' = k
      · rw [fresh_cons_of_new hy (hsame ▸ hk)]
        exact ⟨y, List.mem_cons_self, hsame ▸ hy⟩
      · have hx : x ∈ ys := by
          refine (List.mem_cons.mp hx).resolve_left ?_
          rintro rfl
          rw [h] at hy
          exact hsame (Option.some.inj hy).symm
        by_cases hk' : k' ∈ seen
        · rw [fresh_cons_of_mem hy hk']
          exact ih hx hk
        · rw [fresh_cons_of_new hy hk']
          obtain ⟨z, hz, hkz⟩ := ih hx (mt List.mem_cons.mp (not_or.mpr ⟨Ne.symm hsame, hk⟩))
          exact ⟨z, List.mem_cons_of_mem _ hz, hkz⟩

/-- No key is held twice. -/
theorem nodup_keys_fresh (seen : List κ) (xs : List α) : ((fresh key seen xs).filterMap key).Nodup := by
  induction xs generalizing seen with
  | nil => exact List.nodup_nil
  | cons x xs ih =>
    rcases h : key x with _ | k
    · rw [fresh_cons_of_none h, List.filterMap_cons_none h]
      exact ih seen
    · by_cases hk : k ∈ seen
      · rw [fresh_cons_of_mem h hk]
        exact ih seen
      · rw [fresh_cons_of_new h hk, List.filterMap_cons_some h]
        refine List.nodup_cons.mpr ⟨fun hmem => ?_, ih _⟩
        obtain ⟨y, hy, hky⟩ := List.mem_filterMap.mp hmem
        exact key_notMem_of_mem_fresh hy hky List.mem_cons_self

/-- Only which keys have been seen matters, not their order. -/
theorem fresh_congr (h : ∀ k, k ∈ seen ↔ k ∈ seen') (xs : List α) : fresh key seen xs = fresh key seen' xs := by
  induction xs generalizing seen seen' with
  | nil => rfl
  | cons x xs ih =>
    have hcons : ∀ k k', k' ∈ k :: seen ↔ k' ∈ k :: seen' := fun k k' => by rw [List.mem_cons, List.mem_cons, h]
    simp only [fresh, h, ih h, ih (hcons _)]

theorem fresh_append (seen : List κ) (xs ys : List α) :
    fresh key seen (xs ++ ys) = fresh key seen xs ++ fresh key (seen ++ (fresh key seen xs).filterMap key) ys := by
  induction xs generalizing seen with
  | nil => rw [List.nil_append, fresh, List.filterMap_nil, List.append_nil, List.nil_append]
  | cons x xs ih =>
    rw [List.cons_append]
    rcases h : key x with _ | k
    · rw [fresh_cons_of_none h, fresh_cons_of_none h, ih, List.filterMap_cons_none h, List.cons_append]
    · by_cases hk : k ∈ seen
      · rw [fresh_cons_of_mem h hk, fresh_cons_of_mem h hk, ih]
      · rw [fresh_cons_of_new h hk, fresh_cons_of_new h hk, ih, List.filterMap_cons_some h, List.cons_append]
        refine congrArg (fun ys => x :: (fresh key (k :: seen) xs ++ ys)) (fresh_congr (fun k' => ?_) ys)
        simp only [List.mem_append, List.mem_cons]
        tauto

/-- What is held of one more node. -/
theorem fresh_singleton (seen : List κ) (x : α) :
    fresh key seen [x] = if ∃ k ∈ seen, key x = some k then [] else [x] := by
  rcases h : key x with _ | k
  · rw [fresh_cons_of_none h, fresh, if_neg]
    rintro ⟨k, -, hk⟩
    cases hk
  · by_cases hk : k ∈ seen
    · rw [fresh_cons_of_mem h hk, fresh, if_pos ⟨k, hk, rfl⟩]
    · rw [fresh_cons_of_new h hk, fresh, if_neg]
      rintro ⟨k', hk', heq⟩
      cases heq
      exact hk hk'

end Fresh

/-! ## Levels -/

variable (children : α → List α) (root : α)

/-- The levels up to a depth in one list, and the last of them. -/
def levels : ℕ → List α × List α
  | 0 => ([root], [root])
  | n + 1 =>
    let new := fresh key ((levels n).1.filterMap key) ((levels n).2.flatMap children)
    ((levels n).1 ++ new, new)

/-- The nodes of a depth. -/
def level (n : ℕ) : List α := (levels key children root n).2

/-- The nodes up to a depth, in breadth-first order. -/
def breadthFirst (n : ℕ) : List α := (levels key children root n).1

/-- A walk of this length leads to the node. -/
def Reaches : ℕ → α → Prop
  | 0, v => v = root
  | n + 1, v => ∃ u, Reaches n u ∧ v ∈ children u

@[simp] theorem breadthFirst_zero : breadthFirst key children root 0 = [root] := rfl

@[simp] theorem level_zero : level key children root 0 = [root] := rfl

theorem breadthFirst_succ (n : ℕ) :
    breadthFirst key children root (n + 1) = breadthFirst key children root n ++ level key children root (n + 1) := rfl

theorem level_succ (n : ℕ) :
    level key children root (n + 1)
      = fresh key ((breadthFirst key children root n).filterMap key) ((level key children root n).flatMap children) := rfl

/-- What the level before leads to. -/
def met : ℕ → List α
  | 0 => [root]
  | n + 1 => (level key children root n).flatMap children

/-- The levels before a depth. -/
def before : ℕ → List α
  | 0 => []
  | n + 1 => breadthFirst key children root n

theorem level_eq_fresh (n : ℕ) :
    level key children root n = fresh key ((before key children root n).filterMap key) (met key children root n) := by
  cases n with
  | zero =>
    refine ((fresh_singleton _ _).trans (if_neg ?_)).symm
    rintro ⟨k, hk, -⟩
    cases hk
  | succ n => rfl

theorem breadthFirst_eq_append (n : ℕ) :
    breadthFirst key children root n = before key children root n ++ level key children root n := by
  cases n <;> rfl

theorem breadthFirst_eq_flatMap (n : ℕ) :
    breadthFirst key children root n = (List.range (n + 1)).flatMap (level key children root) := by
  induction n with
  | zero => rfl
  | succ n ih =>
    rw [breadthFirst_succ, ih, List.range_succ (n := n + 1), List.flatMap_append, List.flatMap_singleton]

variable {key} {children root}

/-- **No key is listed twice.** -/
theorem nodup_keys_breadthFirst (n : ℕ) : ((breadthFirst key children root n).filterMap key).Nodup := by
  induction n with
  | zero =>
    rw [breadthFirst_zero, List.filterMap_cons]
    rcases key root with _ | k
    · exact List.nodup_nil
    · exact List.nodup_singleton k
  | succ n ih =>
    rw [breadthFirst_succ, List.filterMap_append]
    refine List.nodup_append.mpr ⟨ih, nodup_keys_fresh _ _, fun k hk k' hk' heq => ?_⟩
    obtain ⟨y, hy, hky⟩ := List.mem_filterMap.mp hk'
    exact key_notMem_of_mem_fresh hy hky (heq ▸ hk)

/-- **No node with a key is listed twice.** -/
theorem nodup_keyed_breadthFirst (n : ℕ) : (keyed key (breadthFirst key children root n)).Nodup := by
  have hkeys : ∀ xs : List α, (keyed key xs).map key = (xs.filterMap key).map some := by
    intro xs
    induction xs with
    | nil => rfl
    | cons x xs ih =>
      rcases h : key x with _ | k
      · rw [keyed_cons_of_none h, ih, List.filterMap_cons_none h]
      · rw [keyed_cons_of_some h, List.map_cons, ih, h, List.filterMap_cons_some h, List.map_cons]
  refine List.Nodup.of_map key ?_
  rw [hkeys]
  exact (nodup_keys_breadthFirst n).map fun _ _ h => Option.some.inj h

theorem level_subset {n : ℕ} {v : α} (h : v ∈ level key children root n) : v ∈ breadthFirst key children root n := by
  cases n with
  | zero => exact h
  | succ n => exact List.mem_append_right _ h

theorem breadthFirst_mono {m n : ℕ} (h : m ≤ n) {v : α} (hv : v ∈ breadthFirst key children root m) :
    v ∈ breadthFirst key children root n := by
  induction n, h using Nat.le_induction with
  | base => exact hv
  | succ n _ ih => exact List.mem_append_left _ ih

theorem exists_level {n : ℕ} {v : α} (h : v ∈ breadthFirst key children root n) :
    ∃ m ≤ n, v ∈ level key children root m := by
  induction n with
  | zero => exact ⟨0, le_rfl, h⟩
  | succ n ih =>
    rcases List.mem_append.mp h with h | h
    · obtain ⟨m, hm, hv⟩ := ih h
      exact ⟨m, Nat.le_succ_of_le hm, hv⟩
    · exact ⟨n + 1, le_rfl, h⟩

/-- **Nothing is listed but what a walk leads to.** -/
theorem reaches_of_mem_level {n : ℕ} {v : α} (h : v ∈ level key children root n) : Reaches children root n v := by
  induction n generalizing v with
  | zero => exact List.mem_singleton.mp h
  | succ n ih =>
    obtain ⟨u, hu, hv⟩ := List.mem_flatMap.mp ((fresh_sublist _ _).subset h)
    exact ⟨u, ih hu, hv⟩

theorem reaches_of_mem_breadthFirst {n : ℕ} {v : α} (h : v ∈ breadthFirst key children root n) :
    ∃ m ≤ n, Reaches children root m v := by
  obtain ⟨m, hm, hlevel⟩ := exists_level h
  exact ⟨m, hm, reaches_of_mem_level hlevel⟩

/-- Nothing comes after an empty level. -/
theorem level_eq_nil {m n : ℕ} (h : m ≤ n) (hm : level key children root m = []) : level key children root n = [] := by
  induction n, h using Nat.le_induction with
  | base => exact hm
  | succ n _ ih => rw [level_succ, ih, List.flatMap_nil, fresh]

theorem breadthFirst_eq {m n : ℕ} (h : m ≤ n) (hm : level key children root (m + 1) = []) :
    breadthFirst key children root n = breadthFirst key children root m := by
  induction n, h using Nat.le_induction with
  | base => rfl
  | succ n hmn ih =>
    rw [breadthFirst_succ, level_eq_nil (Nat.succ_le_succ hmn) hm, List.append_nil, ih]

/-! ## Keys that tell the nodes apart -/

variable (key children root) in
/-- No two nodes that walks of at most this length lead to have one key. -/
def KeysDistinct (n : ℕ) : Prop :=
  ∀ u v, (∃ m ≤ n, Reaches children root m u) → (∃ m ≤ n, Reaches children root m v) →
    ∀ k, key u = some k → key v = some k → u = v

omit [DecidableEq κ] in
theorem KeysDistinct.mono {m n : ℕ} (h : KeysDistinct key children root n) (hmn : m ≤ n) :
    KeysDistinct key children root m := by
  have hup : ∀ v, (∃ l ≤ m, Reaches children root l v) → ∃ l ≤ n, Reaches children root l v := by
    rintro v ⟨l, hl, hv⟩
    exact ⟨l, hl.trans hmn, hv⟩
  exact fun u v hu hv => h u v (hup u hu) (hup v hv)

omit [DecidableEq κ] in
/-- Nodes that are their own keys. -/
theorem keysDistinct_some (children : κ → List κ) (root : κ) (n : ℕ) : KeysDistinct some children root n := by
  rintro u v - - k ⟨⟩ ⟨⟩
  rfl

/-- **What a listed node leads to is listed**, one level later at the latest. -/
theorem child_mem_breadthFirst {n : ℕ} (h : KeysDistinct key children root (n + 1)) {u v : α}
    (hu : u ∈ breadthFirst key children root n) (hv : v ∈ children u) : v ∈ breadthFirst key children root (n + 1) := by
  obtain ⟨m, hm, hlevel⟩ := exists_level hu
  refine breadthFirst_mono (Nat.succ_le_succ hm) ?_
  have hmet : v ∈ (level key children root m).flatMap children := List.mem_flatMap.mpr ⟨u, hlevel, hv⟩
  have hreach : ∃ l ≤ n + 1, Reaches children root l v :=
    ⟨m + 1, Nat.succ_le_succ hm, u, reaches_of_mem_level hlevel, hv⟩
  -- whoever has the key of `v` is `v`
  have hself : ∀ w k, w ∈ breadthFirst key children root (m + 1) → key w = some k → key v = some k →
      v ∈ breadthFirst key children root (m + 1) := by
    intro w k hw hwk hvk
    obtain ⟨l, hl, hwreach⟩ := reaches_of_mem_breadthFirst hw
    exact h w v ⟨l, hl.trans (Nat.succ_le_succ hm), hwreach⟩ hreach k hwk hvk ▸ hw
  rcases hkey : key v with _ | k
  · exact List.mem_append_right _ (mem_fresh_of_none hmet hkey)
  · by_cases hseen : k ∈ (breadthFirst key children root m).filterMap key
    · obtain ⟨w, hw, hwk⟩ := List.mem_filterMap.mp hseen
      exact hself w k (List.mem_append_left _ hw) hwk hkey
    · obtain ⟨w, hw, hwk⟩ := exists_mem_fresh hmet hkey hseen
      exact hself w k (List.mem_append_right _ hw) hwk hkey

theorem mem_breadthFirst_of_reaches {n : ℕ} (h : KeysDistinct key children root n) {v : α}
    (hreach : Reaches children root n v) : v ∈ breadthFirst key children root n := by
  induction n generalizing v with
  | zero => exact List.mem_singleton.mpr hreach
  | succ n ih =>
    obtain ⟨u, hu, hv⟩ := hreach
    exact child_mem_breadthFirst h (ih (h.mono (Nat.le_succ n)) hu) hv

/-- **A node is listed if and only if a walk of at most that length leads to it.** -/
theorem mem_breadthFirst_iff {n : ℕ} (h : KeysDistinct key children root n) {v : α} :
    v ∈ breadthFirst key children root n ↔ ∃ m ≤ n, Reaches children root m v := by
  refine ⟨reaches_of_mem_breadthFirst, ?_⟩
  rintro ⟨m, hm, hreach⟩
  exact breadthFirst_mono hm (mem_breadthFirst_of_reaches (h.mono hm) hreach)

/-- **A level holds the nodes of its distance**: a walk of that length leads to them, and no shorter one. -/
theorem mem_level_iff {n : ℕ} (h : KeysDistinct key children root n) {v : α} {k : κ} (hkey : key v = some k) :
    v ∈ level key children root n ↔ Reaches children root n v ∧ ∀ m < n, ¬Reaches children root m v := by
  constructor
  · refine fun hmem => ⟨reaches_of_mem_level hmem, fun m hm hreach => ?_⟩
    cases n with
    | zero => exact absurd hm (Nat.not_lt_zero m)
    | succ n =>
      have hlisted := breadthFirst_mono (Nat.le_of_lt_succ hm) (mem_breadthFirst_of_reaches (h.mono hm.le) hreach)
      exact key_notMem_of_mem_fresh hmem hkey (List.mem_filterMap.mpr ⟨v, hlisted, hkey⟩)
  · rintro ⟨hreach, hfirst⟩
    obtain ⟨m, hm, hlevel⟩ := exists_level (mem_breadthFirst_of_reaches h hreach)
    rcases Nat.lt_or_eq_of_le hm with hlt | rfl
    · exact absurd (reaches_of_mem_level hlevel) (hfirst m hlt)
    · exact hlevel

/-! ## The usual order -/

section Usual

variable [DecidableEq α]

/-- Whether nodes are their own keys or not, the same nodes with a key are held. -/
theorem keyed_fresh {seen : List κ} {seen' xs : List α}
    (hseen : ∀ x ∈ xs, ∀ k, key x = some k → (k ∈ seen ↔ x ∈ seen'))
    (hxs : ∀ x ∈ xs, ∀ y ∈ xs, ∀ k, key x = some k → key y = some k → x = y) :
    keyed key (fresh key seen xs) = keyed key (fresh some seen' xs) := by
  induction xs generalizing seen seen' with
  | nil => rfl
  | cons x xs ih =>
    rw [List.forall_mem_cons] at hseen
    have hrest : ∀ y ∈ xs, ∀ z ∈ xs, ∀ k, key y = some k → key z = some k → y = z :=
      fun y hy z hz => hxs y (List.mem_cons_of_mem _ hy) z (List.mem_cons_of_mem _ hz)
    have hself : some x = some x := rfl
    rcases h : key x with _ | k
    · -- a node without a key is filtered out on both sides
      rw [fresh_cons_of_none h, keyed_cons_of_none h]
      by_cases hx : x ∈ seen'
      · rw [fresh_cons_of_mem hself hx]
        exact ih hseen.2 hrest
      · rw [fresh_cons_of_new hself hx, keyed_cons_of_none h]
        refine ih (fun y hy k hk => (hseen.2 y hy k hk).trans ?_) hrest
        refine ⟨List.mem_cons_of_mem _, fun hmem => (List.mem_cons.mp hmem).resolve_left ?_⟩
        rintro rfl
        rw [h] at hk
        cases hk
    · by_cases hk : k ∈ seen
      · rw [fresh_cons_of_mem h hk, fresh_cons_of_mem hself ((hseen.1 k h).mp hk)]
        exact ih hseen.2 hrest
      · rw [fresh_cons_of_new h hk, fresh_cons_of_new hself (mt (hseen.1 k h).mpr hk),
          keyed_cons_of_some h, keyed_cons_of_some h]
        refine congrArg (x :: ·) (ih (fun y hy k' hk' => ?_) hrest)
        have hsame : k' = k ↔ y = x := by
          refine ⟨?_, ?_⟩
          · rintro rfl
            exact hxs y (List.mem_cons_of_mem _ hy) x List.mem_cons_self k' hk' h
          · rintro rfl
            exact Option.some.inj (hk'.symm.trans h)
        rw [List.mem_cons, List.mem_cons, hsame, hseen.2 y hy k' hk']

omit [DecidableEq κ] [DecidableEq α] in
/-- What a node without a key leads to does not count if it leads to nothing. -/
theorem flatMap_keyed {xs : List α} (hchildless : ∀ v ∈ xs, key v = none → children v = []) :
    (keyed key xs).flatMap children = xs.flatMap children := by
  induction xs with
  | nil => rfl
  | cons x xs ih =>
    rw [List.forall_mem_cons] at hchildless
    rcases h : key x with _ | k
    · rw [keyed_cons_of_none h, ih hchildless.2, List.flatMap_cons, hchildless.1 h, List.nil_append]
    · rw [keyed_cons_of_some h, List.flatMap_cons, ih hchildless.2, List.flatMap_cons]

/-- **Breadth-first order by keys is the usual one**, as far as nodes with a key go: keys tell apart the nodes that are
reached, and nothing comes after a node without one. -/
theorem keyed_breadthFirst {n : ℕ} (h : KeysDistinct key children root n)
    (hchildless : ∀ v, (∃ m ≤ n, Reaches children root m v) → key v = none → children v = []) :
    keyed key (breadthFirst key children root n) = keyed key (breadthFirst some children root n) := by
  suffices hboth : keyed key (level key children root n) = keyed key (level some children root n) ∧
      keyed key (breadthFirst key children root n) = keyed key (breadthFirst some children root n) from hboth.2
  induction n with
  | zero => exact ⟨rfl, rfl⟩
  | succ n ih =>
    have hchildless' : ∀ v, (∃ m ≤ n, Reaches children root m v) → key v = none → children v = [] := by
      rintro v ⟨m, hm, hv⟩
      exact hchildless v ⟨m, Nat.le_succ_of_le hm, hv⟩
    obtain ⟨hlevel, hlisted⟩ := ih (h.mono (Nat.le_succ n)) hchildless'
    have hmet : (level key children root n).flatMap children = (level some children root n).flatMap children := by
      rw [← flatMap_keyed fun v hv => hchildless' v ⟨n, le_rfl, reaches_of_mem_level hv⟩, hlevel,
        flatMap_keyed fun v hv => hchildless' v ⟨n, le_rfl, reaches_of_mem_level hv⟩]
    have hreach : ∀ x ∈ (level some children root n).flatMap children, ∃ m ≤ n + 1, Reaches children root m x := by
      intro x hx
      obtain ⟨u, hu, hux⟩ := List.mem_flatMap.mp hx
      exact ⟨n + 1, le_rfl, u, reaches_of_mem_level hu, hux⟩
    have hnew : keyed key (level key children root (n + 1)) = keyed key (level some children root (n + 1)) := by
      rw [level_succ, level_succ, hmet]
      refine keyed_fresh (fun x hx k hk => ?_) fun x hx y hy => h x y (hreach x hx) (hreach y hy)
      have hmem : x ∈ breadthFirst key children root n ↔ x ∈ breadthFirst some children root n := by
        have hiff : x ∈ keyed key _ ↔ x ∈ keyed key _ := iff_of_eq (congrArg (x ∈ ·) hlisted)
        rwa [mem_keyed, mem_keyed, and_iff_left ⟨k, hk⟩, and_iff_left ⟨k, hk⟩] at hiff
      rw [List.filterMap_some, ← hmem, List.mem_filterMap]
      refine ⟨?_, fun hx' => ⟨x, hx', hk⟩⟩
      rintro ⟨y, hy, hyk⟩
      obtain ⟨m, hm, hyreach⟩ := reaches_of_mem_breadthFirst hy
      exact h y x ⟨m, Nat.le_succ_of_le hm, hyreach⟩ (hreach x hx) k hyk hk ▸ hy
    exact ⟨hnew, by rw [breadthFirst_succ, breadthFirst_succ, keyed_append, keyed_append, hlisted, hnew]⟩

end Usual

end Machinery

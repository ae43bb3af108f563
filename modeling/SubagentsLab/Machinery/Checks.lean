import Mathlib.Tactic.SplitIfs

/-!
# Machinery/Checks — computations that may fail

What a computation in `Except` that returned must have done: each step of it returned (`bind_eq_ok_iff`),
and each check on the way passed (`ite_eq_ok_iff`); over a list, each element's step (`eq_map_of_mapM`).
-/

namespace Machinery

namespace Checks

universe u v

variable {ε : Type u} {α β : Type v}

/-- Both steps returned. -/
theorem bind_eq_ok_iff {x : Except ε α} {f : α → Except ε β} {b : β} :
    (x >>= f) = .ok b ↔ ∃ a, x = .ok a ∧ f a = .ok b := by
  cases x with
  | error e => exact ⟨fun h => (nomatch h), fun ⟨_, h, _⟩ => (nomatch h)⟩
  | ok a => exact ⟨fun h => ⟨a, rfl, h⟩, fun ⟨_, h, hf⟩ => by cases h; exact hf⟩

/-- A check that gives nothing passed, and then the rest returned. -/
theorem check_eq_ok_iff {x : Except ε PUnit} {y : Except ε β} {b : β} :
    (x >>= fun _ => y) = .ok b ↔ x = .ok ⟨⟩ ∧ y = .ok b :=
  bind_eq_ok_iff.trans ⟨fun ⟨_, h⟩ => h, fun h => ⟨_, h⟩⟩

theorem map_eq_ok_iff {x : Except ε α} {f : α → β} {b : β} : x.map f = .ok b ↔ ∃ a, x = .ok a ∧ f a = b := by
  cases x with
  | error e => exact ⟨fun h => (nomatch h), fun ⟨_, h, _⟩ => (nomatch h)⟩
  | ok a => exact ⟨fun h => ⟨a, rfl, by cases h; rfl⟩, fun ⟨_, h, hf⟩ => by cases h; rw [← hf]; rfl⟩

/-- The check passed. -/
theorem ite_eq_ok_iff {p : Prop} [Decidable p] {e : ε} {x : Except ε α} {a : α} :
    (if p then .error e else x) = .ok a ↔ ¬p ∧ x = .ok a := by
  split_ifs with hp <;> simp [hp]

theorem bind_eq_error_iff {x : Except ε α} {f : α → Except ε β} {e : ε} :
    (x >>= f) = .error e ↔ x = .error e ∨ ∃ a, x = .ok a ∧ f a = .error e := by
  cases x with
  | error e' => exact ⟨fun h => .inl (by cases h; rfl), fun h => h.elim (fun h => by cases h; rfl) fun ⟨_, h, _⟩ => (nomatch h)⟩
  | ok a => exact ⟨fun h => .inr ⟨a, rfl, h⟩, fun h => h.elim (fun h => (nomatch h)) fun ⟨_, h, hf⟩ => by cases h; exact hf⟩

/-! ## Over a list -/

/-- What a step gives of each element, all steps give of the list. -/
theorem eq_map_of_mapM {γ : Type*} {f : γ → Except ε α} {g : γ → α} (hg : ∀ x a, f x = .ok a → a = g x) {xs : List γ}
    {as : List α} (h : xs.mapM f = .ok as) : as = xs.map g := by
  induction xs generalizing as with
  | nil =>
    cases h
    rfl
  | cons x xs ih =>
    rw [List.mapM_cons] at h
    obtain ⟨a, ha, hrest⟩ := bind_eq_ok_iff.mp h
    obtain ⟨as', has', heq⟩ := bind_eq_ok_iff.mp hrest
    cases heq
    rw [List.map_cons, hg x a ha, ih has']

theorem exists_mapM_eq_ok_iff {γ : Type*} {f : γ → Except ε α} {xs : List γ} :
    (∃ as, xs.mapM f = .ok as) ↔ ∀ x ∈ xs, ∃ a, f x = .ok a := by
  induction xs with
  | nil => exact ⟨fun _ _ hx => (nomatch hx), fun _ => ⟨[], rfl⟩⟩
  | cons x xs ih =>
    simp only [List.mapM_cons, List.forall_mem_cons, ← ih, bind_eq_ok_iff]
    constructor
    · rintro ⟨_, a, ha, as, has, -⟩
      exact ⟨⟨a, ha⟩, as, has⟩
    · rintro ⟨⟨a, ha⟩, as, has⟩
      exact ⟨a :: as, a, ha, as, has, rfl⟩

/-- `all` of a list: it stops at the first element that is not. -/
theorem allM_eq_ok {γ : Type*} {p : γ → Except ε Bool} {xs : List γ} {b : Bool} (h : xs.allM p = .ok b) :
    b = true ↔ ∀ x ∈ xs, p x = .ok true := by
  induction xs with
  | nil =>
    cases h
    simp
  | cons x xs ih =>
    obtain ⟨b', hb', hrest⟩ := bind_eq_ok_iff.mp h
    cases b' with
    | false =>
      cases hrest
      simp [hb']
    | true =>
      rw [ih hrest, List.forall_mem_cons]
      exact ⟨fun hall => ⟨hb', hall⟩, fun hall => hall.2⟩

theorem exists_allM_eq_ok {γ : Type*} {p : γ → Except ε Bool} {xs : List γ} (h : ∀ x ∈ xs, ∃ b, p x = .ok b) :
    ∃ b, xs.allM p = .ok b := by
  induction xs with
  | nil => exact ⟨true, rfl⟩
  | cons x xs ih =>
    obtain ⟨b, hb⟩ := h x List.mem_cons_self
    cases b with
    | false => exact ⟨false, bind_eq_ok_iff.mpr ⟨false, hb, rfl⟩⟩
    | true =>
      obtain ⟨b', hb'⟩ := ih fun y hy => h y (List.mem_cons_of_mem _ hy)
      exact ⟨b', bind_eq_ok_iff.mpr ⟨true, hb, hb'⟩⟩

theorem exists_of_mapM_eq_error {γ : Type*} {f : γ → Except ε α} {xs : List γ} {e : ε} (h : xs.mapM f = .error e) :
    ∃ x ∈ xs, f x = .error e := by
  induction xs with
  | nil => cases h
  | cons x xs ih =>
    rw [List.mapM_cons] at h
    rcases bind_eq_error_iff.mp h with h | ⟨a, -, h⟩
    · exact ⟨x, List.mem_cons_self, h⟩
    · rcases bind_eq_error_iff.mp h with h | ⟨as, -, h⟩
      · obtain ⟨y, hy, hfy⟩ := ih h
        exact ⟨y, List.mem_cons_of_mem _ hy, hfy⟩
      · cases h

/-- A fold that fails has failed at one of its steps. -/
theorem exists_of_foldlM_eq_error {γ : Type*} {f : α → γ → Except ε α} {xs : List γ} {a : α} {e : ε}
    (h : xs.foldlM f a = .error e) : ∃ b, ∃ x ∈ xs, f b x = .error e := by
  induction xs generalizing a with
  | nil => cases h
  | cons x xs ih =>
    rw [List.foldlM_cons] at h
    rcases bind_eq_error_iff.mp h with h | ⟨b, -, h⟩
    · exact ⟨a, x, List.mem_cons_self, h⟩
    · obtain ⟨b, y, hy, hfails⟩ := ih h
      exact ⟨b, y, List.mem_cons_of_mem _ hy, hfails⟩

theorem map_eq_error_iff {x : Except ε α} {f : α → β} {e : ε} : x.map f = .error e ↔ x = .error e := by
  cases x with
  | error e' => exact ⟨fun h => congrArg _ (Except.error.inj h), fun h => congrArg _ (Except.error.inj h)⟩
  | ok a => exact ⟨fun h => (nomatch h), fun h => (nomatch h)⟩

/-! ## A list of checks -/

/-- The checks one after the other, as far as the first that fails. -/
def runAll : List (Except ε PUnit) → Except ε PUnit
  | [] => .ok ⟨⟩
  | c :: cs => c >>= fun _ => runAll cs

theorem runAll_eq_ok_iff {cs : List (Except ε PUnit)} : runAll cs = .ok ⟨⟩ ↔ ∀ c ∈ cs, c = .ok ⟨⟩ := by
  induction cs with
  | nil => simp [runAll]
  | cons c cs ih => rw [runAll, check_eq_ok_iff, ih, List.forall_mem_cons]

/-- What is raised is what some check raises. -/
theorem mem_of_runAll_eq_error {cs : List (Except ε PUnit)} {e : ε} (h : runAll cs = .error e) : .error e ∈ cs := by
  induction cs with
  | nil => cases h
  | cons c cs ih =>
    rcases bind_eq_error_iff.mp h with hc | ⟨_, -, hrest⟩
    · exact hc ▸ List.mem_cons_self
    · exact List.mem_cons_of_mem _ (ih hrest)

end Checks

end Machinery

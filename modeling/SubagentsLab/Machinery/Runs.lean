import Mathlib.Data.List.Basic

/-!
# Machinery/Runs — runs of an event-driven machine

A machine is a total step function on its state; all nondeterminism (which callback returns next,
which timer fires, who is cancelled) sits in the list of events that drives it.  A statement about
every interleaving is therefore a statement about every list of events, and an invariant is proved
one step at a time (`run_invariant`).  `Guarded` restricts a run to steps that meet a condition read
off the state they start from.
-/

namespace Machinery

variable {σ ε ο : Type*}

/-- The state a list of events drives a machine into. -/
def run (step : σ → ε → σ) (s : σ) (es : List ε) : σ := es.foldl step s

variable {step : σ → ε → σ}

@[simp] theorem run_nil (s : σ) : run step s [] = s := rfl

@[simp] theorem run_cons (s : σ) (e : ε) (es : List ε) :
    run step s (e :: es) = run step (step s e) es := rfl

@[simp] theorem run_append (s : σ) (es fs : List ε) :
    run step s (es ++ fs) = run step (run step s es) fs := List.foldl_append

/-! ## Guarded runs -/

/-- Every step of the run meets `P`, judged on the state the step starts from. -/
def Guarded (step : σ → ε → σ) (P : σ → ε → Prop) : σ → List ε → Prop
  | _, [] => True
  | s, e :: es => P s e ∧ Guarded step P (step s e) es

instance decidableGuarded (P : σ → ε → Prop) [∀ s e, Decidable (P s e)] :
    ∀ (s : σ) (es : List ε), Decidable (Guarded step P s es)
  | _, [] => inferInstanceAs (Decidable True)
  | s, e :: es =>
    have := decidableGuarded P (step s e) es
    inferInstanceAs (Decidable (P s e ∧ Guarded step P (step s e) es))

theorem guarded_append {P : σ → ε → Prop} (s : σ) (es fs : List ε) :
    Guarded step P s (es ++ fs) ↔ Guarded step P s es ∧ Guarded step P (run step s es) fs := by
  induction es generalizing s with
  | nil => simp [Guarded]
  | cons e es ih => simp only [List.cons_append, Guarded, ih, run_cons, and_assoc]

/-! ## The invariant rules -/

/-- **The invariant rule**: what every guarded step preserves, every guarded run preserves. -/
theorem run_invariant {P : σ → ε → Prop} {I : σ → Prop}
    (hstep : ∀ s e, I s → P s e → I (step s e)) {s : σ} {es : List ε}
    (h0 : I s) (hg : Guarded step P s es) : I (run step s es) := by
  induction es generalizing s with
  | nil => exact h0
  | cons e es ih => exact ih (hstep s e h0 hg.1) hg.2

/-- The invariant rule for a machine whose every step preserves the invariant. -/
theorem run_invariant_of_step {I : σ → Prop} (hstep : ∀ s e, I s → I (step s e)) {s : σ}
    (h0 : I s) (es : List ε) : I (run step s es) := by
  induction es generalizing s with
  | nil => exact h0
  | cons e es ih => exact ih (hstep s e h0)

/-- The invariant rule for events that each meet a condition of their own. -/
theorem run_invariant_of_forall {I : σ → Prop} {Q : ε → Prop} (hstep : ∀ s e, I s → Q e → I (step s e)) {s : σ}
    (h0 : I s) {es : List ε} (hes : ∀ e ∈ es, Q e) : I (run step s es) := by
  induction es generalizing s with
  | nil => exact h0
  | cons e es ih =>
    exact ih (hstep s e h0 (hes e List.mem_cons_self)) fun x hx => hes x (List.mem_cons_of_mem _ hx)

/-! ## Machines with outputs -/

/-- The outputs of a run, oldest first. -/
def outputs (step : σ → ε → σ × List ο) : σ → List ε → List ο
  | _, [] => []
  | s, e :: es => (step s e).2 ++ outputs step (step s e).1 es

@[simp] theorem outputs_append (step : σ → ε → σ × List ο) (s : σ) (es fs : List ε) :
    outputs step s (es ++ fs)
      = outputs step s es ++ outputs step (run (fun s e => (step s e).1) s es) fs := by
  induction es generalizing s with
  | nil => rfl
  | cons e es ih => simp only [List.cons_append, outputs, ih, run_cons, List.append_assoc]

end Machinery

import SubagentsLab.Machinery.Runs

/-!
# Machinery/Protocol — outputs that follow a protocol

A protocol is an automaton over labels that may refuse one.  The labels of a machine's outputs follow it when
every step takes the automaton from where it stands before the step to where it stands after it, both read off
the machine's state: the machine refines the automaton (`follows_outputs`).
-/

namespace Machinery

variable {σ ε ο ℓ α : Type*}

/-- The labels take the protocol from `a` to `b`, and it refuses none of them. -/
def Follows (next : α → ℓ → Option α) (a : α) (labels : List ℓ) (b : α) : Prop := labels.foldlM next a = some b

variable {next : α → ℓ → Option α}

instance [DecidableEq α] (a : α) (labels : List ℓ) (b : α) : Decidable (Follows next a labels b) :=
  inferInstanceAs (Decidable (labels.foldlM next a = some b))

theorem Follows.refl (a : α) : Follows next a [] a := rfl

theorem follows_cons_iff {a c : α} {l : ℓ} {labels : List ℓ} :
    Follows next a (l :: labels) c ↔ ∃ b, next a l = some b ∧ Follows next b labels c := by
  rw [Follows, List.foldlM_cons]
  exact Option.bind_eq_some_iff

theorem Follows.single {a b : α} {l : ℓ} (h : next a l = some b) : Follows next a [l] b :=
  follows_cons_iff.mpr ⟨b, h, .refl b⟩

theorem Follows.append {a b c : α} {labels labels' : List ℓ} (h : Follows next a labels b) (h' : Follows next b labels' c) :
    Follows next a (labels ++ labels') c := by
  rw [Follows, List.foldlM_append, h]
  exact h'

/-- What a protocol counts as it goes, its labels count. -/
theorem Follows.count {a b : α} {labels : List ℓ} (h : Follows next a labels b) (weight : α → ℕ) (p : ℓ → Bool)
    (hnext : ∀ a l b, next a l = some b → weight b = weight a + if p l then 1 else 0) :
    weight b = weight a + labels.countP p := by
  induction labels generalizing a with
  | nil => rw [Option.some.inj h, List.countP_nil, Nat.add_zero]
  | cons l labels ih =>
    obtain ⟨c, hc, hrest⟩ := follows_cons_iff.mp h
    rw [ih hrest, hnext a l c hc, List.countP_cons]
    omega

/-- **The refinement rule**: if every step that keeps the invariant follows the protocol, every run does. -/
theorem follows_outputs {step : σ → ε → σ × List ο} {I : σ → Prop} (stand : σ → α) {label : ο → Option ℓ}
    (hstep : ∀ s e, I s → I (step s e).1 ∧ Follows next (stand s) ((step s e).2.filterMap label) (stand (step s e).1))
    {s : σ} (h0 : I s) (es : List ε) :
    Follows next (stand s) ((outputs step s es).filterMap label) (stand (run (fun s e => (step s e).1) s es)) := by
  induction es generalizing s with
  | nil => exact .refl _
  | cons e es ih =>
    obtain ⟨hkept, hfollows⟩ := hstep s e h0
    rw [outputs, List.filterMap_append]
    exact hfollows.append (ih hkept)

end Machinery

import SubagentsLab.Machinery.Protocol

/-!
# Services/Clients — the wire client of a speech service

`LocalSTT` and `LocalTTS` make a client of the local speech server when they need one and keep it (`_client`) for the
calls that come after, until somebody aborts it.  A client is **open** from when it is made until it is closed: it is
the one that is kept.  Whoever takes a client takes an open one, and nobody takes it again once it is closed
(`ClientStage.next`).
-/

namespace SubagentsLab

open Machinery

/-- The client a service keeps.  Clients are numbered as they are made. -/
structure ClientSlot where
  client : Option ℕ := none
  nextClient : ℕ := 0
  made : ∀ c ∈ client, c < nextClient := by intro _ hc; cases hc
  deriving DecidableEq

namespace ClientSlot

/-- No client has been made. -/
def empty : ClientSlot := {}

variable (s : ClientSlot)

/-- The factory makes a client, which is kept. -/
def create : ClientSlot := ⟨some s.nextClient, s.nextClient + 1, fun c hc => by
  rw [Option.mem_some_iff] at hc
  exact hc ▸ Nat.lt_succ_self _⟩

/-- A client is not kept any longer. -/
def drop (c : ℕ) : ClientSlot :=
  ⟨s.client.filter (· ≠ c), s.nextClient, fun d hd => s.made d (Option.filter_eq_some_iff.mp hd).1⟩

end ClientSlot

/-- What is done with a client. -/
inductive ClientLabel
  | created
  | acquired
  | closed
  deriving DecidableEq, Repr

/-- Where a client is. -/
inductive ClientStage
  | unmade
  | opened
  | closed
  deriving DecidableEq, Repr

/-- **A client is made once, taken while it is open, and not opened again.** -/
def ClientStage.next : ClientStage → ClientLabel → Option ClientStage
  | unmade, .created => some opened
  | opened, .acquired => some opened
  | opened, .closed => some closed
  | closed, .closed => some closed
  | _, _ => none

namespace ClientSlot

variable {s : ClientSlot} {c d : ℕ}

/-- Where a client is, for a service: only the one that is kept is open. -/
def stage (s : ClientSlot) (c : ℕ) : ClientStage :=
  if s.client = some c then .opened else if c < s.nextClient then .closed else .unmade

theorem stage_of_client (h : s.client = some c) : s.stage c = .opened := if_pos h

theorem stage_create_self (s : ClientSlot) : s.create.stage s.nextClient = .opened := if_pos rfl

theorem stage_nextClient (s : ClientSlot) : s.stage s.nextClient = .unmade := by
  have hnot : s.client ≠ some s.nextClient := fun h => absurd (s.made _ h) (Nat.lt_irrefl _)
  rw [stage, if_neg hnot, if_neg (Nat.lt_irrefl _)]

/-- A client is made when none is kept. -/
theorem stage_create_of_ne (hnone : s.client = none) (hne : c ≠ s.nextClient) : s.create.stage c = s.stage c := by
  have hnew : s.create.client ≠ some c := fun h => hne (Option.some.inj h).symm
  have hold : s.client ≠ some c := by
    rw [hnone]
    rintro ⟨⟩
  rw [stage, stage, if_neg hnew, if_neg hold]
  have hlt : c < s.create.nextClient ↔ c < s.nextClient := by
    change c < s.nextClient + 1 ↔ c < s.nextClient
    omega
  rw [if_congr hlt rfl rfl]

theorem client_drop : (s.drop c).client = some d ↔ s.client = some d ∧ d ≠ c := by
  simp [drop, Option.filter_eq_some_iff]

theorem stage_drop_self (h : c < s.nextClient) : (s.drop c).stage c = .closed := by
  have hnot : (s.drop c).client ≠ some c := fun hc => (client_drop.mp hc).2 rfl
  rw [stage, if_neg hnot]
  exact if_pos h

theorem stage_drop_of_ne (hne : d ≠ c) : (s.drop c).stage d = s.stage d := by
  have hiff : (s.drop c).client = some d ↔ s.client = some d := by
    rw [client_drop, and_iff_left hne]
  rw [stage, stage, if_congr hiff rfl rfl]
  rfl

/-- A client that has been made can be closed. -/
theorem closed_of_made (h : c < s.nextClient) : (s.stage c).next .closed = some .closed := by
  rw [stage]
  split_ifs <;> rfl

end ClientSlot

end SubagentsLab

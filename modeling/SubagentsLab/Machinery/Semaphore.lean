import Mathlib.Data.List.Count

/-!
# Machinery/Semaphore — permits handed out first come, first served

A semaphore of an event loop: a task that finds it locked queues, and a permit that comes back is handed
to the first task in the queue that has none yet, before that task runs again.  A permit is therefore
free, handed to a task that is still queued, or out; `release` and `resume` move one from one place to the
next (`permits_release`, `permits_resume`).
-/

namespace Machinery

/-- A task in the queue of a semaphore, and whether a permit has been handed to it. -/
structure Waiter where
  task : ℕ
  granted : Bool := false
  deriving DecidableEq, Repr

/-- A semaphore: its free permits, and its queue. -/
structure Semaphore where
  value : ℕ
  waiters : List Waiter := []
  deriving DecidableEq, Repr

namespace Semaphore

variable (s : Semaphore)

/-- `locked`: no permit is free, or somebody is in the queue. -/
def locked : Bool := s.value = 0 ∨ s.waiters ≠ []

/-- A task that does not find the semaphore locked takes a permit. -/
def take : Semaphore := { s with value := s.value - 1 }

/-- A task that finds it locked queues. -/
def wait (task : ℕ) : Semaphore := { s with waiters := s.waiters ++ [{ task }] }

/-- Hand a permit to the first in a queue that has none; `none` if there is nobody. -/
def grantFirst : List Waiter → Option (List Waiter)
  | [] => none
  | w :: ws => if w.granted then (grantFirst ws).map (w :: ·) else some ({ w with granted := true } :: ws)

/-- `_wake_up_next`, where a permit is free; `none` if there is nobody to wake. -/
def wakeUpNext : Option Semaphore :=
  (grantFirst s.waiters).map fun waiters => { value := s.value - 1, waiters }

/-- `release`. -/
def release : Semaphore :=
  let s : Semaphore := { s with value := s.value + 1 }
  s.wakeUpNext.getD s

/-- Wake up as many as are allowed, while permits are free. -/
def wakeUp : ℕ → Semaphore → Semaphore
  | 0, s => s
  | n + 1, s => (s.wakeUpNext.map (wakeUp n)).getD s

/-- A permit has been handed to the task, which is still queued. -/
def isGranted (task : ℕ) : Bool := (⟨task, true⟩ : Waiter) ∈ s.waiters

/-- The end of `acquire`, in a task that was handed a permit: it leaves the queue. -/
def resume (task : ℕ) : Semaphore :=
  wakeUp s.value { s with waiters := s.waiters.erase ⟨task, true⟩ }

/-- The permits that are not out: free ones, and those of tasks still in the queue. -/
def permits : ℕ := s.value + s.waiters.countP Waiter.granted

/-! ## Where the permits are -/

theorem countP_grantFirst {ws ws' : List Waiter} (h : grantFirst ws = some ws') :
    ws'.countP Waiter.granted = ws.countP Waiter.granted + 1 := by
  induction ws generalizing ws' with
  | nil => cases h
  | cons w ws ih =>
    rw [grantFirst] at h
    split_ifs at h with hw
    · obtain ⟨rest, hrest, rfl⟩ := Option.map_eq_some_iff.mp h
      rw [List.countP_cons_of_pos hw, List.countP_cons_of_pos hw, ih hrest]
    · cases h
      rw [List.countP_cons_of_pos rfl, List.countP_cons_of_neg hw]

theorem permits_wakeUpNext {s s' : Semaphore} (hfree : 0 < s.value) (h : s.wakeUpNext = some s') :
    s'.permits = s.permits := by
  obtain ⟨ws, hws, rfl⟩ := Option.map_eq_some_iff.mp h
  simp only [permits, countP_grantFirst hws]
  omega

theorem value_wakeUpNext {s s' : Semaphore} (h : s.wakeUpNext = some s') : s'.value = s.value - 1 := by
  obtain ⟨ws, -, rfl⟩ := Option.map_eq_some_iff.mp h
  rfl

/-- Waking moves free permits into the queue. -/
theorem permits_wakeUp {n : ℕ} {s : Semaphore} (h : n ≤ s.value) : (wakeUp n s).permits = s.permits := by
  induction n generalizing s with
  | zero => rfl
  | succ n ih =>
    rw [wakeUp]
    rcases hnext : s.wakeUpNext with _ | s'
    · rfl
    · have hvalue := value_wakeUpNext hnext
      rw [Option.map_some, Option.getD_some, ih (by omega), permits_wakeUpNext (by omega) hnext]

theorem permits_take {s : Semaphore} (h : s.locked = false) : s.take.permits + 1 = s.permits := by
  simp only [locked, decide_eq_false_iff_not, not_or] at h
  simp only [permits, take]
  omega

@[simp] theorem permits_wait (task : ℕ) : (s.wait task).permits = s.permits := by
  simp [permits, wait]

theorem permits_release : s.release.permits = s.permits + 1 := by
  have hfreed : ({ s with value := s.value + 1 } : Semaphore).permits = s.permits + 1 := by
    simp only [permits]
    omega
  simp only [release]
  rcases hnext : ({ s with value := s.value + 1 } : Semaphore).wakeUpNext with _ | s'
  · exact hfreed
  · exact (permits_wakeUpNext (Nat.succ_pos _) hnext).trans hfreed

theorem permits_resume {s : Semaphore} {task : ℕ} (h : s.isGranted task = true) :
    (s.resume task).permits + 1 = s.permits := by
  have hmem : (⟨task, true⟩ : Waiter) ∈ s.waiters := of_decide_eq_true h
  have hcount := (List.perm_cons_erase hmem).countP_eq Waiter.granted
  rw [List.countP_cons_of_pos rfl] at hcount
  have hleft : s.value ≤ ({ s with waiters := s.waiters.erase ⟨task, true⟩ } : Semaphore).value := Nat.le_refl _
  rw [resume, permits_wakeUp hleft, permits, permits, hcount, Nat.add_assoc]

end Semaphore

end Machinery

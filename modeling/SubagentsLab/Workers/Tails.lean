import Mathlib.Data.List.Induction
import SubagentsLab.Workers.ItemLoop

/-!
# Workers/Tails — provider work is serial per worker, for lone waiters

The tail is read before the wait and written after it, so two items that wait for the same tail both
go ahead when it is done (`three_items_overlap`).  As long as no item takes its first step while
another item of its worker is waiting, provider tasks of one worker are created one at a time, in
submission order (`provider_serialized`).
-/

namespace SubagentsLab

open Machinery

namespace ItemLoop

/-! ## Lone waiters -/

/-- Item `i` of the worker waits for tail `p`, and was not cancelled. -/
def Waiting (s : ItemLoop) (w : String) (i p : ℕ) : Prop :=
  (∃ text, s.kind i = some (.item w text)) ∧ (s.tasks i).phase = .suspended (.shield p false)

/-- Item `i` of the worker is waiting, whatever its tail. -/
def isWaiting (s : ItemLoop) (w : String) (i : ℕ) : Bool :=
  match s.kind i, (s.tasks i).phase with
  | some (.item w' _), .suspended (.shield _ false) => w' = w
  | _, _ => false

/-- No item takes its first step while another item of its worker is waiting; a step that only
drops a cancelled item is free. -/
def LoneWaiter (s : ItemLoop) : Event → Prop
  | .run =>
    match s.kind s.stepped with
    | some (.item w _) =>
      (s.tasks s.stepped).mustCancel = true ∨ ∀ i < s.created, s.isWaiting w i = false
    | _ => True
  | _ => True

instance (s : ItemLoop) : (e : Event) → Decidable (s.LoneWaiter e)
  | .run =>
    match h : s.kind s.stepped with
    | some (.item w _) => decidable_of_iff
        ((s.tasks s.stepped).mustCancel = true ∨ ∀ i < s.created, s.isWaiting w i = false)
        (by simp [LoneWaiter, h])
    | some (.provider _ _ _) => isTrue (by simp [LoneWaiter, h])
    | none => isTrue (by simp [LoneWaiter, h])
  | .submit _ | .owns _ | .wake _ | .finish _ _ | .cancel _ | .release _ => isTrue trivial

/-- **The tail invariant.**  A provider task in flight is its worker's tail; a worker has at most one
waiting item, which waits for the provider task in flight if there is one; and provider tasks are
created in the order of their items, ahead of every item still waiting. -/
structure OneAtATime (s : ItemLoop) : Prop where
  stepped_le : s.stepped ≤ s.created
  unborn : ∀ i, s.created ≤ i → s.kind i = none
  fresh : ∀ i, s.stepped ≤ i → (s.tasks i).phase = .fresh
  noted : ∀ i p, (s.tasks i).phase = .suspended (.shield p true) → 0 < (s.tasks i).cancelRequests
  tail : ∀ w p, s.InFlight w p → s.tails w = some p
  lone : ∀ w i j p q, s.Waiting w i p → s.Waiting w j q → i = j
  waits : ∀ w i p q, s.Waiting w i p → s.InFlight w q → q = p
  owner : ∀ p w text i, s.kind p = some (.provider w text i) → i < s.stepped
  ordered : ∀ w p q t u i j, p < q → s.kind p = some (.provider w t i) →
    s.kind q = some (.provider w u j) → i < j
  behind : ∀ w p t i j q, s.kind p = some (.provider w t i) → s.Waiting w j q → i < j

variable {cfg : CoordinatorConfig} {s s' : ItemLoop} {e : Event} {w text : String} {i p : ℕ}

theorem oneAtATime_init : OneAtATime {} where
  stepped_le := Nat.le_refl _
  unborn := by simp
  fresh := by simp
  noted := by simp
  tail := by simp [InFlight]
  lone := by simp [Waiting]
  waits := by simp [Waiting]
  owner := by simp
  ordered := by simp
  behind := by simp

/-- A step that creates no task, puts no provider task back in flight and makes no item wait. -/
theorem OneAtATime.mono (h : s.OneAtATime) (hkind : s'.kind = s.kind)
    (hcreated : s'.created = s.created) (hstepped : s.stepped ≤ s'.stepped)
    (hle : s'.stepped ≤ s.created) (hfresh : ∀ i, s'.stepped ≤ i → (s'.tasks i).phase = .fresh)
    (hnoted : ∀ i p, (s'.tasks i).phase = .suspended (.shield p true) →
      0 < (s'.tasks i).cancelRequests)
    (hflight : ∀ w p, s'.InFlight w p →
      s.InFlight w p ∧ (s.tails w = some p → s'.tails w = some p))
    (hwait : ∀ w i p, s'.Waiting w i p → s.Waiting w i p) : s'.OneAtATime where
  stepped_le := hcreated ▸ hle
  unborn := by rw [hcreated, hkind]; exact h.unborn
  fresh := hfresh
  noted := hnoted
  tail := fun w p hp => (hflight w p hp).2 (h.tail w p (hflight w p hp).1)
  lone := fun w i j p q hi hj => h.lone w i j p q (hwait w i p hi) (hwait w j q hj)
  waits := fun w i p q hi hq => h.waits w i p q (hwait w i p hi) (hflight w q hq).1
  owner := fun p w text i hp => Nat.lt_of_lt_of_le (h.owner p w text i (hkind ▸ hp)) hstepped
  ordered := by rw [hkind]; exact h.ordered
  behind := fun w p t i j q hp hj => h.behind w p t i j q (hkind ▸ hp) (hwait w j q hj)

/-- A task that is not done runs on, but into no shield. -/
theorem OneAtATime.resume (h : s.OneAtATime) (phase : TaskPhase) (hi : i < s.stepped)
    (hopen : (s.tasks i).isDone = false) (hphase : ∀ q c, phase ≠ .suspended (.shield q c)) :
    (s.resume i phase).OneAtATime := by
  refine h.mono rfl rfl (Nat.le_refl _) h.stepped_le ?_ ?_ ?_ ?_
  · intro j hj
    have hne : j ≠ i := by rintro rfl; exact absurd hi (Nat.not_lt.mpr hj)
    simpa [ItemLoop.resume, hne] using h.fresh j hj
  · intro j p hp
    rcases eq_or_ne j i with rfl | hne
    · exact absurd (by simpa [ItemLoop.resume] using hp) (hphase p true)
    · simpa [ItemLoop.resume, hne] using h.noted j p (by simpa [ItemLoop.resume, hne] using hp)
  · rintro w p ⟨hp, hd⟩
    refine ⟨⟨hp, ?_⟩, id⟩
    rcases eq_or_ne p i with rfl | hne
    · exact hopen
    · simpa [ItemLoop.resume, hne] using hd
  · rintro w j p ⟨hj, hp⟩
    refine ⟨hj, ?_⟩
    rcases eq_or_ne j i with rfl | hne
    · exact absurd (by simpa [ItemLoop.resume] using hp) (hphase p false)
    · simpa [ItemLoop.resume, hne] using hp

/-- The loop has taken the next first step. -/
theorem OneAtATime.advance (h : s.OneAtATime) (hlt : s.stepped < s.created) :
    OneAtATime { s with stepped := s.stepped + 1 } :=
  h.mono rfl rfl (Nat.le_succ _) hlt (fun j hj => h.fresh j (Nat.le_of_succ_le hj)) h.noted
    (fun _ _ hp => ⟨hp, id⟩) (fun _ _ _ hj => hj)

/-- An item alone before a pending tail waits for it. -/
theorem OneAtATime.wait (h : s.OneAtATime) (hi : i < s.stepped)
    (hkind : s.kind i = some (.item w text)) (htail : s.tails w = some p)
    (hlone : ∀ j q, ¬ s.Waiting w j q)
    (hahead : ∀ q t j, s.kind q = some (.provider w t j) → j < i) :
    (s.resume i (.suspended (.shield p false))).OneAtATime := by
  have hwait : ∀ w' j q, (s.resume i (.suspended (.shield p false))).Waiting w' j q →
      s.Waiting w' j q ∨ (w' = w ∧ j = i ∧ q = p) := by
    rintro w' j q ⟨⟨t, hj⟩, hq⟩
    rcases eq_or_ne j i with rfl | hne
    · right
      have hj' : s.kind j = some (.item w' t) := hj
      rw [hkind] at hj'
      simp only [ItemLoop.resume, Function.update_self, Task.resume_phase, TaskPhase.suspended.injEq,
        Awaiting.shield.injEq, and_true] at hq
      simp only [Option.some.injEq, TaskKind.item.injEq] at hj'
      exact ⟨hj'.1.symm, rfl, hq.symm⟩
    · exact Or.inl ⟨⟨t, hj⟩, by simpa [ItemLoop.resume, hne] using hq⟩
  have hflight : ∀ w' q, (s.resume i (.suspended (.shield p false))).InFlight w' q →
      s.InFlight w' q := by
    rintro w' q ⟨⟨t, j, hq⟩, hd⟩
    have hne : q ≠ i := by
      rintro rfl
      have hq' : s.kind q = some (.provider w' t j) := hq
      rw [hkind] at hq'
      cases hq'
    exact ⟨⟨t, j, hq⟩, by simpa [ItemLoop.resume, hne] using hd⟩
  exact {
    stepped_le := h.stepped_le
    unborn := h.unborn
    fresh := by
      intro j hj
      have hne : j ≠ i := by rintro rfl; exact absurd hi (Nat.not_lt.mpr hj)
      simpa [ItemLoop.resume, hne] using h.fresh j hj
    noted := by
      intro j q hq
      rcases eq_or_ne j i with rfl | hne
      · simp [ItemLoop.resume] at hq
      · simpa [ItemLoop.resume, hne] using h.noted j q (by simpa [ItemLoop.resume, hne] using hq)
    tail := fun w' q hq => h.tail w' q (hflight w' q hq)
    lone := by
      intro w' j k q r hj hk
      rcases hwait _ _ _ hj with hj' | ⟨hw, hji, -⟩ <;>
        rcases hwait _ _ _ hk with hk' | ⟨hw', hki, -⟩
      · exact h.lone w' j k q r hj' hk'
      · exact absurd (hw' ▸ hj') (hlone j q)
      · exact absurd (hw ▸ hk') (hlone k r)
      · rw [hji, hki]
    waits := by
      intro w' j q r hj hr
      rcases hwait _ _ _ hj with hj | ⟨rfl, rfl, rfl⟩
      · exact h.waits w' j q r hj (hflight _ _ hr)
      · exact Option.some.inj ((h.tail _ _ (hflight _ _ hr)).symm.trans htail)
    owner := h.owner
    ordered := h.ordered
    behind := by
      intro w' q t j k r hq hk
      rcases hwait _ _ _ hk with hk | ⟨rfl, rfl, rfl⟩
      · exact h.behind w' q t j k r hq hk
      · exact hahead q t j hq }

/-- A new item changes neither who waits nor what is in flight. -/
theorem OneAtATime.createItem (h : s.OneAtATime) (w text : String) :
    (s.createTask (.item w text)).OneAtATime := by
  have hprov : ∀ w' q t j, (s.createTask (.item w text)).kind q = some (.provider w' t j) →
      q ≠ s.created ∧ s.kind q = some (.provider w' t j) := by
    intro w' q t j hq
    rcases eq_or_ne q s.created with rfl | hne
    · simp [createTask] at hq
    · exact ⟨hne, by simpa [createTask, hne] using hq⟩
  have hflight : ∀ w' q, (s.createTask (.item w text)).InFlight w' q → s.InFlight w' q := by
    rintro w' q ⟨⟨t, j, hq⟩, hd⟩
    obtain ⟨hne, hq'⟩ := hprov w' q t j hq
    exact ⟨⟨t, j, hq'⟩, by simpa [createTask, hne] using hd⟩
  have hwait : ∀ w' j q, (s.createTask (.item w text)).Waiting w' j q → s.Waiting w' j q := by
    rintro w' j q ⟨⟨t, hj⟩, hq⟩
    have hne : j ≠ s.created := by
      rintro rfl
      simp [createTask] at hq
    exact ⟨⟨t, by simpa [createTask, hne] using hj⟩, by simpa [createTask, hne] using hq⟩
  exact {
    stepped_le := Nat.le_succ_of_le h.stepped_le
    unborn := by
      intro j hj
      simp only [createTask] at hj ⊢
      rw [Function.update_of_ne (by omega)]
      exact h.unborn j (by omega)
    fresh := by
      intro j hj
      rcases eq_or_ne j s.created with rfl | hne
      · simp [createTask]
      · simpa [createTask, hne] using h.fresh j hj
    noted := by
      intro j q hq
      rcases eq_or_ne j s.created with rfl | hne
      · simp [createTask] at hq
      · simpa [createTask, hne] using h.noted j q (by simpa [createTask, hne] using hq)
    tail := fun w' q hq => h.tail w' q (hflight w' q hq)
    lone := fun w' j k q r hj hk => h.lone w' j k q r (hwait _ _ _ hj) (hwait _ _ _ hk)
    waits := fun w' j q r hj hr => h.waits w' j q r (hwait _ _ _ hj) (hflight _ _ hr)
    owner := fun q w' t j hq => h.owner q w' t j (hprov w' q t j hq).2
    ordered := fun w' q r t u j k hqr hq hr =>
      h.ordered w' q r t u j k hqr (hprov w' q t j hq).2 (hprov w' r u k hr).2
    behind := fun w' q t j k r hq hk =>
      h.behind w' q t j k r (hprov w' q t j hq).2 (hwait _ _ _ hk) }

/-- **The item whose turn it is creates its provider task.** -/
theorem OneAtATime.createProvider (h : s.OneAtATime) (hi : i < s.stepped)
    (hkind : s.kind i = some (.item w text)) (hidle : ∀ q, ¬ s.InFlight w q)
    (hlone : ∀ j q, s.Waiting w j q → j = i)
    (hahead : ∀ q t j, s.kind q = some (.provider w t j) → j < i) :
    (s.createProvider i w text).OneAtATime := by
  have hi' : i ≠ s.created := Nat.ne_of_lt (Nat.lt_of_lt_of_le hi h.stepped_le)
  have hprov : ∀ w' q t j, (s.createProvider i w text).kind q = some (.provider w' t j) →
      (q = s.created ∧ w' = w ∧ j = i) ∨
        (q < s.created ∧ q ≠ i ∧ s.kind q = some (.provider w' t j)) := by
    intro w' q t j hq
    rcases eq_or_ne q s.created with rfl | hne
    · simp only [ItemLoop.createProvider, createTask, Function.update_self, Option.some.injEq,
        TaskKind.provider.injEq] at hq
      exact Or.inl ⟨rfl, hq.1.symm, hq.2.2.symm⟩
    · have hq' : s.kind q = some (.provider w' t j) := by
        simpa [ItemLoop.createProvider, createTask, hne] using hq
      refine Or.inr ⟨?_, ?_, hq'⟩
      · by_contra hge
        rw [h.unborn q (Nat.not_lt.mp hge)] at hq'
        cases hq'
      · rintro rfl
        rw [hkind] at hq'
        cases hq'
  have hflight : ∀ w' q, (s.createProvider i w text).InFlight w' q →
      (q = s.created ∧ w' = w) ∨ (w' ≠ w ∧ s.InFlight w' q) := by
    rintro w' q ⟨⟨t, j, hq⟩, hd⟩
    rcases hprov w' q t j hq with ⟨hq', hw, -⟩ | ⟨hlt, hne, hq'⟩
    · exact Or.inl ⟨hq', hw⟩
    · have hold : s.InFlight w' q :=
        ⟨⟨t, j, hq'⟩, by simpa [ItemLoop.createProvider, createTask, hne, Nat.ne_of_lt hlt] using hd⟩
      exact Or.inr ⟨fun hw => hidle q (hw ▸ hold), hold⟩
  have hwait : ∀ w' j q, (s.createProvider i w text).Waiting w' j q →
      w' ≠ w ∧ s.Waiting w' j q := by
    rintro w' j q ⟨⟨t, hj⟩, hq⟩
    have hji : j ≠ i := by
      rintro rfl
      simp [ItemLoop.createProvider] at hq
    have hjc : j ≠ s.created := by
      rintro rfl
      simp [ItemLoop.createProvider, createTask] at hj
    have hold : s.Waiting w' j q := by
      refine ⟨⟨t, ?_⟩, ?_⟩
      · simpa [ItemLoop.createProvider, createTask, hjc] using hj
      · simpa [ItemLoop.createProvider, createTask, hjc, hji] using hq
    exact ⟨fun hw => hji (hlone j q (hw ▸ hold)), hold⟩
  exact {
    stepped_le := Nat.le_succ_of_le h.stepped_le
    unborn := by
      intro j hj
      simp only [ItemLoop.createProvider, createTask] at hj ⊢
      rw [Function.update_of_ne (by omega)]
      exact h.unborn j (by omega)
    fresh := by
      intro j hj
      have hji : j ≠ i := by rintro rfl; exact absurd hi (Nat.not_lt.mpr hj)
      rcases eq_or_ne j s.created with rfl | hne
      · simp [ItemLoop.createProvider, createTask, hji]
      · simpa [ItemLoop.createProvider, createTask, hne, hji] using h.fresh j hj
    noted := by
      intro j q hq
      rcases eq_or_ne j i with rfl | hji
      · simp [ItemLoop.createProvider] at hq
      rcases eq_or_ne j s.created with rfl | hne
      · simp [ItemLoop.createProvider, createTask, hji] at hq
      · have hq' : (s.tasks j).phase = .suspended (.shield q true) := by
          simpa [ItemLoop.createProvider, createTask, hne, hji] using hq
        simpa [ItemLoop.createProvider, createTask, hne, hji] using h.noted j q hq'
    tail := by
      intro w' q hq
      rcases hflight w' q hq with ⟨rfl, rfl⟩ | ⟨hw, hq'⟩
      · simp [ItemLoop.createProvider]
      · simpa [ItemLoop.createProvider, hw] using h.tail w' q hq'
    lone := fun w' j k q r hj hk => h.lone w' j k q r (hwait _ _ _ hj).2 (hwait _ _ _ hk).2
    waits := by
      intro w' j q r hj hr
      obtain ⟨hw, hj'⟩ := hwait _ _ _ hj
      rcases hflight _ _ hr with ⟨-, hw'⟩ | ⟨-, hr'⟩
      · exact absurd hw' hw
      · exact h.waits w' j q r hj' hr'
    owner := by
      intro q w' t j hq
      rcases hprov w' q t j hq with ⟨-, -, rfl⟩ | ⟨-, -, hq'⟩
      · exact hi
      · exact h.owner q w' t j hq'
    ordered := by
      intro w' q r t u j k hqr hq hr
      rcases hprov w' q t j hq with ⟨rfl, -, -⟩ | ⟨hlt, -, hq'⟩ <;>
        rcases hprov w' r u k hr with ⟨rfl, rfl, rfl⟩ | ⟨hlt', -, hr'⟩
      · omega
      · omega
      · exact hahead q t j hq'
      · exact h.ordered w' q r t u j k hqr hq' hr'
    behind := by
      intro w' q t j k r hq hk
      obtain ⟨hw, hk'⟩ := hwait _ _ _ hk
      rcases hprov w' q t j hq with ⟨-, hw', -⟩ | ⟨-, -, hq'⟩
      · exact absurd hw' hw
      · exact h.behind w' q t j k r hq' hk' }

/-! ## One step -/

theorem OneAtATime.startTask (h : s.OneAtATime) (item : String × String) :
    (startTask cfg s item).OneAtATime := by
  simp only [ItemLoop.startTask]
  split_ifs
  · exact (h.createItem item.1 item.2).mono rfl rfl (Nat.le_refl _)
      (h.createItem item.1 item.2).stepped_le (h.createItem item.1 item.2).fresh
      (h.createItem item.1 item.2).noted (fun _ _ hp => ⟨hp, id⟩) (fun _ _ _ hj => hj)
  · exact h

theorem OneAtATime.submit (h : s.OneAtATime) (items : List (String × String)) :
    (items.foldl (ItemLoop.startTask cfg) s).OneAtATime := by
  induction items generalizing s with
  | nil => exact h
  | cons item items ih => exact ih (h.startTask item)

theorem isWaiting_of_waiting {j q : ℕ} (h : s.Waiting w j q) : s.isWaiting w j = true := by
  obtain ⟨⟨t, hj⟩, hq⟩ := h
  simp [isWaiting, hj, hq]

theorem OneAtATime.lt_created (h : s.OneAtATime) {k : TaskKind} (hk : s.kind i = some k) :
    i < s.created := by
  by_contra hge
  rw [h.unborn i (Nat.not_lt.mp hge)] at hk
  cases hk

theorem OneAtATime.lt_stepped (h : s.OneAtATime) (hi : (s.tasks i).phase ≠ .fresh) :
    i < s.stepped := by
  by_contra hge
  exact hi (h.fresh i (Nat.not_lt.mp hge))

/-- An item whose tail is gone or done has its worker to itself. -/
theorem OneAtATime.idle (h : s.OneAtATime)
    (htail : ∀ p, s.tails w = some p → (s.tasks p).isDone = true) (q : ℕ) : ¬ s.InFlight w q := by
  intro hq
  have hd := htail q (h.tail w q hq)
  rw [hq.2] at hd
  cases hd

/-- **An item's first step**, with no other item of its worker waiting. -/
theorem OneAtATime.enter (h : s.OneAtATime) (hlt : s.stepped < s.created)
    (hkind : s.kind s.stepped = some (.item w text)) (hlone : ∀ j q, ¬ s.Waiting w j q) :
    (ItemLoop.enter { s with stepped := s.stepped + 1 } s.stepped w text).OneAtATime := by
  have h' := h.advance hlt
  have hahead := fun q t j (hq : s.kind q = some (.provider w t j)) => h.owner q w t j hq
  have hcreate : (∀ p, s.tails w = some p → (s.tasks p).isDone = true) →
      (ItemLoop.createProvider { s with stepped := s.stepped + 1 } s.stepped w text).OneAtATime :=
    fun htail => h'.createProvider (Nat.lt_succ_self _) hkind (h'.idle htail)
      (fun j q hj => absurd hj (hlone j q)) hahead
  simp only [ItemLoop.enter]
  split
  · rename_i htail
    exact hcreate (by simp [htail])
  · rename_i p htail
    split_ifs with hd
    · refine hcreate fun q hq => ?_
      rw [htail] at hq
      cases hq
      exact hd
    · exact h'.wait (Nat.lt_succ_self _) hkind htail hlone hahead

/-- **A waiting item goes ahead.** -/
theorem OneAtATime.goAhead (h : s.OneAtATime) (hwait : s.Waiting w i p)
    (hkind : s.kind i = some (.item w text)) (hd : (s.tasks p).isDone = true) :
    (s.createProvider i w text).OneAtATime := by
  have hi : i < s.stepped := h.lt_stepped (by simp [hwait.2])
  refine h.createProvider hi hkind (fun q hq => ?_)
    (fun j q hj => h.lone w j i q p hj hwait) (fun q t j hq => h.behind w q t j i p hq hwait)
  have hdone := hq.2
  rw [h.waits w i p q hwait hq, hd] at hdone
  cases hdone

theorem OneAtATime.leave (h : s.OneAtATime) (hphase : (s.tasks i).phase = .suspended (.task p))
    (hd : (s.tasks p).isDone = true) : (s.leave i p w).OneAtATime := by
  have hi : i < s.stepped := h.lt_stepped (by simp [hphase])
  have hopen : (s.tasks i).isDone = false := by simp [Task.isDone, hphase]
  have hr := h.resume (.done (s.awaitOutcome i p)) hi hopen (by simp)
  refine hr.mono rfl rfl (Nat.le_refl _) hr.stepped_le hr.fresh hr.noted ?_ (fun _ _ _ hj => hj)
  intro w' q hq
  refine ⟨hq, fun htail => ?_⟩
  have hqp : q ≠ p := by
    rintro rfl
    have hne : q ≠ i := by
      rintro rfl
      rw [hopen] at hd
      cases hd
    have hopen' := hq.2
    simp [ItemLoop.leave, ItemLoop.resume, hne, hd] at hopen'
  simp only [ItemLoop.leave, ItemLoop.resume] at htail ⊢
  split_ifs with hpop
  · have hw : w' ≠ w := by
      rintro rfl
      exact hqp (Option.some.inj (htail.symm.trans hpop))
    rwa [Function.update_of_ne hw]
  · exact htail

theorem OneAtATime.cancel (h : s.OneAtATime) (i : ℕ) :
    OneAtATime { s with tasks := (Machinery.cancel s.created s.tasks i).1 } := by
  have hcancel := cancel_disturbs s.created s.tasks i
  refine h.mono rfl rfl (Nat.le_refl _) h.stepped_le ?_ ?_ ?_ ?_
  · intro j hj
    rcases (hcancel j).2 with heq | ⟨q, c, hc, -⟩
    · exact heq.trans (h.fresh j hj)
    · rw [h.fresh j hj] at hc
      cases hc
  · intro j p hp
    rcases (hcancel j).2 with heq | ⟨q, c, -, -, hpos⟩
    · exact Nat.lt_of_lt_of_le (h.noted j p (heq.symm.trans hp)) (hcancel j).1
    · exact hpos
  · rintro w p ⟨hp, hd⟩
    refine ⟨⟨hp, ?_⟩, id⟩
    rcases (hcancel p).2 with heq | ⟨q, c, hc, -⟩
    · simpa [Task.isDone, heq] using hd
    · simp [Task.isDone, hc]
  · rintro w j p ⟨hj, hp⟩
    refine ⟨hj, ?_⟩
    rcases (hcancel j).2 with heq | ⟨q, c, -, hc, -⟩
    · exact heq.symm.trans hp
    · rw [hc] at hp
      cases hp

/-- **A step under the condition keeps the invariant.** -/
theorem OneAtATime.step (h : s.OneAtATime) (he : s.LoneWaiter e) :
    (ItemLoop.step cfg s e).1.OneAtATime := by
  rcases e with items | n | _ | i | ⟨p, o⟩ | i | i <;> simp only [ItemLoop.step]
  · exact h.submit _
  · exact h.mono rfl rfl (Nat.le_refl _) h.stepped_le h.fresh h.noted (fun _ _ hp => ⟨hp, id⟩)
      (fun _ _ _ hj => hj)
  · split_ifs with hlt hmust
    · exact (h.advance hlt).resume _ (Nat.lt_succ_self _) (by simp [Task.isDone, h.fresh]) (by simp)
    · split
      · rename_i w text hkind
        refine h.enter hlt hkind fun j q hj => ?_
        obtain ⟨⟨t, hkj⟩, -⟩ := id hj
        rcases (by simpa [LoneWaiter, hkind] using he :
          (s.tasks s.stepped).mustCancel = true ∨ ∀ i < s.created, s.isWaiting w i = false)
          with hm | hnone
        · exact absurd hm hmust
        · have hno := hnone j (h.lt_created hkj)
          rw [isWaiting_of_waiting hj] at hno
          cases hno
      · exact (h.advance hlt).resume _ (Nat.lt_succ_self _) (by simp [Task.isDone, h.fresh])
          (by simp)
      · exact h
    · exact h
  · split
    · rename_i w text p cancelled hkind hphase
      have hopen : (s.tasks i).isDone = false := by simp [Task.isDone, hphase]
      split_ifs with hgo hreq
      · exact h.resume _ (h.lt_stepped (by simp [hphase])) hopen (by simp)
      · rcases cancelled with _ | _
        · exact h.goAhead ⟨⟨text, hkind⟩, hphase⟩ hkind (by simpa using hgo)
        · exact absurd (h.noted i p hphase) hreq
      · exact h
    · rename_i w text p hkind hphase
      split_ifs with hd
      · exact h.leave hphase hd
      · exact h
    · exact h
  · split_ifs with hrun
    · exact h.resume _ (h.lt_stepped (by simp [hrun])) (by simp [Task.isDone, hrun]) (by simp)
    · exact h
  · split_ifs
    · exact h.cancel i
    · exact h
  · split_ifs
    · exact h.mono rfl rfl (Nat.le_refl _) h.stepped_le h.fresh h.noted (fun _ _ hp => ⟨hp, id⟩)
        (fun _ _ _ hj => hj)
    · exact h

/-! ## Whole runs -/

/-- The runs in which no item takes its first step while another item of its worker is waiting. -/
abbrev LoneWaiterRun (cfg : CoordinatorConfig) (es : List Event) : Prop :=
  Guarded (fun s e => (step cfg s e).1) LoneWaiter {} es

@[simp] theorem after_concat (cfg : CoordinatorConfig) (es : List Event) (e : Event) :
    after cfg (es ++ [e]) = (ItemLoop.step cfg (after cfg es) e).1 := by
  simp [after]

theorem oneAtATime_after {es : List Event} (h : LoneWaiterRun cfg es) :
    (after cfg es).OneAtATime :=
  run_invariant (fun _ _ hs he => hs.step he) oneAtATime_init h

/-- A provider task of the worker, created by item `i`, has taken its first step. -/
def Launched (s : ItemLoop) (a : String × ℕ) : Prop :=
  ∃ p < s.stepped, ∃ text, s.kind p = some (.provider a.1 text a.2)

theorem Launched.grows {a : String × ℕ} (h : s.Launched a) (hs : s.stepped ≤ s.created)
    (hg : s.Grows s') : s'.Launched a := by
  obtain ⟨p, hp, text, hkind⟩ := h
  exact ⟨p, Nat.lt_of_lt_of_le hp hg.stepped_le, text,
    (hg.kind_eq p (Nat.lt_of_lt_of_le hp hs)).trans hkind⟩

/-- **Provider tasks of one worker start in the order of their items.** -/
theorem starts_ordered {es : List Event} (h : LoneWaiterRun cfg es) :
    (∀ a ∈ starts cfg es, (after cfg es).Launched a) ∧
      (starts cfg es).Pairwise fun a b => a.1 = b.1 → a.2 < b.2 := by
  induction es using List.reverseRecOn with
  | nil => exact ⟨by simp [starts, outputs], List.Pairwise.nil⟩
  | append_singleton es e ih =>
    obtain ⟨hes, -⟩ := (guarded_append _ es [e]).mp h
    obtain ⟨hlaunched, hsorted⟩ := ih hes
    have hinv := oneAtATime_after hes
    have hgrows := grows_step cfg (after cfg es) e
    have hold : ∀ a ∈ starts cfg es, (after cfg (es ++ [e])).Launched a := fun a ha => by
      rw [after_concat]
      exact (hlaunched a ha).grows hinv.stepped_le hgrows
    have hstarts : starts cfg (es ++ [e])
        = starts cfg es ++ (ItemLoop.step cfg (after cfg es) e).2 := by
      simp [starts, outputs, after]
    rw [hstarts]
    rcases step_starts_provider cfg (after cfg es) e with hnone | ⟨w, text, i, hout, hkind, hlt, hst⟩
    · rw [hnone, List.append_nil]
      exact ⟨hold, hsorted⟩
    · rw [hout]
      refine ⟨?_, List.pairwise_append.mpr ⟨hsorted, List.pairwise_singleton _ _, ?_⟩⟩
      · intro a ha
        rcases List.mem_append.mp ha with ha | ha
        · exact hold a ha
        · rw [List.mem_singleton.mp ha, after_concat]
          refine ⟨(after cfg es).stepped, by omega, text, ?_⟩
          rw [hgrows.kind_eq _ hlt, hkind]
      · intro a ha b hb hab
        rw [List.mem_singleton.mp hb] at hab ⊢
        obtain ⟨p, hp, t, hpk⟩ := hlaunched a ha
        rw [hab] at hpk
        exact hinv.ordered w p _ t text a.2 i hp hpk hkind

/-- **Per-worker serialisation holds in every run of lone waiters**: any number of items over any
number of submits, any interleaving of first steps, completions, failures and cancellations. -/
theorem provider_serialized (cfg : CoordinatorConfig) (es : List Event)
    (h : LoneWaiterRun cfg es) : Serialized cfg es where
  exclusive := by
    rintro es₀ ⟨rest, rfl⟩ w p q hp hq
    have hinv := oneAtATime_after ((guarded_append _ es₀ rest).mp h).1
    exact Option.some.inj ((hinv.tail w p hp).symm.trans (hinv.tail w q hq))
  inOrder := (starts_ordered h).2

/-- The configuration of the runs below. -/
def smallConfig : CoordinatorConfig := ⟨4, 8⟩

/-- Two items on one worker, and a third submitted once the second has gone ahead. -/
def twoThenOne : List Event :=
  [.submit [("w", "a"), ("w", "b")], .run, .run, .run, .finish 2 .value, .wake 0, .wake 1,
    .submit [("w", "c")], .run, .run, .finish 3 .raised, .wake 1, .wake 4, .run]

theorem provider_serialized_twoThenOne :
    LoneWaiterRun smallConfig twoThenOne ∧ Serialized smallConfig twoThenOne ∧
      starts smallConfig twoThenOne = [("w", 0), ("w", 1), ("w", 4)] := by
  have h : LoneWaiterRun smallConfig twoThenOne := by decide
  exact ⟨h, provider_serialized _ _ h, by decide⟩

/-! ## Three items -/

/-- Three items on one worker, in one submit: the second and the third wait for the same tail. -/
def threeItems : List Event :=
  [.submit [("w", "a"), ("w", "b"), ("w", "c")], .run, .run, .run, .run, .finish 3 .value, .wake 0,
    .wake 1, .wake 2, .run, .run]

/-- **Three items on one worker overlap**: when the shared tail is done both waiters create their
provider task, and two of them are in flight. -/
theorem three_items_overlap :
    ¬ Serialized smallConfig threeItems ∧
      (after smallConfig threeItems).InFlight "w" 4 ∧ (after smallConfig threeItems).InFlight "w" 5 := by
  have h4 : (after smallConfig threeItems).InFlight "w" 4 := ⟨⟨"b", 1, by decide⟩, by decide⟩
  have h5 : (after smallConfig threeItems).InFlight "w" 5 := ⟨⟨"c", 2, by decide⟩, by decide⟩
  refine ⟨fun h => ?_, h4, h5⟩
  exact absurd (h.exclusive threeItems (List.prefix_refl _) "w" 4 5 h4 h5) (by decide)

end ItemLoop

end SubagentsLab

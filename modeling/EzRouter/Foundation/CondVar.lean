import Mathlib.Data.Finset.Card

/-!
# Condition variables

The threads inside a wait on one condition variable are asleep, or woken and
on their way back to the lock.  A signal wakes one sleeper, if there is one; a
sleeper may also wake up by itself.  `Covers n` says that no wakeup for `n`
units of work has been lost: while anybody sleeps, at least `n` threads are on
their way.
-/

namespace EzRouter.Foundation

@[ext] structure CondVar (Tid : Type*) where
  asleep : Finset Tid
  woken : Finset Tid
  disjoint : Disjoint asleep woken

namespace CondVar

variable {Tid : Type*} {c c' : CondVar Tid} {t u : Tid} {n m : Nat}

def init : CondVar Tid := ⟨∅, ∅, Finset.disjoint_empty_left _⟩

def Waits (c : CondVar Tid) (t : Tid) : Prop := t ∈ c.asleep ∨ t ∈ c.woken

@[simp] theorem not_waits_init : ¬ (init : CondVar Tid).Waits t := by
  simp [Waits, init]

def Covers (c : CondVar Tid) (n : Nat) : Prop :=
  c.asleep.Nonempty → n ≤ c.woken.card

theorem covers_zero (c : CondVar Tid) : c.Covers 0 := fun _ => Nat.zero_le _

theorem Covers.woken_nonempty (h : c.Covers n) (hn : 0 < n)
    (hwaits : c.Waits t) : c.woken.Nonempty := by
  rcases hwaits with hasleep | hwoken
  · have hle := h ⟨t, hasleep⟩
    exact Finset.card_pos.1 (by omega)
  · exact ⟨t, hwoken⟩

variable [DecidableEq Tid]

def sleep (c : CondVar Tid) (t : Tid) : CondVar Tid where
  asleep := insert t c.asleep
  woken := c.woken.erase t
  disjoint := by
    rw [Finset.disjoint_insert_left]
    exact ⟨Finset.notMem_erase t _,
      c.disjoint.mono_right (Finset.erase_subset t _)⟩

def wake (c : CondVar Tid) (t : Tid) : CondVar Tid where
  asleep := c.asleep.erase t
  woken := insert t c.woken
  disjoint := by
    rw [Finset.disjoint_insert_right]
    exact ⟨Finset.notMem_erase t _,
      c.disjoint.mono_left (Finset.erase_subset t _)⟩

/-- A woken thread has the lock again. -/
def resume (c : CondVar Tid) (t : Tid) : CondVar Tid where
  asleep := c.asleep
  woken := c.woken.erase t
  disjoint := c.disjoint.mono_right (Finset.erase_subset t _)

inductive Signals (c : CondVar Tid) : CondVar Tid → Prop where
  | nobody (h : c.asleep = ∅) : Signals c c
  | one (t : Tid) (h : t ∈ c.asleep) : Signals c (c.wake t)

@[simp] theorem waits_sleep : (c.sleep t).Waits u ↔ u = t ∨ c.Waits u := by
  by_cases h : u = t <;> simp [Waits, sleep, h]

theorem waits_wake (h : t ∈ c.asleep) : (c.wake t).Waits u ↔ c.Waits u := by
  by_cases hu : u = t <;> simp [Waits, wake, hu, h]

theorem waits_resume_of_ne (h : u ≠ t) :
    (c.resume t).Waits u ↔ c.Waits u := by
  simp [Waits, resume, h]

theorem not_waits_resume (h : t ∉ c.asleep) : ¬ (c.resume t).Waits t := by
  simp [Waits, resume, h]

theorem Signals.waits (h : Signals c c') : c'.Waits u ↔ c.Waits u := by
  cases h with
  | nobody _ => rfl
  | one t ht => exact waits_wake ht

theorem exists_signals (c : CondVar Tid) : ∃ c', Signals c c' := by
  rcases c.asleep.eq_empty_or_nonempty with hnone | ⟨t, ht⟩
  · exact ⟨_, .nobody hnone⟩
  · exact ⟨_, .one t ht⟩

theorem Signals.woken_subset (h : Signals c c') : c.woken ⊆ c'.woken := by
  cases h with
  | nobody _ => exact Finset.Subset.refl _
  | one t _ => exact Finset.subset_insert t _

/-! ## No wakeup is lost -/

theorem card_wake (h : t ∈ c.asleep) :
    (c.wake t).woken.card = c.woken.card + 1 :=
  Finset.card_insert_of_notMem (Finset.disjoint_left.1 c.disjoint h)

theorem Covers.wake (h : c.Covers n) (ht : t ∈ c.asleep) :
    (c.wake t).Covers n := by
  intro _
  have hle := h ⟨t, ht⟩
  rw [card_wake ht]
  omega

theorem Covers.signals (h : c.Covers n) (hsignal : Signals c c') :
    c'.Covers (n + 1) := by
  cases hsignal with
  | nobody hnone =>
      rintro ⟨t, ht⟩
      simp [hnone] at ht
  | one t ht =>
      intro _
      have hle := h ⟨t, ht⟩
      rw [card_wake ht]
      omega

/-- Whoever takes a unit of work may have been one of those on their way. -/
theorem Covers.resume (h : c.Covers (n + 1)) : (c.resume t).Covers n := by
  intro hasleep
  have hle := h hasleep
  have hcard : c.woken.card - 1 ≤ (c.woken.erase t).card :=
    Finset.pred_card_le_card_erase
  change n ≤ (c.woken.erase t).card
  omega

/-- The woken threads of `gone` no longer count as being on their way. -/
def without (c : CondVar Tid) (gone : Finset Tid) : CondVar Tid where
  asleep := c.asleep
  woken := c.woken \ gone
  disjoint := c.disjoint.mono_right Finset.sdiff_subset

variable {gone : Finset Tid}

theorem without_wake (h : t ∉ gone) :
    (c.wake t).without gone = (c.without gone).wake t := by
  ext u
  · rfl
  · simp [without, wake, Finset.insert_sdiff_of_notMem _ h]

theorem without_resume :
    (c.resume t).without gone = (c.without gone).resume t := by
  ext u
  · rfl
  · simp [without, resume, Finset.erase_sdiff_comm]

theorem without_resume_gone (h : t ∈ gone) :
    (c.resume t).without (gone.erase t) = c.without gone := by
  ext u
  · rfl
  · by_cases hu : u = t <;> simp [without, resume, hu, h]

theorem Signals.without (h : Signals c c') (hgone : gone ⊆ c.woken) :
    Signals (c.without gone) (c'.without gone) := by
  cases h with
  | nobody hnone => exact .nobody hnone
  | one t ht =>
      have hnot : t ∉ gone := fun hmem =>
        Finset.disjoint_left.1 c.disjoint ht (hgone hmem)
      rw [without_wake hnot]
      exact .one t ht

theorem Covers.gives_up (h : (c.without gone).Covers n) (ht : t ∈ c.asleep) :
    ((c.wake t).without (insert t gone)).Covers n := by
  have hnot : t ∉ c.woken := Finset.disjoint_left.1 c.disjoint ht
  have hwoken : insert t c.woken \ insert t gone = c.woken \ gone := by
    rw [Finset.insert_sdiff_insert, Finset.sdiff_insert_of_notMem hnot]
  intro _
  change n ≤ (insert t c.woken \ insert t gone).card
  rw [hwoken]
  exact h ⟨t, ht⟩

end CondVar

end EzRouter.Foundation

import Mathlib.Data.List.Nodup
import Mathlib.Data.List.Perm.Basic

/-!
# Tables searched slot by slot

Fixed-size tables in C are searched by a loop that stops at the first slot
with some property and rewrites that slot.  `updateFirst` is that loop.  Its
one inversion lemma splits the table around the slot that was rewritten; every
fact about a table operation is read off from the split.
-/

namespace EzRouter.Foundation

variable {α β : Type*}

def updateFirst (p : α → Bool) (f : α → α) : List α → List α
  | [] => []
  | x :: xs => if p x then f x :: xs else x :: updateFirst p f xs

variable {p : α → Bool} {f : α → α}

@[simp] theorem length_updateFirst (xs : List α) :
    (updateFirst p f xs).length = xs.length := by
  induction xs with
  | nil => rfl
  | cons x xs ih =>
      simp only [updateFirst]
      split <;> simp [ih]

theorem updateFirst_of_split {before after : List α} {x : α}
    (hbefore : ∀ y ∈ before, p y = false) (hx : p x = true) :
    updateFirst p f (before ++ x :: after) = before ++ f x :: after := by
  induction before with
  | nil => simp [updateFirst, hx]
  | cons y before ih =>
      have hy : p y = false := hbefore y (by simp)
      simp [updateFirst, hy, ih fun z hz => hbefore z (by simp [hz])]

theorem updateFirst_of_none {xs : List α} (h : ∀ x ∈ xs, p x = false) :
    updateFirst p f xs = xs := by
  induction xs with
  | nil => rfl
  | cons x xs ih =>
      simp [updateFirst, h x (by simp), ih fun y hy => h y (by simp [hy])]

theorem first_split (p : α → Bool) (xs : List α) :
    (∀ x ∈ xs, p x = false) ∨
      ∃ before x after, xs = before ++ x :: after ∧
        (∀ y ∈ before, p y = false) ∧ p x = true := by
  induction xs with
  | nil => simp
  | cons x xs ih =>
      cases hx : p x with
      | true => exact .inr ⟨[], x, xs, rfl, by simp, hx⟩
      | false =>
          rcases ih with hnone | ⟨before, y, after, rfl, hbefore, hy⟩
          · exact .inl (by simpa [hx] using hnone)
          · exact .inr ⟨x :: before, y, after, rfl, by simpa [hx] using hbefore,
              hy⟩

theorem find?_of_split {before after : List α} {x : α}
    (hbefore : ∀ y ∈ before, p y = false) (hx : p x = true) :
    (before ++ x :: after).find? p = some x := by
  rw [List.find?_eq_some_iff_append]
  exact ⟨hx, before, after, rfl, by simpa using hbefore⟩

theorem find?_of_none {xs : List α} (h : ∀ x ∈ xs, p x = false) :
    xs.find? p = none := by
  simpa using h

theorem filterMap_range_getElem? (f : α → Option β) (xs : List α) :
    ((List.range xs.length).filterMap fun i => xs[i]?.bind f) =
      xs.filterMap f := by
  induction xs with
  | nil => rfl
  | cons x xs ih =>
      rw [List.length_cons, List.range_succ_eq_map, List.filterMap_cons,
        List.filterMap_map, List.filterMap_cons, ← ih]
      rfl

theorem perm_cons_filter_key {κ ν : Type*} [DecidableEq κ]
    {pairs : List (κ × ν)} {k : κ} {v : ν}
    (nodup : (pairs.map Prod.fst).Nodup) (hmem : (k, v) ∈ pairs) :
    pairs.Perm ((k, v) :: pairs.filter fun pair => decide (pair.1 ≠ k)) := by
  have hpairs : pairs.Nodup := nodup.of_map
  have hnotin : (k, v) ∉ pairs.filter fun pair => decide (pair.1 ≠ k) := by
    simp
  rw [List.perm_ext_iff_of_nodup hpairs
    (List.nodup_cons.2 ⟨hnotin, hpairs.filter _⟩)]
  intro pair
  rw [List.mem_cons, List.mem_filter]
  by_cases hkey : pair.1 = k
  · constructor
    · intro hpair
      exact .inl (List.inj_on_of_nodup_map nodup hpair hmem hkey)
    · rintro (rfl | ⟨hpair, -⟩)
      · exact hmem
      · exact hpair
  · have hne : pair ≠ (k, v) := fun heq => hkey (congrArg Prod.fst heq)
    simp [hne, hkey]

end EzRouter.Foundation

import Mathlib.Data.List.Range
import Mathlib.Data.Nat.ModEq

/-!
# Circular arrays

`Ring α n` is an array of `n` slots with a head and a tail index that advance
modulo `n`.  One slot is kept free, so that a full array can be told from an
empty one.  `contents` reads the occupied slots from head to tail; pushing and
popping act on it as on a list, whatever the indices are and however often
they have wrapped around.
-/

namespace EzRouter.Foundation

structure Ring (α : Type*) (n : Nat) where
  slots : Vector α n
  head : Nat
  tail : Nat
  head_lt : head < n
  tail_lt : tail < n

namespace Ring

variable {α : Type*} {n : Nat}

def reset (r : Ring α n) : Ring α n where
  slots := r.slots
  head := 0
  tail := 0
  head_lt := Nat.lt_of_le_of_lt (Nat.zero_le _) r.head_lt
  tail_lt := Nat.lt_of_le_of_lt (Nat.zero_le _) r.head_lt

def full (r : Ring α n) : Bool := (r.tail + 1) % n == r.head

def isEmpty (r : Ring α n) : Bool := r.head == r.tail

def push (r : Ring α n) (x : α) : Ring α n where
  slots := r.slots.set r.tail x r.tail_lt
  head := r.head
  tail := (r.tail + 1) % n
  head_lt := r.head_lt
  tail_lt := Nat.mod_lt _ (Nat.lt_of_le_of_lt (Nat.zero_le _) r.tail_lt)

def front (r : Ring α n) : α := r.slots.get ⟨r.head, r.head_lt⟩

def pop (r : Ring α n) : Ring α n where
  slots := r.slots
  head := (r.head + 1) % n
  tail := r.tail
  head_lt := Nat.mod_lt _ (Nat.lt_of_le_of_lt (Nat.zero_le _) r.head_lt)
  tail_lt := r.tail_lt

def size (r : Ring α n) : Nat := (r.tail + n - r.head) % n

def slot (r : Ring α n) (k : Nat) : α :=
  r.slots.get ⟨(r.head + k) % n,
    Nat.mod_lt _ (Nat.lt_of_le_of_lt (Nat.zero_le _) r.head_lt)⟩

def room (r : Ring α n) : Nat := n - 1 - r.size

/-- The occupied slots, from head to tail. -/
def contents (r : Ring α n) : List α := (List.range r.size).map r.slot

variable {r : Ring α n}

@[simp] theorem length_contents : r.contents.length = r.size := by
  simp [contents]

theorem size_lt : r.size < n :=
  Nat.mod_lt _ (Nat.lt_of_le_of_lt (Nat.zero_le _) r.head_lt)

theorem contents_reset : r.reset.contents = [] := by
  simp [contents, size, reset]

private theorem size_cases :
    r.head ≤ r.tail ∧ r.size = r.tail - r.head ∨
      r.tail < r.head ∧ r.size = r.tail + n - r.head := by
  have hhead := r.head_lt
  have htail := r.tail_lt
  by_cases h : r.head ≤ r.tail
  · refine .inl ⟨h, ?_⟩
    rw [size, show r.tail + n - r.head = r.tail - r.head + n by omega,
      Nat.add_mod_right, Nat.mod_eq_of_lt (by omega)]
  · refine .inr ⟨by omega, ?_⟩
    rw [size, Nat.mod_eq_of_lt (by omega)]

private theorem wrap_cases {i : Nat} (h : i < n) :
    i + 1 < n ∧ (i + 1) % n = i + 1 ∨ i + 1 = n ∧ (i + 1) % n = 0 := by
  by_cases hi : i + 1 < n
  · exact .inl ⟨hi, Nat.mod_eq_of_lt hi⟩
  · have heq : i + 1 = n := by omega
    exact .inr ⟨heq, by rw [heq, Nat.mod_self]⟩

theorem full_iff : r.full = true ↔ r.size = n - 1 := by
  have hhead := r.head_lt
  have htail := r.tail_lt
  rw [full, beq_iff_eq]
  rcases size_cases (r := r) with ⟨hle, hsize⟩ | ⟨hlt, hsize⟩ <;>
    rcases wrap_cases htail with ⟨hi, hmod⟩ | ⟨hi, hmod⟩ <;>
    rw [hmod, hsize] <;> omega

theorem isEmpty_iff : r.isEmpty = true ↔ r.size = 0 := by
  have hhead := r.head_lt
  rw [isEmpty, beq_iff_eq]
  rcases size_cases (r := r) with ⟨hle, hsize⟩ | ⟨hlt, hsize⟩ <;>
    rw [hsize] <;> omega

theorem size_push (x : α) (h : r.full = false) :
    (r.push x).size = r.size + 1 := by
  have hnot : ¬ r.size = n - 1 := by
    rw [← full_iff, h]
    simp
  have hlt := size_lt (r := r)
  have hhead := r.head_lt
  have htail := r.tail_lt
  have hpushHead : (r.push x).head = r.head := rfl
  have hpushTail : (r.push x).tail = (r.tail + 1) % n := rfl
  rcases size_cases (r := r) with ⟨hle, hsize⟩ | ⟨hgt, hsize⟩ <;>
    rcases size_cases (r := r.push x) with ⟨hle', hsize'⟩ | ⟨hgt', hsize'⟩ <;>
    rcases wrap_cases htail with ⟨hi, hmod⟩ | ⟨hi, hmod⟩ <;> omega

theorem size_pop (h : r.isEmpty = false) : r.pop.size + 1 = r.size := by
  have hnot : ¬ r.size = 0 := by
    rw [← isEmpty_iff, h]
    simp
  have hhead := r.head_lt
  have htail := r.tail_lt
  have hpopHead : r.pop.head = (r.head + 1) % n := rfl
  have hpopTail : r.pop.tail = r.tail := rfl
  rcases size_cases (r := r) with ⟨hle, hsize⟩ | ⟨hgt, hsize⟩ <;>
    rcases size_cases (r := r.pop) with ⟨hle', hsize'⟩ | ⟨hgt', hsize'⟩ <;>
    rcases wrap_cases hhead with ⟨hi, hmod⟩ | ⟨hi, hmod⟩ <;> omega

theorem room_of_full (h : r.full = true) : r.room = 0 := by
  rw [room, full_iff.1 h, Nat.sub_self]

theorem room_push (x : α) (h : r.full = false) :
    (r.push x).room + 1 = r.room := by
  have hsize := size_push x h
  have hlt := size_lt (r := r.push x)
  simp only [room]
  omega

theorem room_pop (h : r.isEmpty = false) : r.pop.room = r.room + 1 := by
  have hsize := size_pop h
  have hlt := size_lt (r := r)
  simp only [room]
  omega

/-! ## The list behind the array -/

theorem tail_eq : r.tail = (r.head + r.size) % n := by
  have htail := r.tail_lt
  rcases size_cases (r := r) with ⟨hle, hsize⟩ | ⟨hgt, hsize⟩
  · rw [hsize, Nat.add_sub_cancel' hle, Nat.mod_eq_of_lt htail]
  · rw [hsize, show r.head + (r.tail + n - r.head) = r.tail + n by
      have := r.head_lt
      omega, Nat.add_mod_right, Nat.mod_eq_of_lt htail]

private theorem index_ne_tail {k : Nat} (h : k < r.size) :
    (r.head + k) % n ≠ r.tail := by
  have hlt := size_lt (r := r)
  have hn : 0 < n := Nat.lt_of_le_of_lt (Nat.zero_le _) r.head_lt
  intro heq
  rw [tail_eq] at heq
  have hmod : k % n = r.size % n := Nat.ModEq.add_left_cancel' r.head heq
  rw [Nat.mod_eq_of_lt (by omega), Nat.mod_eq_of_lt hlt] at hmod
  omega

theorem slot_push_old (x : α) {k : Nat} (h : k < r.size) :
    (r.push x).slot k = r.slot k := by
  have hlt : (r.head + k) % n < n :=
    Nat.mod_lt _ (Nat.lt_of_le_of_lt (Nat.zero_le _) r.head_lt)
  change (r.slots.set r.tail x r.tail_lt)[(r.head + k) % n] =
    r.slots[(r.head + k) % n]
  exact Vector.getElem_set_ne r.tail_lt hlt (index_ne_tail h).symm

theorem slot_push_new (x : α) : (r.push x).slot r.size = x := by
  have hlt : (r.head + r.size) % n < n := tail_eq (r := r) ▸ r.tail_lt
  change (r.slots.set r.tail x r.tail_lt)[(r.head + r.size) % n] = x
  simp [← tail_eq]

theorem contents_push (x : α) (h : r.full = false) :
    (r.push x).contents = r.contents ++ [x] := by
  rw [contents, size_push x h, List.range_succ, List.map_append,
    List.map_singleton, slot_push_new]
  congr 1
  apply List.map_congr_left
  intro k hk
  exact slot_push_old x (List.mem_range.mp hk)

theorem slot_pop (k : Nat) : r.pop.slot k = r.slot (k + 1) := by
  simp only [slot, pop]
  congr 2
  rw [Nat.mod_add_mod, Nat.add_assoc, Nat.add_comm 1 k]

theorem contents_pop (h : r.isEmpty = false) :
    r.contents = r.front :: r.pop.contents := by
  rw [contents, ← size_pop h, List.range_succ_eq_map, List.map_cons,
    List.map_map]
  congr 1
  · simp [slot, front, Nat.mod_eq_of_lt r.head_lt]
  · rw [contents]
    apply List.map_congr_left
    intro k _
    exact (slot_pop k).symm

end Ring

end EzRouter.Foundation

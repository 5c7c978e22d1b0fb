import Mathlib.Data.List.TakeWhile
import Mathlib.Data.Nat.Digits.Defs

/-!
# Fixed arrays, C strings and little-endian words

A C array of bytes is a `Buffer`: a list of exactly the declared length.  A
store into it keeps the length, so no value of the type is a buffer that has
been overrun.  A C string is a byte list without a zero; it is what reading an
array up to its terminator yields.
-/

namespace EzRouter.Foundation

theorem forall_byte {p : UInt8 → Prop} (h : ∀ n : Fin 256, p (.ofNat n))
    (b : UInt8) : p b := by
  have hb := h ⟨b.toNat, b.toNat_lt⟩
  rwa [UInt8.ofNat_toNat] at hb

structure CStr where
  bytes : List UInt8
  noNul : (0 : UInt8) ∉ bytes
  deriving DecidableEq, Repr

namespace CStr

@[ext] theorem ext {s t : CStr} (h : s.bytes = t.bytes) : s = t := by
  cases s
  cases t
  simpa using h

/-- The string that starts at the head of `bytes` and ends before the first
zero. -/
def ofBytes (bytes : List UInt8) : CStr where
  bytes := bytes.takeWhile (· != 0)
  noNul := fun h => by simpa using List.mem_takeWhile_imp h

def lit (text : String) : CStr :=
  ofBytes (text.toList.map fun c => UInt8.ofNat c.toNat)

def empty : CStr := ⟨[], by simp⟩

def length (s : CStr) : Nat := s.bytes.length

def take (n : Nat) (s : CStr) : CStr :=
  ⟨s.bytes.take n, fun h => s.noNul (List.mem_of_mem_take h)⟩

@[simp] theorem bytes_take (n : Nat) (s : CStr) :
    (s.take n).bytes = s.bytes.take n := rfl

theorem take_eq_self_iff {s : CStr} {n : Nat} :
    s.take n = s ↔ s.length ≤ n := by
  constructor
  · intro heq
    rw [← heq]
    exact List.length_take_le _ _
  · intro hle
    ext1
    exact List.take_of_length_le hle

theorem ofBytes_append_zero (s : CStr) (rest : List UInt8) :
    ofBytes (s.bytes ++ 0 :: rest) = s := by
  ext1
  have hall : ∀ b ∈ s.bytes, (b != 0) = true := by
    intro b hb
    have hne : b ≠ 0 := fun h => s.noNul (h ▸ hb)
    simpa using hne
  simp [ofBytes, List.takeWhile_append_of_pos hall]

theorem ofBytes_bytes (s : CStr) : ofBytes s.bytes = s := by
  ext1
  rw [ofBytes, List.takeWhile_eq_self_iff]
  intro b hb
  have hne : b ≠ 0 := fun h => s.noNul (h ▸ hb)
  simpa using hne

def IsLongestFit (cap : Nat) (s p : CStr) : Prop :=
  p.bytes <+: s.bytes ∧ p.length + 1 ≤ cap ∧
    ∀ q : CStr, q.bytes <+: s.bytes → q.length + 1 ≤ cap →
      q.length ≤ p.length

theorem take_isLongestFit {cap : Nat} (hcap : 0 < cap) (s : CStr) :
    IsLongestFit cap s (s.take (cap - 1)) := by
  refine ⟨List.take_prefix _ _, ?_, ?_⟩
  · simp [length]
    omega
  · intro q hq hfit
    have := hq.length_le
    simp [length] at hfit this ⊢
    omega

theorem IsLongestFit.unique {cap : Nat} {s p q : CStr}
    (hp : IsLongestFit cap s p) (hq : IsLongestFit cap s q) : p = q := by
  obtain ⟨hpre, hfit, hmax⟩ := hp
  obtain ⟨hpre', hfit', hmax'⟩ := hq
  have hlen : p.bytes.length = q.bytes.length :=
    Nat.le_antisymm (hmax' p hpre hfit) (hmax q hpre' hfit')
  ext1
  rw [List.prefix_iff_eq_take.1 hpre, List.prefix_iff_eq_take.1 hpre', hlen]

end CStr

/-! ## Arrays of bytes -/

structure Buffer (cap : Nat) where
  bytes : List UInt8
  length_eq : bytes.length = cap
  deriving DecidableEq, Repr

namespace Buffer

variable {cap : Nat}

@[ext] theorem ext {a b : Buffer cap} (h : a.bytes = b.bytes) : a = b := by
  cases a
  cases b
  simpa using h

def zero (cap : Nat) : Buffer cap := ⟨List.replicate cap 0, by simp⟩

/-- Copy `data` into the array from `offset` on.  Bytes that would land past
the end are cut off; the callers never reach that case. -/
def write (b : Buffer cap) (offset : Nat) (data : List UInt8) : Buffer cap where
  bytes := b.bytes.take offset ++
    ((data ++ b.bytes.drop (offset + data.length)).take (cap - offset))
  length_eq := by
    have := b.length_eq
    simp
    omega

def slice (b : Buffer cap) (offset len : Nat) : List UInt8 :=
  (b.bytes.drop offset).take len

theorem write_bytes (b : Buffer cap) {offset : Nat} {data : List UInt8}
    (h : offset + data.length ≤ cap) :
    (b.write offset data).bytes =
      b.bytes.take offset ++ data ++ b.bytes.drop (offset + data.length) := by
  have := b.length_eq
  simp only [write, List.append_assoc, List.append_cancel_left_eq]
  apply List.take_of_length_le
  simp
  omega

theorem take_write_append (b : Buffer cap) {n : Nat} (data : List UInt8)
    (h : n + data.length ≤ cap) :
    (b.write n data).bytes.take (n + data.length) = b.bytes.take n ++ data := by
  have hlen := b.length_eq
  rw [write_bytes b h]
  apply List.take_left'
  simp
  omega

theorem take_write_zero (b : Buffer cap) (data : List UInt8)
    (h : data.length ≤ cap) :
    (b.write 0 data).bytes.take data.length = data := by
  have hfit : 0 + data.length ≤ cap := by omega
  simpa using take_write_append b data hfit

def str (b : Buffer cap) : CStr := CStr.ofBytes b.bytes

theorem str_write_terminated (b : Buffer cap) {s : CStr}
    (h : s.length + 1 ≤ cap) : (b.write 0 (s.bytes ++ [0])).str = s := by
  have hfit : 0 + (s.bytes ++ [0]).length ≤ cap := by
    simpa [CStr.length] using h
  rw [str, write_bytes b hfit]
  simp only [List.take_zero, List.nil_append, List.append_assoc,
    List.singleton_append]
  exact CStr.ofBytes_append_zero s _

def ofStr (cap : Nat) (s : CStr) : Buffer cap :=
  (zero cap).write 0 (s.bytes.take (cap - 1))

theorem ofStr_bytes (s : CStr) :
    (ofStr cap s).bytes =
      s.bytes.take (cap - 1) ++
        List.replicate (cap - (s.bytes.take (cap - 1)).length) 0 := by
  rw [ofStr, write_bytes _ (by simp)]
  simp [zero]

@[simp] theorem str_ofStr (hcap : 0 < cap) (s : CStr) :
    (ofStr cap s).str = s.take (cap - 1) := by
  obtain ⟨k, hk⟩ : ∃ k, cap - (s.bytes.take (cap - 1)).length = k + 1 :=
    ⟨cap - (s.bytes.take (cap - 1)).length - 1, by simp; omega⟩
  rw [str, ofStr_bytes, hk, List.replicate_succ]
  exact CStr.ofBytes_append_zero (s.take (cap - 1)) _

@[simp] theorem str_zero (cap : Nat) : (zero cap).str = CStr.empty := by
  ext1
  cases cap <;> simp [str, zero, CStr.ofBytes, CStr.empty, List.replicate_succ]

end Buffer

/-! ## Little-endian words -/

def leBytes : Nat → Nat → List UInt8
  | 0, _ => []
  | width + 1, n => UInt8.ofNat n :: leBytes width (n / 256)

def leNat (bytes : List UInt8) : Nat :=
  Nat.ofDigits 256 (bytes.map UInt8.toNat)

@[simp] theorem length_leBytes (width n : Nat) :
    (leBytes width n).length = width := by
  induction width generalizing n with
  | zero => rfl
  | succ width ih => simp [leBytes, ih]

theorem leNat_cons (b : UInt8) (bytes : List UInt8) :
    leNat (b :: bytes) = b.toNat + 256 * leNat bytes := by
  simp [leNat, Nat.ofDigits_cons]

theorem leNat_lt (bytes : List UInt8) :
    leNat bytes < 256 ^ bytes.length := by
  induction bytes with
  | nil => simp [leNat]
  | cons b bytes ih =>
      have hb := b.toNat_lt
      rw [leNat_cons, List.length_cons, pow_succ]
      omega

theorem leNat_leBytes {width n : Nat} (h : n < 256 ^ width) :
    leNat (leBytes width n) = n := by
  induction width generalizing n with
  | zero =>
      obtain rfl : n = 0 := by simpa using h
      rfl
  | succ width ih =>
      have hrest : n / 256 < 256 ^ width := by
        rw [pow_succ] at h
        omega
      rw [leBytes, leNat_cons, ih hrest, UInt8.toNat_ofNat']
      omega

theorem leBytes_leNat (bytes : List UInt8) :
    leBytes bytes.length (leNat bytes) = bytes := by
  induction bytes with
  | nil => rfl
  | cons b bytes ih =>
      have hb := b.toNat_lt
      have hdiv : (b.toNat + 256 * leNat bytes) / 256 = leNat bytes := by
        omega
      have hhead : UInt8.ofNat (b.toNat + 256 * leNat bytes) = b := by
        rw [← UInt8.toNat_inj, UInt8.toNat_ofNat']
        omega
      rw [leNat_cons, List.length_cons, leBytes, hdiv, hhead, ih]

end EzRouter.Foundation

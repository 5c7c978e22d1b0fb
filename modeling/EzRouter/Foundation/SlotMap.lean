import EzRouter.Foundation.Slots
import Mathlib.Data.Finset.Card
import Mathlib.Data.Finset.Dedup

/-!
# Slot tables as bounded maps

A table of slots, some of them in use, stands for a partial map from the keys
of the used slots to their values.  `BoundedMap` is that map: at most `n` keys,
and a second key `tag` that tells the values apart.  Claiming a free slot
inserts, releasing a used one erases, and rewriting one in place modifies.
-/

namespace EzRouter.Foundation

structure BoundedMap (κ ν δ : Type*) (n : Nat) (tag : ν → δ) where
  lookup : κ → Option ν
  keys : Finset κ
  mem_keys : ∀ k, k ∈ keys ↔ (lookup k).isSome = true
  card_le : keys.card ≤ n
  tag_inj : ∀ k l v w, lookup k = some v → lookup l = some w →
    tag v = tag w → k = l

namespace BoundedMap

variable {κ ν δ : Type*} [DecidableEq κ] {n : Nat} {tag : ν → δ}

omit [DecidableEq κ] in
theorem not_mem_keys (m : BoundedMap κ ν δ n tag) (k : κ) :
    k ∉ m.keys ↔ m.lookup k = none := by
  rw [m.mem_keys]
  cases m.lookup k <;> simp

def empty : BoundedMap κ ν δ n tag where
  lookup := fun _ => none
  keys := ∅
  mem_keys := by simp
  card_le := by simp
  tag_inj := by simp

def insert (m : BoundedMap κ ν δ n tag) (k : κ) (v : ν)
    (hroom : m.keys.card < n)
    (htag : ∀ l w, m.lookup l = some w → tag w ≠ tag v) :
    BoundedMap κ ν δ n tag where
  lookup := Function.update m.lookup k (some v)
  keys := Insert.insert k m.keys
  mem_keys := by
    intro l
    by_cases hl : l = k
    · simp [hl]
    · simp [hl, m.mem_keys]
  card_le := (Finset.card_insert_le _ _).trans hroom
  tag_inj := by
    intro k₁ k₂ v₁ v₂ h₁ h₂ heq
    by_cases hk₁ : k₁ = k <;> by_cases hk₂ : k₂ = k
    · rw [hk₁, hk₂]
    · rw [hk₁, Function.update_self, Option.some.injEq] at h₁
      rw [Function.update_of_ne hk₂] at h₂
      exact absurd (heq.symm.trans (congrArg tag h₁.symm)) (htag _ _ h₂)
    · rw [Function.update_of_ne hk₁] at h₁
      rw [hk₂, Function.update_self, Option.some.injEq] at h₂
      exact absurd (heq.trans (congrArg tag h₂.symm)) (htag _ _ h₁)
    · rw [Function.update_of_ne hk₁] at h₁
      rw [Function.update_of_ne hk₂] at h₂
      exact m.tag_inj _ _ _ _ h₁ h₂ heq

def erase (m : BoundedMap κ ν δ n tag) (k : κ) :
    BoundedMap κ ν δ n tag where
  lookup := Function.update m.lookup k none
  keys := m.keys.erase k
  mem_keys := by
    intro l
    by_cases hl : l = k
    · simp [hl]
    · simp [hl, m.mem_keys]
  card_le := (Finset.card_erase_le).trans m.card_le
  tag_inj := by
    have hold : ∀ l v, Function.update m.lookup k none l = some v →
        m.lookup l = some v := by
      intro l v hl
      by_cases hlk : l = k
      · simp [hlk] at hl
      · rwa [Function.update_of_ne hlk] at hl
    intro k₁ k₂ v₁ v₂ h₁ h₂
    exact m.tag_inj _ _ _ _ (hold _ _ h₁) (hold _ _ h₂)

def modify (m : BoundedMap κ ν δ n tag) (k : κ) (f : ν → ν)
    (htag : ∀ v, tag (f v) = tag v) : BoundedMap κ ν δ n tag where
  lookup := Function.update m.lookup k ((m.lookup k).map f)
  keys := m.keys
  mem_keys := by
    intro l
    by_cases hl : l = k
    · simp [hl, m.mem_keys]
    · simp [Function.update_of_ne hl, m.mem_keys]
  card_le := m.card_le
  tag_inj := by
    have hold : ∀ l v, Function.update m.lookup k ((m.lookup k).map f) l =
        some v → ∃ w, m.lookup l = some w ∧ tag w = tag v := by
      intro l v hl
      by_cases hlk : l = k
      · rw [hlk, Function.update_self, Option.map_eq_some_iff] at hl
        obtain ⟨w, hw, rfl⟩ := hl
        exact ⟨w, hlk ▸ hw, (htag w).symm⟩
      · rw [Function.update_of_ne hlk] at hl
        exact ⟨v, hl, rfl⟩
    intro k₁ k₂ v₁ v₂ h₁ h₂ heq
    obtain ⟨w₁, hw₁, ha₁⟩ := hold _ _ h₁
    obtain ⟨w₂, hw₂, ha₂⟩ := hold _ _ h₂
    exact m.tag_inj _ _ _ _ hw₁ hw₂ (ha₁.trans (heq.trans ha₂.symm))

end BoundedMap

section Used

variable {α : Type*} {used : α → Bool}

theorem filter_claim {before after : List α} {x y : α} (hx : used x = false)
    (hy : used y = true) :
    ((before ++ y :: after).filter used).Perm
      (y :: (before ++ x :: after).filter used) := by
  simp only [List.filter_append, List.filter_cons, hx, hy, if_true]
  exact List.perm_middle

theorem filter_release {before after : List α} {x y : α} (hx : used x = true)
    (hy : used y = false) :
    ((before ++ x :: after).filter used).Perm
      (x :: (before ++ y :: after).filter used) :=
  filter_claim hy hx

theorem filter_rewrite (before after : List α) {x y : α}
    (hx : used x = true) (hy : used y = true) :
    ∃ others, ((before ++ x :: after).filter used).Perm (x :: others) ∧
      ((before ++ y :: after).filter used).Perm (y :: others) := by
  refine ⟨before.filter used ++ after.filter used, ?_, ?_⟩
  · simp only [List.filter_append, List.filter_cons, hx, if_true]
    exact List.perm_middle
  · simp only [List.filter_append, List.filter_cons, hy, if_true]
    exact List.perm_middle

end Used

/-! ## Representation -/

section Represents

variable {α κ ν δ : Type*} {n : Nat} {tag : ν → δ}
variable {used : α → Bool} {key : α → κ} {value : α → ν}

structure Represents (used : α → Bool) (key : α → κ) (value : α → ν)
    (table : List α) (m : BoundedMap κ ν δ n tag) : Prop where
  nodup : ((table.filter used).map key).Nodup
  lookup_iff : ∀ k v, m.lookup k = some v ↔
    ∃ e ∈ table.filter used, key e = k ∧ value e = v

namespace Represents

variable {table table' : List α} {m : BoundedMap κ ν δ n tag}

theorem lookup_of_mem (h : Represents used key value table m) {e : α}
    (he : e ∈ table.filter used) : m.lookup (key e) = some (value e) :=
  (h.lookup_iff _ _).2 ⟨e, he, rfl, rfl⟩

theorem lookup_eq_none_iff (h : Represents used key value table m) (k : κ) :
    m.lookup k = none ↔ ∀ e ∈ table.filter used, key e ≠ k := by
  constructor
  · rintro hnone e he rfl
    rw [h.lookup_of_mem he] at hnone
    contradiction
  · intro hfree
    rw [Option.eq_none_iff_forall_ne_some]
    intro v hv
    obtain ⟨e, he, hkey, -⟩ := (h.lookup_iff _ _).1 hv
    exact hfree e he hkey

theorem empty [DecidableEq κ] (hfree : table.filter used = []) :
    Represents used key value table
      (BoundedMap.empty : BoundedMap κ ν δ n tag) := by
  constructor
  · simp [hfree]
  · simp [hfree, BoundedMap.empty]

theorem card_keys [DecidableEq κ] (h : Represents used key value table m) :
    m.keys.card = (table.filter used).length := by
  have hkeys : m.keys = ((table.filter used).map key).toFinset := by
    ext k
    rw [m.mem_keys, Option.isSome_iff_exists]
    simp only [h.lookup_iff, List.mem_toFinset, List.mem_map]
    constructor
    · rintro ⟨v, e, he, hkey, -⟩
      exact ⟨e, he, hkey⟩
    · rintro ⟨e, he, hkey⟩
      exact ⟨value e, e, he, hkey, rfl⟩
  rw [hkeys, List.toFinset_card_of_nodup h.nodup, List.length_map]

theorem insert [DecidableEq κ] (h : Represents used key value table m) {e : α}
    (hperm : (table'.filter used).Perm (e :: table.filter used))
    (hfresh : m.lookup (key e) = none) (hroom : m.keys.card < n)
    (htag : ∀ l w, m.lookup l = some w → tag w ≠ tag (value e)) :
    Represents used key value table'
      (m.insert (key e) (value e) hroom htag) := by
  have hother := (h.lookup_eq_none_iff _).1 hfresh
  constructor
  · rw [(hperm.map key).nodup_iff, List.map_cons, List.nodup_cons]
    refine ⟨?_, h.nodup⟩
    simpa using hother
  · intro k v
    simp only [BoundedMap.insert, hperm.mem_iff, List.mem_cons]
    by_cases hk : k = key e
    · rw [hk, Function.update_self]
      constructor
      · rintro ⟨rfl⟩
        exact ⟨e, .inl rfl, rfl, rfl⟩
      · rintro ⟨e', rfl | he', hkey, rfl⟩
        · rfl
        · exact absurd hkey (hother e' he')
    · rw [Function.update_of_ne hk, h.lookup_iff]
      constructor
      · rintro ⟨e', he', hkey, hvalue⟩
        exact ⟨e', .inr he', hkey, hvalue⟩
      · rintro ⟨e', rfl | he', hkey, hvalue⟩
        · exact absurd hkey.symm hk
        · exact ⟨e', he', hkey, hvalue⟩

theorem erase [DecidableEq κ] (h : Represents used key value table m) {e : α}
    (hperm : (table.filter used).Perm (e :: table'.filter used)) :
    Represents used key value table' (m.erase (key e)) := by
  have hnodup := h.nodup
  rw [(hperm.map key).nodup_iff, List.map_cons, List.nodup_cons] at hnodup
  obtain ⟨hother, hrest⟩ := hnodup
  constructor
  · exact hrest
  · intro k v
    simp only [BoundedMap.erase]
    by_cases hk : k = key e
    · rw [hk, Function.update_self]
      constructor
      · intro hcontra
        contradiction
      · rintro ⟨e', he', hkey, -⟩
        exact absurd (List.mem_map.2 ⟨e', he', hkey⟩) hother
    · rw [Function.update_of_ne hk, h.lookup_iff]
      simp only [hperm.mem_iff, List.mem_cons]
      constructor
      · rintro ⟨e', rfl | he', hkey, hvalue⟩
        · exact absurd hkey.symm hk
        · exact ⟨e', he', hkey, hvalue⟩
      · rintro ⟨e', he', hkey, hvalue⟩
        exact ⟨e', .inr he', hkey, hvalue⟩

theorem modify [DecidableEq κ] (h : Represents used key value table m)
    {e e' : α} {others : List α} {f : ν → ν}
    (hperm : (table.filter used).Perm (e :: others))
    (hperm' : (table'.filter used).Perm (e' :: others))
    (hkey : key e' = key e) (hvalue : value e' = f (value e))
    (htag : ∀ v, tag (f v) = tag v) :
    Represents used key value table' (m.modify (key e) f htag) := by
  have hnodup := h.nodup
  rw [(hperm.map key).nodup_iff, List.map_cons] at hnodup
  have hother := (List.nodup_cons.1 hnodup).1
  constructor
  · rw [(hperm'.map key).nodup_iff, List.map_cons, hkey]
    exact hnodup
  · intro k v
    simp only [BoundedMap.modify, hperm'.mem_iff, List.mem_cons]
    by_cases hk : k = key e
    · rw [hk, Function.update_self,
        h.lookup_of_mem (hperm.mem_iff.2 (by simp)), Option.map_some, ← hvalue]
      constructor
      · rintro ⟨rfl⟩
        exact ⟨e', .inl rfl, hkey, rfl⟩
      · rintro ⟨x, rfl | hx, hkeyx, rfl⟩
        · rfl
        · exact absurd (List.mem_map.2 ⟨x, hx, hkeyx⟩) hother
    · rw [Function.update_of_ne hk, h.lookup_iff]
      simp only [hperm.mem_iff, List.mem_cons]
      constructor
      · rintro ⟨x, rfl | hx, hkeyx, hvaluex⟩
        · exact absurd hkeyx.symm hk
        · exact ⟨x, .inr hx, hkeyx, hvaluex⟩
      · rintro ⟨x, rfl | hx, hkeyx, hvaluex⟩
        · exact absurd (hkeyx.symm.trans hkey) hk
        · exact ⟨x, .inr hx, hkeyx, hvaluex⟩

theorem find_key [DecidableEq κ] (h : Represents used key value table m)
    (k : κ) :
    (table.find? fun e => used e && decide (key e = k)).map
        (fun e => (key e, value e)) = (m.lookup k).map (Prod.mk k) := by
  cases hfind : table.find? fun e => used e && decide (key e = k) with
  | none =>
      have hnone : m.lookup k = none := by
        rw [h.lookup_eq_none_iff]
        intro e he hkey
        obtain ⟨hmem, hused⟩ := List.mem_filter.1 he
        have hmiss := List.find?_eq_none.1 hfind e hmem
        simp [hused, hkey] at hmiss
      rw [hnone]
      rfl
  | some e =>
      have hmatch := List.find?_some hfind
      simp only [Bool.and_eq_true, decide_eq_true_eq] at hmatch
      have hmem := List.mem_filter.2 ⟨List.mem_of_find?_eq_some hfind, hmatch.1⟩
      rw [← hmatch.2, h.lookup_of_mem hmem]
      rfl

theorem find_tag [DecidableEq δ] (h : Represents used key value table m)
    (d : δ) (k : κ) (v : ν) :
    (table.find? fun e => used e && decide (tag (value e) = d)).map
        (fun e => (key e, value e)) = some (k, v) ↔
      m.lookup k = some v ∧ tag v = d := by
  constructor
  · intro hfound
    obtain ⟨e, hfind, hpair⟩ := Option.map_eq_some_iff.1 hfound
    obtain ⟨rfl, rfl⟩ := Prod.mk.inj hpair
    have hmatch := List.find?_some hfind
    simp only [Bool.and_eq_true, decide_eq_true_eq] at hmatch
    have hmem := List.mem_filter.2 ⟨List.mem_of_find?_eq_some hfind, hmatch.1⟩
    exact ⟨h.lookup_of_mem hmem, hmatch.2⟩
  · rintro ⟨hlookup, hd⟩
    obtain ⟨e, he, hkey, hvalue⟩ := (h.lookup_iff _ _).1 hlookup
    obtain ⟨hmem, hused⟩ := List.mem_filter.1 he
    cases hfind : table.find? fun e => used e && decide (tag (value e) = d) with
    | none =>
        have hnone := List.find?_eq_none.1 hfind e hmem
        simp [hused, hvalue, hd] at hnone
    | some e' =>
        have hmatch := List.find?_some hfind
        simp only [Bool.and_eq_true, decide_eq_true_eq] at hmatch
        have hmem' :=
          List.mem_filter.2 ⟨List.mem_of_find?_eq_some hfind, hmatch.1⟩
        have hlookup' := h.lookup_of_mem hmem'
        have hk : key e' = k := m.tag_inj _ _ _ _ hlookup' hlookup
          (hmatch.2.trans hd.symm)
        rw [hk, hlookup, Option.some.injEq] at hlookup'
        simp [hk, hlookup']

end Represents

end Represents

end EzRouter.Foundation

import Mathlib.Data.List.Basic

/-!
# Readers

A reader takes a value off the front of its input and hands back the rest, or
rejects the input.  The one combinator is the loop of a bracketed list: an
item, then a separator and another item, until the closing symbol is met.  The
loop counts its turns down; a reader that never makes its input longer cannot
use them up.
-/

namespace EzRouter.Foundation

abbrev Reader (α β : Type*) := List α → Option (β × List α)

namespace Reader

variable {α β : Type*}

def Shrinks (item : Reader α β) : Prop :=
  ∀ input value rest, item input = some (value, rest) →
    rest.length ≤ input.length

def Yields (item : Reader α β) (good : β → Prop) : Prop :=
  ∀ input value rest, item input = some (value, rest) → good value

/-- The text is read as the value, whichever of `stops` comes next. -/
def Reads (item : Reader α β) (stops : α → Prop) (text : List α)
    (value : β) : Prop :=
  ∀ a rest, stops a → item (text ++ a :: rest) = some (value, a :: rest)

variable [DecidableEq α]

def sepBy (item : Reader α β) (sep close : α) : Nat → Reader α (List β)
  | 0, _ => none
  | turns + 1, input =>
      match item input with
      | none => none
      | some (_, []) => none
      | some (value, a :: rest) =>
          if a = sep then
            (sepBy item sep close turns rest).map fun out =>
              (value :: out.1, out.2)
          else if a = close then some ([value], rest)
          else none

variable {item : Reader α β} {sep close : α}

theorem sepBy_cases {turns : Nat} {input rest : List α} {values : List β}
    (h : sepBy item sep close turns input = some (values, rest)) :
    ∃ left value, turns = left + 1 ∧
      (item input = some (value, close :: rest) ∧ values = [value] ∨
        ∃ input' values', item input = some (value, sep :: input') ∧
          sepBy item sep close left input' = some (values', rest) ∧
          values = value :: values') := by
  cases turns with
  | zero => simp [sepBy] at h
  | succ left =>
      rw [sepBy] at h
      cases hitem : item input with
      | none => simp [hitem] at h
      | some out =>
          rcases out with ⟨value, _ | ⟨a, input'⟩⟩
          · simp [hitem] at h
          · simp only [hitem] at h
            refine ⟨left, value, rfl, ?_⟩
            split_ifs at h with hsep hclose
            · subst hsep
              rcases Option.map_eq_some_iff.1 h with
                ⟨⟨values', rest'⟩, hrec, heq⟩
              cases heq
              exact .inr ⟨input', values', rfl, hrec, rfl⟩
            · subst hclose
              cases h
              exact .inl ⟨rfl, rfl⟩

theorem sepBy_shrinks (hshrinks : Shrinks item) (turns : Nat) :
    ∀ input values rest,
      sepBy item sep close turns input = some (values, rest) →
        rest.length < input.length := by
  induction turns with
  | zero =>
      intro input values rest h
      simp [sepBy] at h
  | succ turns ih =>
      intro input values rest h
      rcases sepBy_cases h with ⟨left, value, hturns, hlast | hmore⟩
      · have hle := hshrinks _ _ _ hlast.1
        rw [List.length_cons] at hle
        omega
      · cases hturns
        rcases hmore with ⟨input', values', hitem, hrec, -⟩
        have hle := hshrinks _ _ _ hitem
        have hlt := ih _ _ _ hrec
        rw [List.length_cons] at hle
        omega

theorem sepBy_yields {good : β → Prop} (hyields : Yields item good)
    (turns : Nat) :
    Yields (sepBy item sep close turns) fun values =>
      ∀ value ∈ values, good value := by
  induction turns with
  | zero =>
      intro input values rest h
      simp [sepBy] at h
  | succ turns ih =>
      intro input values rest h
      rcases sepBy_cases h with ⟨left, value, hturns, hlast | hmore⟩
      · rcases hlast with ⟨hitem, rfl⟩
        simpa using hyields _ _ _ hitem
      · cases hturns
        rcases hmore with ⟨input', values', hitem, hrec, rfl⟩
        intro v hv
        rcases List.mem_cons.1 hv with rfl | hv
        · exact hyields _ _ _ hitem
        · exact ih _ _ _ hrec v hv

theorem sepBy_congr (turns : Nat) {input input' : List α}
    (h : item input = item input') :
    sepBy item sep close turns input = sepBy item sep close turns input' := by
  cases turns with
  | zero => rfl
  | succ turns => rw [sepBy, sepBy, h]

theorem sepBy_turns (hshrinks : Shrinks item) {turns turns' : Nat}
    {input : List α} (h : input.length < turns) (h' : input.length < turns') :
    sepBy item sep close turns input = sepBy item sep close turns' input := by
  induction turns generalizing turns' input with
  | zero => omega
  | succ turns ih =>
      cases turns' with
      | zero => omega
      | succ turns' =>
          rw [sepBy, sepBy]
          cases hitem : item input with
          | none => rfl
          | some out =>
              rcases out with ⟨value, _ | ⟨a, rest⟩⟩
              · rfl
              · have hle := hshrinks _ _ _ hitem
                rw [List.length_cons] at hle
                have hrec := @ih turns' rest (by omega) (by omega)
                simp only [hrec]

inductive ListText (item : Reader α β) (stops : α → Prop) (sep close : α) :
    List α → List β → Prop where
  | last {text : List α} {value : β} (h : Reads item stops text value) :
      ListText item stops sep close (text ++ [close]) [value]
  | more {text rest : List α} {value : β} {values : List β}
      (h : Reads item stops text value)
      (hrest : ListText item stops sep close rest values) :
      ListText item stops sep close (text ++ sep :: rest) (value :: values)

omit [DecidableEq α] in
theorem ListText.length_le {stops : α → Prop} {text : List α}
    {values : List β} (h : ListText item stops sep close text values) :
    values.length ≤ text.length := by
  induction h with
  | last _ => simp
  | more _ _ ih =>
      simp only [List.length_append, List.length_cons]
      omega

theorem sepBy_of_listText {stops : α → Prop} (hsep : stops sep)
    (hclose : stops close) (hne : close ≠ sep) {text : List α}
    {values : List β} (h : ListText item stops sep close text values)
    {turns : Nat} (hturns : values.length ≤ turns) (tail : List α) :
    sepBy item sep close turns (text ++ tail) = some (values, tail) := by
  induction h generalizing turns with
  | last hread =>
      cases turns with
      | zero => simp at hturns
      | succ turns =>
          rw [List.append_assoc, List.singleton_append, sepBy,
            hread close tail hclose]
          simp [hne]
  | @more text rest value values hread _ ih =>
      cases turns with
      | zero => simp at hturns
      | succ turns =>
          rw [List.length_cons] at hturns
          rw [List.append_assoc, List.cons_append, sepBy,
            hread sep (rest ++ tail) hsep]
          simp only [if_true]
          rw [@ih turns (by omega)]
          rfl

end Reader

end EzRouter.Foundation

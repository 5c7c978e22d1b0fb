import EzRouter.Config.CJsonPrint
import Mathlib.Data.List.Basic

/-!
# The text of a tree

The text that the printer writes, as a function of the tree, and that the
printer writes it unless it is too long.
-/

namespace EzRouter

open EzRouter.Foundation Ascii

def stringText (s : CStr) : List UInt8 :=
  quote :: s.bytes.flatMap escapeByte ++ [quote]

mutual

def valueText (format : Bool) (depth : Nat) : CJson → List UInt8
  | .null => (CStr.lit "null").bytes
  | .bool false => (CStr.lit "false").bytes
  | .bool true => (CStr.lit "true").bytes
  | .number valueint => intText valueint
  | .string valuestring => stringText valuestring
  | .array items =>
      openBracket :: itemsText format (depth + 1) items ++ [closeBracket]
  | .object members =>
      openBrace :: formatted format [newline] ++
        membersText format (depth + 1) members ++
        formatted format (tabs depth) ++ [closeBrace]

def itemsText (format : Bool) (depth : Nat) : List CJson → List UInt8
  | [] => []
  | item :: items =>
      valueText format depth item ++
        (if items.isEmpty then [] else comma :: formatted format [space]) ++
        itemsText format depth items

def membersText (format : Bool) (depth : Nat) :
    List (CStr × CJson) → List UInt8
  | [] => []
  | (key, value) :: members =>
      formatted format (tabs depth) ++ stringText key ++
        colon :: formatted format [tab] ++ valueText format depth value ++
        (if members.isEmpty then [] else [comma]) ++
        formatted format [newline] ++ membersText format depth members

end

structure Writes (step : List UInt8 → Option (List UInt8))
    (text : List UInt8) : Prop where
  only : ∀ out out', step out = some out' → out' = out ++ text
  fits : ∀ out, out.length + text.length + 2 ≤ intMax.toNat →
    step out = some (out ++ text)

theorem writes_ensure {needed : Nat} {text : List UInt8}
    (h : needed ≤ text.length + 1) : Writes (ensure needed text) text where
  only := by
    intro out out' hout
    unfold ensure at hout
    split_ifs at hout
    exact (Option.some.inj hout).symm
  fits := by
    intro out hfits
    apply if_pos
    omega

theorem writes_some : Writes some [] where
  only := by
    intro out out' hout
    rw [List.append_nil]
    exact (Option.some.inj hout).symm
  fits := by
    intro out _
    rw [List.append_nil]

theorem Writes.bind {f g : List UInt8 → Option (List UInt8)}
    {text text' : List UInt8} (hf : Writes f text) (hg : Writes g text') :
    Writes (fun out => (f out).bind g) (text ++ text') where
  only := by
    intro out out' hout
    rcases Option.bind_eq_some_iff.1 hout with ⟨mid, hmid, hout⟩
    rw [hg.only _ _ hout, hf.only _ _ hmid, List.append_assoc]
  fits := by
    intro out hfits
    rw [List.length_append] at hfits
    rw [hf.fits out (by omega), Option.bind_some,
      hg.fits _ (by rw [List.length_append]; omega), List.append_assoc]

theorem length_escapeByte (b : UInt8) :
    (escapeByte b).length = 1 + escapeCharacters b := by
  revert b
  apply forall_byte
  decide +kernel

theorem length_flatMap_escapeByte (bytes : List UInt8) :
    (bytes.flatMap escapeByte).length =
      bytes.length + (bytes.map escapeCharacters).sum := by
  induction bytes with
  | nil => rfl
  | cons b bytes ih =>
      rw [List.flatMap_cons, List.length_append, length_escapeByte, ih,
        List.length_cons, List.map_cons, List.sum_cons]
      omega

theorem escapeByte_of_plain (b : UInt8) :
    escapeCharacters b = 0 → escapeByte b = [b] := by
  revert b
  apply forall_byte
  decide +kernel

theorem printStringPtr_eq (s : CStr) (out : List UInt8) :
    printStringPtr s out =
      ensure ((stringText s).length + 1) (stringText s) out := by
  have hlen : (stringText s).length =
      s.length + (s.bytes.map escapeCharacters).sum + 2 := by
    rw [stringText, List.length_append, List.length_cons,
      length_flatMap_escapeByte]
    rfl
  rw [hlen]
  unfold printStringPtr
  by_cases hzero : (s.bytes.map escapeCharacters).sum = 0
  · have hplain : s.bytes.flatMap escapeByte = s.bytes := by
      have hall : ∀ b ∈ s.bytes, escapeByte b = [b] := by
        intro b hb
        apply escapeByte_of_plain
        exact List.sum_eq_zero_iff_forall_eq_nat.1 hzero _
          (List.mem_map_of_mem hb)
      rw [List.flatMap_congr hall, List.flatMap_singleton']
    simp only [hzero, if_true, stringText, hplain]
  · simp only [if_neg hzero, stringText]

theorem writes_printStringPtr (s : CStr) :
    Writes (printStringPtr s) (stringText s) := by
  rw [funext (printStringPtr_eq s)]
  exact writes_ensure (Nat.le_refl _)

mutual

theorem writes_printValue (format : Bool) (depth : Nat) (v : CJson) :
    Writes (printValue format depth v) (valueText format depth v) := by
  match v with
  | .null => exact writes_ensure (by decide)
  | .bool false => exact writes_ensure (by decide)
  | .bool true => exact writes_ensure (by decide)
  | .number n => exact writes_ensure (Nat.le_refl _)
  | .string s => exact writes_printStringPtr s
  | .array items =>
      have hopen : Writes (ensure 1 [openBracket]) _ :=
        writes_ensure (by decide)
      have hclose : Writes (ensure 2 [closeBracket]) _ :=
        writes_ensure (by decide)
      exact (hopen.bind (writes_printItems format (depth + 1) items)).bind
        hclose
  | .object members =>
      have hopen : Writes (ensure (if format then 3 else 2)
          (openBrace :: formatted format [newline])) _ :=
        writes_ensure (by cases format <;> decide)
      have hclose : Writes (ensure (if format then depth + 2 else 2)
          (formatted format (tabs depth) ++ [closeBrace])) _ :=
        writes_ensure (by cases format <;> simp [formatted, tabs])
      have hwrites := (hopen.bind
        (writes_printMembers format (depth + 1) members)).bind hclose
      rw [← List.append_assoc] at hwrites
      exact hwrites

theorem writes_printItems (format : Bool) (depth : Nat) (items : List CJson) :
    Writes (printItems format depth items) (itemsText format depth items) := by
  match items with
  | [] => exact writes_some
  | item :: items =>
      have hseparator : Writes (if items.isEmpty then some
          else
            ensure (if format then 3 else 2)
              (comma :: formatted format [space]))
          (if items.isEmpty then [] else comma :: formatted format [space]) := by
        cases items.isEmpty with
        | true => exact writes_some
        | false => exact writes_ensure (by cases format <;> decide)
      exact ((writes_printValue format depth item).bind hseparator).bind
        (writes_printItems format depth items)

theorem writes_printMembers (format : Bool) (depth : Nat)
    (members : List (CStr × CJson)) :
    Writes (printMembers format depth members)
      (membersText format depth members) := by
  match members with
  | [] => exact writes_some
  | (key, value) :: members =>
      have htabs : Writes (fun out =>
          if format then ensure depth (tabs depth) out else some out)
          (formatted format (tabs depth)) := by
        cases format with
        | true => exact writes_ensure (by simp [tabs])
        | false => exact writes_some
      have hcolon : Writes (ensure (if format then 2 else 1)
          (colon :: formatted format [tab])) _ :=
        writes_ensure (by cases format <;> decide)
      have hseparator : ∀ separator : List UInt8,
          Writes (ensure ((if format then 1 else 0) + separator.length + 1)
            (separator ++ formatted format [newline]))
            (separator ++ formatted format [newline]) := by
        intro separator
        apply writes_ensure
        cases format <;> simp [formatted]
        omega
      have hwrites := ((((htabs.bind (writes_printStringPtr key)).bind
        hcolon).bind (writes_printValue format depth value)).bind
        (hseparator (if members.isEmpty then [] else [comma]))).bind
        (writes_printMembers format depth members)
      rw [← List.append_assoc] at hwrites
      exact hwrites

end

end EzRouter

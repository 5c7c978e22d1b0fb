import EzRouter.Config.Save
import Mathlib.Data.Nat.Digits.Defs

/-!
# The printer of cJSON

`print_value` and what it calls, for trees whose numbers are ints: an item
stands for one whose `valuedouble` is its `valueint`.  The print buffer is the
text written so far; it grows as needed, and only a text that does not fit an
`int` is refused.
-/

namespace EzRouter

open EzRouter.Foundation

namespace Ascii

abbrev backspace : UInt8 := 8
abbrev tab : UInt8 := 9
abbrev newline : UInt8 := 10
abbrev formFeed : UInt8 := 12
abbrev carriageReturn : UInt8 := 13
abbrev space : UInt8 := 32
abbrev quote : UInt8 := 34
abbrev comma : UInt8 := 44
abbrev minus : UInt8 := 45
abbrev slash : UInt8 := 47
abbrev colon : UInt8 := 58
abbrev openBracket : UInt8 := 91
abbrev backslash : UInt8 := 92
abbrev closeBracket : UInt8 := 93
abbrev openBrace : UInt8 := 123
abbrev closeBrace : UInt8 := 125

end Ascii

open Ascii

/-- `ensure` asks for `needed` bytes behind the text and the terminator; then
`text` is written. -/
def ensure (needed : Nat) (text out : List UInt8) : Option (List UInt8) :=
  if out.length + needed + 1 ≤ intMax.toNat then some (out ++ text) else none

def decimal (n : Nat) : List UInt8 :=
  if n = 0 then [48]
  else (Nat.digits 10 n).reverse.map fun d => UInt8.ofNat (48 + d)

def intText : Int → List UInt8
  | .ofNat n => decimal n
  | .negSucc n => minus :: decimal (n + 1)

def printNumber (valueint : Int) (out : List UInt8) : Option (List UInt8) :=
  ensure ((intText valueint).length + 1) (intText valueint) out

def hexDigit (n : Nat) : UInt8 :=
  if n < 10 then UInt8.ofNat (48 + n) else UInt8.ofNat (87 + n)

def escapeCharacters (b : UInt8) : Nat :=
  if b = quote ∨ b = backslash ∨ b = backspace ∨ b = formFeed ∨
      b = newline ∨ b = carriageReturn ∨ b = tab then 1
  else if b < 32 then 5
  else 0

def escapeByte (b : UInt8) : List UInt8 :=
  if b > 31 ∧ b ≠ quote ∧ b ≠ backslash then [b]
  else
    backslash ::
      (if b = backslash then [backslash]
      else if b = quote then [quote]
      else if b = backspace then (CStr.lit "b").bytes
      else if b = formFeed then (CStr.lit "f").bytes
      else if b = newline then (CStr.lit "n").bytes
      else if b = carriageReturn then (CStr.lit "r").bytes
      else if b = tab then (CStr.lit "t").bytes
      else
        (CStr.lit "u00").bytes ++
          [hexDigit (b.toNat / 16), hexDigit (b.toNat % 16)])

def printStringPtr (input : CStr) (out : List UInt8) : Option (List UInt8) :=
  let escapes := (input.bytes.map escapeCharacters).sum
  let outputLength := input.length + escapes
  -- Without anything to escape the string is copied as it is.
  if escapes = 0 then
    ensure (outputLength + 3) (quote :: input.bytes ++ [quote]) out
  else
    ensure (outputLength + 3)
      (quote :: input.bytes.flatMap escapeByte ++ [quote]) out

def tabs (depth : Nat) : List UInt8 := List.replicate depth tab

/-- With `format` the text of `cJSON_Print`, without it the one of
`cJSON_PrintUnformatted`. -/
def formatted (format : Bool) (text : List UInt8) : List UInt8 :=
  if format then text else []

mutual

def printValue (format : Bool) (depth : Nat) :
    CJson → List UInt8 → Option (List UInt8)
  | .null, out => ensure 5 (CStr.lit "null").bytes out
  | .bool false, out => ensure 6 (CStr.lit "false").bytes out
  | .bool true, out => ensure 5 (CStr.lit "true").bytes out
  | .number valueint, out => printNumber valueint out
  | .string valuestring, out => printStringPtr valuestring out
  | .array items, out =>
      ((ensure 1 [openBracket] out).bind
        (printItems format (depth + 1) items)).bind
        (ensure 2 [closeBracket])
  | .object members, out =>
      ((ensure (if format then 3 else 2)
        (openBrace :: formatted format [newline]) out).bind
        (printMembers format (depth + 1) members)).bind
        (ensure (if format then depth + 2 else 2)
          (formatted format (tabs depth) ++ [closeBrace]))

def printItems (format : Bool) (depth : Nat) :
    List CJson → List UInt8 → Option (List UInt8)
  | [], out => some out
  | item :: items, out =>
      ((printValue format depth item out).bind
        (if items.isEmpty then some
        else
          ensure (if format then 3 else 2)
            (comma :: formatted format [space]))).bind
        (printItems format depth items)

def printMembers (format : Bool) (depth : Nat) :
    List (CStr × CJson) → List UInt8 → Option (List UInt8)
  | [], out => some out
  | (key, value) :: members, out =>
      let separator := if members.isEmpty then [] else [comma]
      (((((if format then ensure depth (tabs depth) out else some out).bind
        (printStringPtr key)).bind
        (ensure (if format then 2 else 1)
          (colon :: formatted format [tab]))).bind
        (printValue format depth value)).bind
        (ensure ((if format then 1 else 0) + separator.length + 1)
          (separator ++ formatted format [newline]))).bind
        (printMembers format depth members)

end

def cJSONPrint (format : Bool) (item : CJson) : Option (List UInt8) :=
  printValue format 0 item []

end EzRouter

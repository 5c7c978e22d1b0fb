import EzRouter.Config.CJsonPrint
import EzRouter.Foundation.Reader
import Mathlib.Data.Rat.Defs

/-!
# The parser of cJSON

`cJSON_Parse` and what it calls.  The parse buffer is what is left of the text,
its terminator included; `depth` is kept as the number of arrays and objects
that may still be opened.  `strtod` is the one of the C library: the value of
the number at the front of its input and the length of that number, which is
zero when there is none.
-/

namespace EzRouter

open EzRouter.Foundation Ascii

def cjsonNestingLimit : Nat := 1000

inductive Double where
  | finite (value : ℚ)
  | infinite (negative : Bool)

abbrev Strtod := List UInt8 → Double × Nat

/-- The cast from `double` to `int` that saturates. -/
def Double.toInt : Double → Int
  | .infinite negative => if negative then intMin else intMax
  | .finite value =>
      if value ≥ intMax then intMax
      else if value ≤ intMin then intMin
      else value.num.tdiv value.den

def isNumberByte (b : UInt8) : Bool :=
  (48 ≤ b && b ≤ 57) || b == 43 || b == minus || b == 46 || b == 69 || b == 101

def parseNumber (strtod : Strtod) : Reader UInt8 CJson := fun input =>
  let number := strtod (input.takeWhile isNumberByte)
  if number.2 = 0 then none
  else some (.number number.1.toInt, input.drop number.2)

def hexValue (b : UInt8) : Option Nat :=
  if 48 ≤ b ∧ b ≤ 57 then some (b.toNat - 48)
  else if 65 ≤ b ∧ b ≤ 70 then some (10 + b.toNat - 65)
  else if 97 ≤ b ∧ b ≤ 102 then some (10 + b.toNat - 97)
  else none

def parseHex4 (input : List UInt8) : Nat :=
  match (input.take 4).mapM hexValue with
  | none => 0
  | some digits => digits.foldl (fun h digit => 16 * h + digit) 0

def continuationByte (codepoint : Nat) : UInt8 :=
  UInt8.ofNat ((codepoint ||| 0x80) &&& 0xBF)

def utf8Bytes (codepoint : Nat) : List UInt8 :=
  if codepoint < 0x80 then [UInt8.ofNat (codepoint &&& 0x7F)]
  else if codepoint < 0x800 then
    [UInt8.ofNat ((codepoint >>> 6 ||| 0xC0) &&& 0xFF),
      continuationByte codepoint]
  else if codepoint < 0x10000 then
    [UInt8.ofNat ((codepoint >>> 12 ||| 0xE0) &&& 0xFF),
      continuationByte (codepoint >>> 6), continuationByte codepoint]
  else
    [UInt8.ofNat ((codepoint >>> 18 ||| 0xF0) &&& 0xFF),
      continuationByte (codepoint >>> 12), continuationByte (codepoint >>> 6),
      continuationByte codepoint]

/-- The bytes for one or two sequences `\uXXXX` at the front of the input, and
the length of these sequences. -/
def utf16LiteralToUtf8 (input : List UInt8) : Option (List UInt8 × Nat) :=
  let firstCode := parseHex4 (input.drop 2)
  if input.length < 6 then none
  else if 0xDC00 ≤ firstCode ∧ firstCode ≤ 0xDFFF then none
  else if 0xD800 ≤ firstCode ∧ firstCode ≤ 0xDBFF then
    let second := input.drop 6
    let secondCode := parseHex4 (second.drop 2)
    if second.length < 6 then none
    else if second.take 2 ≠ (CStr.lit "\\u").bytes then none
    else if secondCode < 0xDC00 ∨ 0xDFFF < secondCode then none
    else
      some (utf8Bytes (0x10000 +
        ((firstCode &&& 0x3FF) <<< 10 ||| (secondCode &&& 0x3FF))), 12)
  else some (utf8Bytes firstCode, 6)

def escapedByte (b : UInt8) : Option UInt8 :=
  if b = 98 then some backspace
  else if b = 102 then some formFeed
  else if b = 110 then some newline
  else if b = 114 then some carriageReturn
  else if b = 116 then some tab
  else if b = quote ∨ b = backslash ∨ b = slash then some b
  else none

def readEscape (input : List UInt8) : Option (List UInt8 × Nat) :=
  -- A `\u` may have swallowed half of a pair: what follows the last byte is the
  -- closing quote.
  let b := input.tail.headD quote
  if b = 117 then utf16LiteralToUtf8 input
  else (escapedByte b).map fun out => ([out], 2)

/-- The loop through the string literal; `skip` bytes of the input belong to
an escape sequence that has been read. -/
def unescape : Nat → List UInt8 → Option (List UInt8)
  | _, [] => some []
  | skip + 1, _ :: input => unescape skip input
  | 0, b :: input =>
      if b ≠ backslash then (unescape 0 input).map (b :: ·)
      else
        match readEscape (b :: input) with
        | none => none
        | some (out, sequenceLength) =>
            (unescape (sequenceLength - 1) input).map (out ++ ·)

def scanString : Reader UInt8 (List UInt8)
  | [] => none
  | b :: input =>
      if b = quote then some ([], input)
      else if b = backslash then
        match input with
        | [] => none
        | c :: input =>
            (scanString input).map fun out => (b :: c :: out.1, out.2)
      else (scanString input).map fun out => (b :: out.1, out.2)

def parseString : Reader UInt8 CStr
  | [] => none
  | b :: input =>
      if b ≠ quote then none
      else
        match scanString input with
        | none => none
        -- The result is a C string: a zero among the bytes ends it.
        | some (body, rest) =>
            (unescape 0 body).map fun out => (.ofBytes out, rest)

/-- The terminator counts as whitespace, and the loop steps back when it has
run over the end. -/
def bufferSkipWhitespace (input : List UInt8) : List UInt8 :=
  match input.dropWhile (· ≤ 32) with
  | [] => input.drop (input.length - 1)
  | b :: rest => b :: rest

def parseElement (value : Reader UInt8 CJson) : Reader UInt8 CJson :=
  fun input =>
    (value (bufferSkipWhitespace input)).map fun out =>
      (out.1, bufferSkipWhitespace out.2)

def parseMember (value : Reader UInt8 CJson) : Reader UInt8 (CStr × CJson) :=
  fun input =>
    match parseString (bufferSkipWhitespace input) with
    | none => none
    | some (string, rest) =>
        match bufferSkipWhitespace rest with
        | [] => none
        | b :: rest =>
            if b ≠ colon then none
            else
              (parseElement value rest).map fun out =>
                ((string, out.1), out.2)

def parseList {β : Type} (item : Reader UInt8 β) (close : UInt8) :
    Reader UInt8 (List β) := fun input =>
  match bufferSkipWhitespace input with
  | [] => none
  | b :: rest =>
      if b = close then some ([], rest)
      else item.sepBy comma close ((b :: rest).length + 1) (b :: rest)

def startsWith (text : String) (input : List UInt8) : Bool :=
  (CStr.lit text).bytes.isPrefixOf input

def parseValue (strtod : Strtod) (levels : Nat) : Reader UInt8 CJson :=
  fun input =>
    if startsWith "null" input then some (.null, input.drop 4)
    else if startsWith "false" input then some (.bool false, input.drop 5)
    else if startsWith "true" input then some (.bool true, input.drop 4)
    else
      match input with
      | [] => none
      | b :: rest =>
          if b = quote then
            (parseString input).map fun out => (.string out.1, out.2)
          else if b = minus ∨ (48 ≤ b ∧ b ≤ 57) then parseNumber strtod input
          else if b = openBracket then
            match levels with
            | 0 => none
            | levels + 1 =>
                (parseList (parseElement (parseValue strtod levels))
                  closeBracket rest).map fun out => (.array out.1, out.2)
          else if b = openBrace then
            match levels with
            | 0 => none
            | levels + 1 =>
                (parseList (parseMember (parseValue strtod levels))
                  closeBrace rest).map fun out => (.object out.1, out.2)
          else none

def skipUtf8Bom (input : List UInt8) : List UInt8 :=
  if 4 < input.length ∧ input.take 3 = [0xEF, 0xBB, 0xBF] then input.drop 3
  else input

/-- `cJSON_Parse`: what follows the value is not looked at. -/
def cJSONParse (strtod : Strtod) : CJsonParser := fun value =>
  (parseValue strtod cjsonNestingLimit
    (bufferSkipWhitespace (skipUtf8Bom (value.bytes ++ [0])))).map (·.1)

end EzRouter

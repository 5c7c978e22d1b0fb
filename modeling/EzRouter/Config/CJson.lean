import EzRouter.Foundation.Bytes

/-!
# Parsed JSON

The values that the vendored cJSON hands out, and the two lookups the daemon
uses.  The parser itself is a parameter of what follows: a function from the C
string it is given to a value, or to nothing when the text is rejected.
-/

namespace EzRouter

open EzRouter.Foundation

inductive CJson where
  | null
  | bool (value : Bool)
  | number (valueint : Int)
  | string (valuestring : CStr)
  | array (items : List CJson)
  | object (members : List (CStr × CJson))

/-- `cJSON_Parse` on a C string. -/
abbrev CJsonParser := CStr → Option CJson

def tolower (b : UInt8) : UInt8 :=
  if 65 ≤ b ∧ b ≤ 90 then b + 32 else b

def caseInsensitiveEq (s t : CStr) : Bool :=
  s.bytes.map tolower == t.bytes.map tolower

/-- `cJSON_GetObjectItem`: the first member whose key agrees up to case.  A
null pointer and a value that is not an object have no members. -/
def cJSONGetObjectItem (object : Option CJson) (name : CStr) : Option CJson :=
  match object with
  | some (.object members) =>
      (members.find? fun member => caseInsensitiveEq name member.1).map (·.2)
  | _ => none

def cJSONGetObjectItemCaseSensitive (object : Option CJson) (name : CStr) :
    Option CJson :=
  match object with
  | some (.object members) =>
      (members.find? fun member => decide (name = member.1)).map (·.2)
  | _ => none

def arrayItems : Option CJson → List CJson
  | some (.array items) => items
  | _ => []

end EzRouter

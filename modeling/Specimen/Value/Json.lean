import Specimen.Date.Text
import Specimen.Json.Basic
import Specimen.Value.Basic

/-!
# Values and JSON

A value is written to JSON with its dates as text, and read from JSON by telling
dates from other texts.  Integers of 64 bits stay integers in both directions; every
other number is a decimal.

## Main definitions

* `Value.Error` — why a value is refused.
* `Value.ofJson` — the value that a JSON value denotes.
* `Value.toJson` — the JSON form of a value, unless a decimal in it is not finite.
-/

namespace Specimen

attribute [local instance (high)] instPowNat

/-- Why a value is refused. -/
inductive Value.Error where
  /-- The field holds an array that starts with an array. -/
  | nestedArray (field : String)
  /-- A decimal without a JSON form. -/
  | nonFinite
  /-- A JSON text or value that does not have the form asked for. -/
  | json
deriving DecidableEq, Repr

/-- The text of the error. -/
def Value.Error.message : Value.Error → String
  | .nestedArray field => "unsupported structure at '" ++ field ++ "': nested array not supported"
  | .nonFinite => "non-finite number cannot be converted to json"
  | .json => "json error"

namespace Value

/-- A number is an integer if it fits into a signed word, otherwise a decimal. -/
def ofNumber : Json.Number → Value
  | .integer n _ => if n < 2 ^ (63 : Nat) then .integer (.ofInt n) else .decimal (.ofInt n)
  | .real x _ => .decimal x

/-- A string is a date if it is recognised as one, otherwise a text. -/
def ofString (s : String) : Value :=
  match Date.ofText? s with
  | some d => .date d
  | none => .text s

mutual

/-- The value that a JSON value denotes. -/
def ofJson : Json → Value
  | .null => .null
  | .bool b => .bool b
  | .number n => ofNumber n
  | .string s => ofString s
  | .array items => .array (ofItems items)
  | .object members => .object (ofMembers members)

/-- The values that the items of an array denote. -/
def ofItems : List Json → List Value
  | [] => []
  | item :: items => ofJson item :: ofItems items

/-- The fields that the members of an object denote. -/
def ofMembers : List (String × Json) → List (String × Value)
  | [] => []
  | (name, value) :: members => (name, ofJson value) :: ofMembers members

end

mutual

/-- The JSON form of a value. -/
def toJson : Value → Except Error Json
  | .null => .ok .null
  | .bool b => .ok (.bool b)
  | .integer n => .ok (.number (.ofInt64 n))
  | .decimal x => match Json.Number.ofBinary64? x with
    | some n => .ok (.number n)
    | none => .error .nonFinite
  | .text s => .ok (.string s)
  | .date d => .ok (.string d.text)
  | .array items => (toItems items).map .array
  | .object fields => (toMembers fields).map .object

/-- The JSON forms of the items of an array. -/
def toItems : List Value → Except Error (List Json)
  | [] => .ok []
  | item :: items => do return (← item.toJson) :: (← toItems items)

/-- The members of the JSON form of an object. -/
def toMembers : List (String × Value) → Except Error (List (String × Json))
  | [] => .ok []
  | (name, value) :: fields => do return (name, ← value.toJson) :: (← toMembers fields)

end

/-! ### Open values -/

theorem ofJson_null : ofJson .null = .null := by rw [ofJson]

theorem toJson_null : toJson .null = .ok .null := by rw [toJson]

end Value

end Specimen

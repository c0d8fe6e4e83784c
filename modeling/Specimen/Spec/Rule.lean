import Specimen.Binary64.Decimal
import Specimen.Text.Numeral

/-!
# Rules

A rule is the meaning of a spec string: the kind of the values to generate, and the
bounds or the length they have.

## Main definitions

* `Range` — no bounds, one strict bound, or two.
* `Rule` — what to generate for a field.
* `Rule.text` — the canonical spec string of a rule.
* `Rule.kind` — the name of the kind of values.
-/

namespace Specimen.Spec

/-- The bounds of a number.  Bounds are strict. -/
inductive Range (α : Type) where
  | any
  | below (upper : α)
  | above (lower : α)
  | between (lower upper : α)
deriving DecidableEq

/-- What to generate for a field. -/
inductive Rule where
  /-- Nothing: the field is left out. -/
  | skip
  | boolean
  | date
  /-- A text, of the default length if none is given. -/
  | string (length : Option Nat)
  | integer (range : Range Int64)
  | decimal (range : Range Binary64)
deriving DecidableEq

/-- The canonical text of bounds for values of the named kind. -/
def Range.text {α : Type} (kind : String) (bound : α → String) : Range α → String
  | .any => kind
  | .below upper => kind ++ " < " ++ bound upper
  | .above lower => kind ++ " > " ++ bound lower
  | .between lower upper => bound lower ++ " < " ++ kind ++ " < " ++ bound upper

namespace Rule

/-- The decimal numeral of an integer bound. -/
def integerText (n : Int64) : String :=
  String.ofList (Text.numeral n.toInt)

/-- The canonical spec string. -/
def text : Rule → String
  | .skip => "skip"
  | .boolean => "boolean"
  | .date => "date"
  | .string none => "string"
  | .string (some length) => "string[" ++ String.ofList (Text.numeral length) ++ "]"
  | .integer range => range.text "integer" integerText
  | .decimal range => range.text "decimal" Binary64.text

/-- The name of the kind of values. -/
def kind : Rule → String
  | .skip => "skip"
  | .boolean => "boolean"
  | .date => "date"
  | .string _ => "string"
  | .integer _ | .decimal _ => "number"

/-- The rule leaves the field out. -/
def isSkip : Rule → Bool
  | .skip => true
  | _ => false

@[simp] theorem isSkip_iff (r : Rule) : r.isSkip = true ↔ r = .skip := by
  cases r <;> simp [isSkip]

end Rule

end Specimen.Spec

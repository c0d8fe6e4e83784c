import Specimen.Value.Basic

/-!
# Categories

The category of a template node decides how the node is populated and which
overrides suit it.  An array is judged by its first item alone.

## Main definitions

* `Category` — the categories, with their names.
* `Value.category?` — the category of a value; an array whose first item is an array
  has none.
* `Category.takesTree` — whether overrides for the node are trees.
* `categoryOfField?` — the category of a field, which need not exist.
-/

namespace Specimen

/-- The structural kind of a template node. -/
inductive Category where
  | boolean
  | string
  | number
  | date
  /-- A leaf whose kind is open. -/
  | null
  | object
  | arrayOfObjects
  | arrayOfPrimitives
  | emptyArray
deriving DecidableEq, Repr

namespace Category

/-- The name of the category in messages. -/
def name : Category → String
  | .boolean => "boolean"
  | .string => "string"
  | .number => "number"
  | .date => "date"
  | .null => "null"
  | .object => "actual_object"
  | .arrayOfObjects => "array_of_objects"
  | .arrayOfPrimitives => "array_of_primitives"
  | .emptyArray => "empty_array"

/-- Objects and arrays of objects take trees of overrides, all others a spec. -/
def takesTree : Category → Bool
  | .object | .arrayOfObjects => true
  | _ => false

/-- Every category. -/
def all : List Category :=
  [.boolean, .string, .number, .date, .null, .object, .arrayOfObjects, .arrayOfPrimitives,
   .emptyArray]

theorem mem_all (c : Category) : c ∈ all := by cases c <;> decide

end Category

/-- The category of a value.  There is none for an array that starts with an array. -/
def Value.category? : Value → Option Category
  | .null => some .null
  | .bool _ => some .boolean
  | .integer _ => some .number
  | .decimal _ => some .number
  | .text _ => some .string
  | .date _ => some .date
  | .object _ => some .object
  | .array [] => some .emptyArray
  | .array (.array _ :: _) => none
  | .array (.object _ :: _) => some .arrayOfObjects
  | .array (_ :: _) => some .arrayOfPrimitives

/-- The category of the field with the given name.  A missing field counts as open. -/
def categoryOfField? (fields : List (String × Value)) (name : String) : Option Category :=
  match Record.get? name fields with
  | some value => value.category?
  | none => some .null

end Specimen

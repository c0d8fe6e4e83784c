import Specimen.Json.Basic
import Specimen.Override.Basic

/-!
# Overrides and JSON

Overrides are written as an object whose leaves are strings: a string is a spec, an
object is a tree.  Nothing else may occur in it, at any depth.

## Main definitions

* `Overrides.ofJson?` — the overrides that a JSON value denotes.
* `Overrides.toJson` — the JSON form of overrides.
-/

namespace Specimen

namespace Override

mutual

/-- The override that a JSON value denotes. -/
def ofJson? : Json → Option Override
  | .string text => some (.spec text)
  | .object members => (ofMembers? members).map .tree
  | _ => none

/-- The overrides that the members of an object denote. -/
def ofMembers? : List (String × Json) → Option (List (String × Override))
  | [] => some []
  | (name, value) :: members => do
    return (name, ← ofJson? value) :: (← ofMembers? members)

end

mutual

/-- The JSON form of an override. -/
def toJson : Override → Json
  | .spec text => .string text
  | .tree entries => .object (toMembers entries)

/-- The members of the JSON form of a tree. -/
def toMembers : List (String × Override) → List (String × Json)
  | [] => []
  | (name, entry) :: entries => (name, toJson entry) :: toMembers entries

end

end Override

namespace Overrides

/-- The overrides that a JSON value denotes.  At the top there must be an object. -/
def ofJson? : Json → Option Overrides
  | .object members => Override.ofMembers? members
  | _ => none

/-- The JSON form of overrides. -/
def toJson (t : Overrides) : Json := .object (Override.toMembers t)

end Overrides

end Specimen

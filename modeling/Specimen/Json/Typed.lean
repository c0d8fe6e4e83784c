import Specimen.Date.Text
import Specimen.Json.Basic
import Specimen.Value.Json

/-!
# Typed JSON

Types whose values are written to JSON and read from it.  Reading is strict: a number
of the wrong kind or out of range is refused, and so is a missing field.

## Main definitions

* `Json.Writable`, `Json.Readable` — types with a written form, and types that can be
  read.
* `Json.Name` — types whose values serve as names of members.
* `Json.Members` — maps that are written as objects.
* `Json.record?` — the fields of a record, by name or by position.
-/

namespace Specimen.Json

attribute [local instance (high)] instPowNat

/-- A type whose values are written as JSON.  A value without a written form has none. -/
class Writable (α : Type) where
  write? : α → Option Json

/-- A type whose values are read from JSON. -/
class Readable (α : Type) where
  read? : Json → Option α

/-- A type whose values serve as names of members. -/
class Name (α : Type) where
  name? : α → Option String

export Writable (write?)

/-- The value that the JSON value denotes in the given type. -/
def as? (α : Type) [Readable α] (j : Json) : Option α := Readable.read? j

/-! ### Leaves -/

instance : Writable Json := ⟨some⟩
instance : Readable Json := ⟨some⟩

instance : Writable Bool := ⟨fun b => some (.bool b)⟩

instance : Readable Bool where
  read?
    | .bool b => some b
    | _ => none

instance : Writable String := ⟨fun s => some (.string s)⟩

instance : Readable String where
  read?
    | .string s => some s
    | _ => none

/-- The integer that a JSON number denotes. -/
def integer? : Json → Option Int
  | .number (.integer n _) => some n
  | _ => none

instance : Writable Int64 := ⟨fun n => some (.number (.ofInt64 n))⟩

instance : Readable Int64 where
  read? j := do
    let n ← integer? j
    if n < 2 ^ (63 : Nat) then some (.ofInt n) else none

instance : Writable UInt64 := ⟨fun n => some (.number (.ofUInt64 n))⟩

instance : Readable UInt64 where
  read? j := do
    let n ← integer? j
    if 0 ≤ n then some (.ofNat n.toNat) else none

instance : Readable UInt32 where
  read? j := do
    let n ← integer? j
    if 0 ≤ n ∧ n < 2 ^ (32 : Nat) then some (.ofNat n.toNat) else none

instance : Writable UInt8 := ⟨fun n => some (.number (.ofUInt64 n.toUInt64))⟩

/-- A double that is not finite is written as null. -/
instance : Writable Binary64 where
  write? x := some (((Number.ofBinary64? x).map .number).getD .null)

/-- Integers are read as doubles too. -/
instance : Readable Binary64 where
  read?
    | .number (.integer n _) => some (.ofInt n)
    | .number (.real x _) => some x
    | _ => none

/-- Dates are read from texts of any length, with white space where it may stand. -/
instance : Readable Date where
  read?
    | .string s => Date.read? .loose s.toList
    | _ => none

/-- Null is the missing value. -/
instance {α : Type} [Readable α] : Readable (Option α) where
  read?
    | .null => some none
    | j => (as? α j).map some

/-! ### Containers -/

instance {α : Type} [Writable α] : Writable (List α) where
  write? items := (items.mapM write?).map .array

instance {α : Type} [Readable α] : Readable (List α) where
  read?
    | .array items => items.mapM (as? α)
    | _ => none

/-- A map given by its entries. -/
structure Members (κ α : Type) where
  entries : List (κ × α)

instance : Name String := ⟨some⟩

instance : Name Bool := ⟨fun b => some (if b then "true" else "false")⟩

/-- A list is no name. -/
instance {α : Type} : Name (List α) := ⟨fun _ => none⟩

instance {κ α : Type} [Name κ] [Writable α] : Writable (Members κ α) where
  write? members := do
    let pairs ← members.entries.mapM fun (key, value) => do
      return (← Name.name? key, ← write? value)
    return .object (Record.ofList pairs)

instance {α : Type} [Readable α] : Readable (Members String α) where
  read?
    | .object members => do
      return ⟨← members.mapM fun (name, value) => do return (name, ← as? α value)⟩
    | _ => none

/-! ### Records -/

/-- The fields of a record with the given names.  A record is read from an object by
name, where other members do not matter, or from an array by position, which must not be
longer than the record. -/
def record? (names : List String) : Json → Option (List (Option Json))
  | .object members => some (names.map fun name => Record.get? name members)
  | .array items =>
    if items.length ≤ names.length then
      some (items.map some ++ List.replicate (names.length - items.length) none)
    else none
  | _ => none

/-- The value of a field that has to be there. -/
def required? (α : Type) [Readable α] (field : Option Json) : Option α := field.bind (as? α)

/-- The value of a field that may be missing. -/
def optional? {α : Type} [Readable α] (default : α) : Option Json → Option α
  | none => some default
  | some j => as? α j

/-! ### Values -/

instance : Writable Value := ⟨fun v => v.toJson.toOption⟩

instance : Readable Value := ⟨fun j => some (.ofJson j)⟩

end Json

namespace Value

/-- The template that a typed value is written as. -/
def ofWritable {α : Type} [Json.Writable α] (a : α) : Except Error Value :=
  match Json.write? a with
  | some j => .ok (ofJson j)
  | none => .error .json

/-- The typed value that a value denotes. -/
def readAs (α : Type) [Json.Readable α] (v : Value) : Except Error α := do
  match Json.as? α (← v.toJson) with
  | some a => return a
  | none => throw .json

end Value

end Specimen

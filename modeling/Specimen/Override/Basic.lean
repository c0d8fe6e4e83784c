import Specimen.Spec.Parser

/-!
# Overrides

An override says what to generate for a field instead of a value of the template's
kind.  Fields with a value of their own, and arrays of such values, are overridden by
a spec string; objects and arrays of objects by a tree of overrides for their fields.

## Main definitions

* `Override` — a spec string, or a tree of overrides.
* `Overrides` — the overrides for the fields of one object, a record.
* `Override.isSkip` — the override leaves its field out.
* `Overrides.withSpec`, `Overrides.withTree`, `Overrides.insert` — building.
-/

namespace Specimen

/-- What to generate for a field. -/
inductive Override where
  /-- A spec string. -/
  | spec (text : String)
  /-- Overrides for the fields of an object, or of the objects of an array. -/
  | tree (entries : List (String × Override))

/-- The overrides for the fields of one object. -/
abbrev Overrides := List (String × Override)

namespace Override

instance : Inhabited Override := ⟨.tree []⟩

/-- The spec string. -/
def asSpec? : Override → Option String
  | .spec text => some text
  | .tree _ => none

/-- The tree. -/
def asTree? : Override → Option Overrides
  | .tree entries => some entries
  | .spec _ => none

/-- The override is a spec that leaves its field out. -/
def isSkip : Override → Bool
  | .spec text => match Spec.parse text with
    | .ok rule => rule.isSkip
    | .error _ => false
  | .tree _ => false

@[simp] theorem isSkip_tree (entries : Overrides) : isSkip (.tree entries) = false := rfl

/-- A spec leaves its field out exactly when it denotes the rule that does. -/
theorem isSkip_spec_iff (text : String) :
    isSkip (.spec text) = true ↔ Spec.parse text = .ok .skip := by
  cases h : Spec.parse text <;> simp [isSkip, h]

mutual

/-- Every tree inside the override is a record in order. -/
def WellFormed : Override → Prop
  | .spec _ => True
  | .tree entries => Record.Sorted entries ∧ WellFormedEntries entries

/-- Every entry is well formed. -/
def WellFormedEntries : List (String × Override) → Prop
  | [] => True
  | (_, entry) :: entries => entry.WellFormed ∧ WellFormedEntries entries

end

end Override

namespace Overrides

/-- No overrides. -/
def empty : Overrides := []

/-- Adds an override, replacing one of that name. -/
def insert (t : Overrides) (name : String) (entry : Override) : Overrides :=
  Record.insert name entry t

/-- Adds a spec string. -/
def withSpec (t : Overrides) (name text : String) : Overrides := t.insert name (.spec text)

/-- Adds a tree. -/
def withTree (t : Overrides) (name : String) (tree : Overrides) : Overrides :=
  t.insert name (.tree tree)

/-- The override for the field with the given name. -/
def find? (t : Overrides) (name : String) : Option Override := Record.get? name t

/-- Overrides given by pairs of names and spec strings. -/
def ofSpecs (pairs : List (String × String)) : Overrides :=
  Record.ofList (pairs.map fun pair => (pair.1, .spec pair.2))

end Overrides

end Specimen

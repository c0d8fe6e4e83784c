/-!
# Field paths

Errors and findings name a place in a template by its path: the names of the fields
on the way, joined by dots, with `[]` behind the name of an array whose elements are
meant.  The root is written `$`.

## Main definitions

* `FieldPath` — a path, kept as the text that it extends.
* `FieldPath.child name`, `FieldPath.element` — one step further down.
* `FieldPath.Step`, `FieldPath.ofSteps` — a path given by its steps.
* `FieldPath.render` — the written form.
-/

namespace Specimen

/-- The place of a node in a template. -/
structure FieldPath where
  /-- The path without a sign for the root. -/
  trail : String
deriving DecidableEq, Repr

namespace FieldPath

/-- The root of the template. -/
def root : FieldPath := ⟨""⟩

/-- The field with the given name, below the path. -/
def child (name : String) (path : FieldPath) : FieldPath :=
  if path.trail.isEmpty then ⟨name⟩ else ⟨path.trail ++ "." ++ name⟩

/-- The elements of the array at the path. -/
def element (path : FieldPath) : FieldPath := ⟨path.trail ++ "[]"⟩

/-- The written form; the root has its own sign. -/
def render (path : FieldPath) : String :=
  if path.trail.isEmpty then "$" else path.trail

/-- One step from a node to a node below it. -/
inductive Step where
  | child (name : String)
  | element
deriving DecidableEq, Repr

/-- The path one step further. -/
def step (path : FieldPath) : Step → FieldPath
  | .child name => path.child name
  | .element => path.element

/-- The path that the steps lead to, from the root. -/
def ofSteps (steps : List Step) : FieldPath := steps.foldl step root

end FieldPath

end Specimen

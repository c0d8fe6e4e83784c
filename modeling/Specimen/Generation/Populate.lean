import Specimen.FieldPath
import Specimen.Generation.Generator
import Specimen.Options.Basic
import Specimen.Override.Basic
import Specimen.Random.ChaCha

/-!
# Populating templates

A template is populated by walking it in the order of its fields.  A field with a
value of its own gets a value made by its override's spec, or else by the generator
for values of its kind; an object gets its fields one by one, except those that an
override leaves out; a non-empty array gets a fixed number of elements, each made in
the image of its first item.

## Main definitions

* `treeOf` — the tree for the fields of a node, which must not have a spec.
* `generatorOf` — the generator for a node with a value of its own.
* `checkNames` — refuses names that the template does not have, if asked to.
* `populate` — the specimen of one node.
* `create`, `createMany`, `createJson` — specimens of a whole template.
* `Options.source?` — the random source that options with a seed ask for.
-/

namespace Specimen

variable {σ : Type} [Random.Source σ]

/-- The overrides for the fields of a node.  A spec cannot stand there. -/
def treeOf (path : FieldPath) : Option Override → Except GenerationError (Option Overrides)
  | none => .ok none
  | some (.tree entries) => .ok (some entries)
  | some (.spec _) => .error (.misshapedOverride path.render .tree)

/-- The generator for a value of its own: the override's, which has to suit the value,
or else the one for values of its kind. -/
def generatorOf (window : UInt32) (value : Value) (path : FieldPath) :
    Option Override → Except GenerationError Generator
  | some (.spec text) =>
    Except.mapError (.spec path.render) do
      let generator ← Generator.resolve text window
      Spec.check text generator.rule (value.category?.getD .null)
      return generator
  | some (.tree _) => .error (.misshapedOverride path.render .spec)
  | none =>
    match Generator.implicit? value window with
    | some generator => .ok generator
    | none => .error (.unsupportedField path.render (value.category?.getD .null))

/-- Refuses the first name in the tree that is no field of the object, if the options
are strict. -/
def checkNames (strict : Bool) (fields : List (String × Value)) (path : FieldPath)
    (tree : Option Overrides) : Except GenerationError Unit :=
  match (Record.names (tree.getD [])).find? fun name => !Record.contains name fields with
  | some name =>
    if strict then .error (.unknownOverride (path.child name).render) else .ok ()
  | none => .ok ()

mutual

/-- The specimen of a node. -/
def populate (o : Options) (path : FieldPath) (entry : Option Override) :
    Value → Generation σ Value
  | .object fields => do
    let tree ← .ofExcept id (treeOf path entry)
    .ofExcept id (checkNames o.strict fields path tree)
    .object <$> populateFields o path tree fields
  | .array [] => return .array []
  | .array (.array _ :: _) => throw (.value (.nestedArray path.render))
  | .array (.object fields :: _) => do
    let tree ← .ofExcept id (treeOf path entry)
    .array <$> Random.times o.elementCount do
      .ofExcept id (checkNames o.strict fields path.element tree)
      .object <$> populateFields o path.element tree fields
  | .array (first :: _) => do
    let generator ← .ofExcept id (generatorOf o.window first path entry)
    .array <$> Random.times o.elementCount generator.generate
  | value => do
    let generator ← .ofExcept id (generatorOf o.window value path entry)
    generator.generate

/-- The fields of the specimen of an object.  Every field has to have a category, also
one that is left out. -/
def populateFields (o : Options) (path : FieldPath) (tree : Option Overrides) :
    List (String × Value) → Generation σ (List (String × Value))
  | [] => return []
  | (name, value) :: fields =>
    if value.category?.isNone then
      throw (.value (.nestedArray (path.child name).render))
    else if (tree.bind (Record.get? name)).any Override.isSkip then
      populateFields o path tree fields
    else do
      let made ← populate o (path.child name) (tree.bind (Record.get? name)) value
      let others ← populateFields o path tree fields
      return (name, made) :: others

end

/-- An empty array stays empty, whatever stands for it among the overrides. -/
theorem populate_empty (o : Options) (path : FieldPath) (entry : Option Override) :
    (populate o path entry (.array []) : Generation σ Value) = pure (.array []) := by
  rw [populate]

/-- An object without fields stays without them. -/
theorem populateFields_nil (o : Options) (path : FieldPath) (tree : Option Overrides) :
    (populateFields o path tree [] : Generation σ (List (String × Value))) = pure [] := by
  rw [populateFields]

/-! ### Whole templates -/

/-- One specimen of the template. -/
def create (o : Options) (template : Value) (overrides : Option Overrides) :
    Generation σ Value :=
  populate o .root (overrides.map .tree) template

/-- A number of specimens of the template, made one after another. -/
def createMany (o : Options) (template : Value) (count : Nat) (overrides : Option Overrides) :
    Generation σ (List Value) :=
  Random.times count (create o template overrides)

/-- How many specimens are made unless a number is given. -/
def defaultCount : Nat := 3

/-- One specimen of a template given as JSON, as JSON. -/
def createJson (o : Options) (template : Json) (overrides : Option Overrides) :
    Generation σ Json := do
  let made ← create o (.ofJson template) overrides
  .ofExcept .value made.toJson

/-- The random source that the options ask for, if they have a seed. -/
def Options.source? (o : Options) : Option Random.ChaCha := o.seed.map .ofSeed

end Specimen

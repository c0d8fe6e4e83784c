import Specimen.Proofs.Generation.Simulation
import Specimen.Proofs.Population.Walk

/-!
# Population elsewhere

The path of a node is there for the errors alone.  A node that is taken to another path draws
the same words for the same specimen.  Where it fails there, it fails in the same way and for
the same field below it, which is now named from the other path; an error that names no field
stays as it is.

## Main definitions

* `FieldPath.down steps path` — the path the given steps further down.
* `GenerationError.field?`, `GenerationError.withField` — the field that an error names.
* `GenerationError.Moved path path' e e'` — the error, seen from one path and from another.

## Main statements

* `populate_follows` — a node at another path follows the node.
* `populateObject_relocates`, `populateObject_moved` — an object at another path follows the object,
  and its errors are moved.
-/

namespace Specimen

open Specimen.Random (Source)

/-! ### Errors at paths -/

/-- The path the given steps further down. -/
def FieldPath.down (steps : List FieldPath.Step) (path : FieldPath) : FieldPath :=
  steps.foldl FieldPath.step path

namespace GenerationError

/-- The field that the error names. -/
def field? : GenerationError → Option String
  | .value (.nestedArray field) => some field
  | .spec field _ | .unsupportedField field _ | .unknownOverride field
  | .misshapedOverride field _ => some field
  | _ => none

/-- The same error for another field, if it is one for a field. -/
def withField (field : String) : GenerationError → GenerationError
  | .value (.nestedArray _) => .value (.nestedArray field)
  | .spec _ source => .spec field source
  | .unsupportedField _ category => .unsupportedField field category
  | .unknownOverride _ => .unknownOverride field
  | .misshapedOverride _ expected => .misshapedOverride field expected
  | e => e

/-- The second error is the first one with the second path in the place of the first: the
field that it names lies the same steps further down. -/
inductive Moved (path path' : FieldPath) (e : GenerationError) : GenerationError → Prop
  | unplaced : e.field? = none → Moved path path' e e
  | placed (steps : List FieldPath.Step) : e.field? = some (path.down steps).render →
    Moved path path' e (e.withField (path'.down steps).render)

/-- What is moved along with a node, is moved along with the nodes above it. -/
theorem Moved.up {path path' : FieldPath} {e e' : GenerationError} (step : FieldPath.Step)
    (h : Moved (path.step step) (path'.step step) e e') : Moved path path' e e' := by
  cases h with
  | unplaced hfield => exact .unplaced hfield
  | placed steps hfield => exact .placed (step :: steps) hfield

/-- An error of a generator names no field. -/
theorem IsFault.field?_eq_none {e : GenerationError} (h : e.IsFault) : e.field? = none := by
  cases e <;> first | rfl | exact h.elim

end GenerationError

/-! ### Nodes at another path -/

section

variable {σ : Type}

/-- The generation for one path and the generation for another are in step, and their errors
are moved from path to path. -/
abbrev Generation.Relocates {α : Type} (path path' : FieldPath) (x y : Generation σ α) : Prop :=
  Generation.Follows (fun _ => False) (GenerationError.Moved path path') x y

variable (path path' : FieldPath)

theorem treeOf_follows (entry : Option Override) :
    Generation.Relocates path path' (σ := σ) (.ofExcept id (treeOf path entry))
      (.ofExcept id (treeOf path' entry)) := by
  cases entry with
  | none => exact .pure none
  | some entry =>
    cases entry with
    | spec text => exact .throw (.placed [] rfl)
    | tree entries => exact .pure (some entries)

theorem checkNames_follows (strict : Bool) (fields : List (String × Value))
    (tree : Option Overrides) :
    Generation.Relocates path path' (σ := σ) (.ofExcept id (checkNames strict fields path tree))
      (.ofExcept id (checkNames strict fields path' tree)) := by
  unfold checkNames
  split
  · next name _ =>
    cases strict with
    | false => exact .pure ()
    | true => exact .throw (.placed [.child name] rfl)
  · exact .pure ()

theorem generatorOf_follows (window : UInt32) (value : Value) (entry : Option Override) :
    Generation.Relocates path path' (σ := σ) (.ofExcept id (generatorOf window value path entry))
      (.ofExcept id (generatorOf window value path' entry)) := by
  cases entry with
  | none =>
    rw [generatorOf, generatorOf]
    cases Generator.implicit? value window with
    | some generator => exact .pure generator
    | none => exact .throw (.placed [] rfl)
  | some entry =>
    cases entry with
    | tree entries => exact .throw (.placed [] rfl)
    | spec text =>
      rw [generatorOf, generatorOf]
      -- the spec is resolved and checked without the path
      generalize (do
        let generator ← Generator.resolve text window
        Spec.check text generator.rule (value.category?.getD .null)
        return generator : Except Spec.Error Generator) = resolved
      cases resolved with
      | ok generator => exact .pure generator
      | error source => exact .throw (.placed [] rfl)

variable [Source σ]

theorem generate_follows (g : Generator) :
    Generation.Relocates path path' (g.generate : Generation σ Value) g.generate :=
  .refl fun he => .unplaced (Generator.isFault_of_generate he).field?_eq_none

variable {path path'} {o : Options}

theorem populateObject_follows {tree : Option Overrides} {fields : List (String × Value)}
    (h : Generation.Relocates path path' (σ := σ) (populateFields o path tree fields)
      (populateFields o path' tree fields)) :
    Generation.Relocates path path' (σ := σ) (populateObject o path tree fields)
      (populateObject o path' tree fields) :=
  (checkNames_follows path path' o.strict fields tree).bind fun _ => h.map Value.object

/-- **A node at another path follows the node**, and so do the fields of an object. -/
theorem populate_follows :
    (∀ (path : FieldPath) (entry : Option Override) (value : Value), ∀ path',
      Generation.Relocates path path' (σ := σ) (populate o path entry value)
        (populate o path' entry value)) ∧
    ∀ (path : FieldPath) (tree : Option Overrides) (fields : List (String × Value)), ∀ path',
      Generation.Relocates path path' (σ := σ) (populateFields o path tree fields)
        (populateFields o path' tree fields) := by
  -- both walks go down the same template, so that only the paths differ in each step
  apply populate_induction
  case object =>
    intro path entry fields ih path'
    rw [populate_object, populate_object]
    exact (treeOf_follows path path' entry).bind fun tree => populateObject_follows (ih tree path')
  case empty =>
    intro path entry path'
    rw [populate_empty, populate_empty]
    exact .pure _
  case nested =>
    intro path entry items rest path'
    rw [populate_nested, populate_nested]
    exact .throw (.placed [] rfl)
  case objects =>
    intro path entry fields rest ih path'
    rw [populate_objects, populate_objects]
    refine (treeOf_follows path path' entry).bind fun tree => ?_
    have helement := (populateObject_follows (ih tree path'.element)).mono fun _ _ =>
      GenerationError.Moved.up .element
    exact (helement.times o.elementCount).map Value.array
  case leaves =>
    intro path entry first rest hleaf path'
    rw [populate_leaves o path entry hleaf, populate_leaves o path' entry hleaf]
    refine (generatorOf_follows path path' o.window first entry).bind fun g => ?_
    exact ((generate_follows path path' g).times o.elementCount).map Value.array
  case leaf =>
    intro path entry value hleaf path'
    rw [populate_leaf o path entry hleaf, populate_leaf o path' entry hleaf]
    exact (generatorOf_follows path path' o.window value entry).bind (generate_follows path path')
  case nil =>
    intro path tree path'
    rw [populateFields_nil, populateFields_nil]
    exact .pure []
  case refused =>
    intro path tree name value fields hnested path'
    rw [populateFields_refused o path fields tree hnested,
      populateFields_refused o path' fields tree hnested]
    exact .throw (.placed [.child name] rfl)
  case skipped =>
    intro path tree name value fields hnested hskip ih path'
    rw [populateFields_skipped o path fields hnested hskip,
      populateFields_skipped o path' fields hnested hskip]
    exact ih path'
  case kept =>
    intro path tree name value fields hnested hkeep ihvalue ihfields path'
    rw [populateFields_kept o path fields hnested hkeep,
      populateFields_kept o path' fields hnested hkeep]
    have hvalue := (ihvalue (path'.child name)).mono fun _ _ =>
      GenerationError.Moved.up (.child name)
    exact hvalue.bind fun made => (ihfields path').bind fun others => .pure ((name, made) :: others)

/-! ### Objects at another path -/

/-- **An object at another path follows the object.** -/
theorem populateObject_relocates (path path' : FieldPath) (tree : Option Overrides)
    (fields : List (String × Value)) :
    Generation.Relocates path path' (σ := σ) (populateObject o path tree fields)
      (populateObject o path' tree fields) :=
  populateObject_follows (populate_follows.2 path tree fields path')

variable {tree : Option Overrides} {fields : List (String × Value)} {s t : σ}

/-- **The errors of an object are moved from path to path.** -/
theorem populateObject_moved {path : FieldPath} (path' : FieldPath) {e : GenerationError}
    (h : populateObject o path tree fields s = .error e t) :
    ∃ e', GenerationError.Moved path path' e e' ∧
      populateObject o path' tree fields s = .error e' t :=
  ((populateObject_relocates path path' tree fields).error h).resolve_left not_false

end

end Specimen

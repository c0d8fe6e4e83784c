import Specimen.Proofs.Population.Walk
import Specimen.Random.Script

/-!
# Specimens depend on skeletons

A template says what a specimen looks like, and its data never reach the specimen.  What
population asks of a template is its skeleton: the kinds of its leaves, the names of its
fields, and of an array whether it is empty and what its first item looks like.  Templates
with one skeleton cannot be told apart: they end in the same specimen or in the same error,
and with the source in the same state.

## Main definitions

* `Value.Alike`, `Value.AlikeFields` — two values, or the fields of two objects, have one
  skeleton.

## Main statements

* `checkNames_congr`, `generatorOf_congr` — one step of the walk asks for the skeleton only.
* `populate_congr` — so does the walk.
* `create_congr` — and population of a whole template.
-/

namespace Specimen

open Specimen.Random (Source)

/-! ### Skeletons -/

mutual

/-- Two values have one skeleton. -/
inductive Value.Alike : Value → Value → Prop
  | null : Alike .null .null
  | bool (b b' : Bool) : Alike (.bool b) (.bool b')
  | integer (n n' : Int64) : Alike (.integer n) (.integer n')
  | decimal (x x' : Binary64) : Alike (.decimal x) (.decimal x')
  | text (s s' : String) : Alike (.text s) (.text s')
  | date (d d' : Date) : Alike (.date d) (.date d')
  | object {fields fields' : List (String × Value)} :
    AlikeFields fields fields' → Alike (.object fields) (.object fields')
  | empty : Alike (.array []) (.array [])
  /-- Behind the first items there may be anything. -/
  | items {first first' : Value} (rest rest' : List Value) :
    Alike first first' → Alike (.array (first :: rest)) (.array (first' :: rest'))
  /-- Arrays that start with arrays are refused, whatever these hold. -/
  | nested (items items' rest rest' : List Value) :
    Alike (.array (.array items :: rest)) (.array (.array items' :: rest'))

/-- Two objects have fields of the same names, and under each name values with one
skeleton. -/
inductive Value.AlikeFields : List (String × Value) → List (String × Value) → Prop
  | nil : AlikeFields [] []
  | cons (name : String) {value value' : Value} {fields fields' : List (String × Value)} :
    Alike value value' → AlikeFields fields fields' →
      AlikeFields ((name, value) :: fields) ((name, value') :: fields')

end

namespace Value

variable {v v' : Value}

theorem Alike.category?_eq (h : v.Alike v') : v.category? = v'.category? := by
  cases h with
  | items rest rest' hfirst => cases hfirst <;> rfl
  | null | bool | integer | decimal | text | date | object | empty | nested => rfl

theorem Alike.implicitRule?_eq (h : v.Alike v') :
    Generator.implicitRule? v = Generator.implicitRule? v' := by
  cases h <;> rfl

theorem Alike.isLeaf (h : v.Alike v') (hleaf : v.IsLeaf) : v'.IsLeaf := by
  cases h with
  | object | empty | items | nested => exact hleaf.elim
  | null | bool | integer | decimal | text | date => trivial

theorem Alike.isNested_iff (h : v.Alike v') : v.IsNested ↔ v'.IsNested := by
  rw [← category?_isNone_iff, ← category?_isNone_iff, h.category?_eq]

theorem AlikeFields.contains_eq {fields fields' : List (String × Value)}
    (h : AlikeFields fields fields') (name : String) :
    Record.contains name fields = Record.contains name fields' := by
  induction fields generalizing fields' with
  | nil =>
    cases h
    rfl
  | cons field fields ih =>
    cases h with
    | cons other _ hfields =>
      have hrest := ih hfields
      rw [Record.contains] at hrest ⊢
      rw [Record.contains, Record.get?_cons, Record.get?_cons]
      split
      · rfl
      · exact hrest

end Value

/-! ### Steps of the walk -/

/-- Which names are refused is a matter of the names of the fields. -/
theorem checkNames_congr {fields fields' : List (String × Value)}
    (h : Value.AlikeFields fields fields') (strict : Bool) (path : FieldPath)
    (tree : Option Overrides) :
    checkNames strict fields path tree = checkNames strict fields' path tree := by
  unfold checkNames
  simp only [h.contains_eq]

/-- Which generator a node gets is a matter of its kind. -/
theorem generatorOf_congr {v v' : Value} (h : v.Alike v') (window : UInt32) (path : FieldPath)
    (entry : Option Override) :
    generatorOf window v path entry = generatorOf window v' path entry := by
  unfold generatorOf Generator.implicit?
  rw [h.category?_eq, h.implicitRule?_eq]

section Walk

variable {σ : Type} [Source σ] {o : Options}

theorem populateObject_congr {path : FieldPath} {tree : Option Overrides}
    {fields fields' : List (String × Value)} (h : Value.AlikeFields fields fields')
    (hfields : (populateFields o path tree fields : Generation σ (List (String × Value))) =
      populateFields o path tree fields') :
    (populateObject o path tree fields : Generation σ Value) =
      populateObject o path tree fields' := by
  rw [populateObject, populateObject, checkNames_congr h, hfields]

/-- **Nodes with one skeleton are populated alike**, and so are the fields of objects. -/
theorem populate_congr :
    (∀ (path : FieldPath) (entry : Option Override) (value : Value), ∀ value',
      value.Alike value' →
        (populate o path entry value : Generation σ Value) = populate o path entry value') ∧
    ∀ (path : FieldPath) (tree : Option Overrides) (fields : List (String × Value)), ∀ fields',
      Value.AlikeFields fields fields' →
        (populateFields o path tree fields : Generation σ (List (String × Value))) =
          populateFields o path tree fields' := by
  -- the walk over one template is followed through the other, which is the same at each node
  apply populate_induction
  case object =>
    intro path entry fields ih value' h
    cases h with
    | object hfields =>
      rw [populate_object, populate_object]
      exact congrArg _ (funext fun tree => populateObject_congr hfields (ih tree _ hfields))
  case empty =>
    intro path entry value' h
    cases h
    rfl
  case nested =>
    intro path entry items rest value' h
    -- the other one starts with an array too, whichever way the two are alike
    cases h with
    | nested items items' rest rest' => rw [populate_nested, populate_nested]
    | items rest rest' hfirst => cases hfirst <;> rw [populate_nested, populate_nested]
  case objects =>
    intro path entry fields rest ih value' h
    cases h with
    | items rest rest' hfirst =>
      cases hfirst with
      | object hfields =>
        rw [populate_objects, populate_objects]
        refine congrArg _ (funext fun tree => ?_)
        rw [populateObject_congr hfields (ih tree _ hfields)]
  case leaves =>
    intro path entry first rest hleaf value' h
    cases h with
    | items rest rest' hfirst =>
      rw [populate_leaves o path entry hleaf, populate_leaves o path entry (hfirst.isLeaf hleaf),
        generatorOf_congr hfirst]
    | nested => exact hleaf.elim
  case leaf =>
    intro path entry value hleaf value' h
    rw [populate_leaf o path entry hleaf, populate_leaf o path entry (h.isLeaf hleaf),
      generatorOf_congr h]
  case nil =>
    intro path tree fields' h
    cases h
    rfl
  case refused =>
    intro path tree name value fields hnested fields' h
    cases h with
    | cons name hvalue hfields =>
      rw [populateFields_refused o path fields tree hnested,
        populateFields_refused o path _ tree (hvalue.isNested_iff.mp hnested)]
  case skipped =>
    intro path tree name value fields hnested hskip ih fields' h
    cases h with
    | cons name hvalue hfields =>
      rw [populateFields_skipped o path fields hnested hskip,
        populateFields_skipped o path _ (mt hvalue.isNested_iff.mpr hnested) hskip]
      exact ih _ hfields
  case kept =>
    intro path tree name value fields hnested hkeep ihvalue ihfields fields' h
    cases h with
    | cons name hvalue hfields =>
      rw [populateFields_kept o path fields hnested hkeep,
        populateFields_kept o path _ (mt hvalue.isNested_iff.mpr hnested) hkeep,
        ihvalue _ hvalue, ihfields _ hfields]

/-- **Templates with one skeleton cannot be told apart by their specimens**: population ends
in the same specimen or in the same error, and with the source in the same state. -/
theorem create_congr {template template' : Value} (h : template.Alike template')
    (overrides : Option Overrides) (s : σ) :
    create o template overrides s = create o template' overrides s := by
  rw [create, create, populate_congr.1 _ _ _ _ h]

end Walk

/-- Other values, other items behind the first one, and another array in an array. -/
theorem create_congr_pets :
    (create {} (.object [("age", .integer 3), ("pets", .array [.object [("name", .text "x")]])])
        none (Random.Script.ofWords [0] 0) : EStateM.Result _ _ _) =
      create {} (.object [("age", .integer (-1)),
        ("pets", .array [.object [("name", .text "2024-02-30")], .null])])
        none (Random.Script.ofWords [0] 0) :=
  create_congr (.object (.cons _ (.integer _ _) (.cons _ (.items _ _ (.object
    (.cons _ (.text _ _) .nil))) .nil))) none (Random.Script.ofWords [0] 0)

end Specimen

import Specimen.Proofs.Population.Locality
import Specimen.Random.Script

/-!
# Fields that are left out

A field whose spec leaves it out might as well not be in the template.  The walk passes over
it before it draws anything, and all that it still asks of the field is that its value is no
array that starts with an array.  In strict mode the name of the field has to be known, and it
goes out of the tree together with the field.

## Main statements

* `populateFields_erase` — the fields of an object without one that is left out.
* `create_erase_skipped` — a template without a field that is left out, at any depth.
-/

namespace Specimen

open Specimen.Random (Source)

variable {σ : Type} [Source σ] {o : Options} {path : FieldPath} {name : String}
  {tree : Overrides}

/-- The walk over the fields does without those that are left out, and without their
entries. -/
theorem populateFields_erase (hskip : Overrides.Skips (some tree) name) :
    ∀ {fields : List (String × Value)},
      (∀ value, (name, value) ∈ fields → ¬ value.IsNested) →
      (populateFields o path (some tree) fields : Generation σ (List (String × Value))) =
        populateFields o path (some (Record.erase name tree)) (Record.erase name fields) := by
  intro fields
  induction fields with
  | nil =>
    intro _
    rw [populateFields_nil]
    exact (populateFields_nil o path _).symm
  | cons field fields ih =>
    intro hnested
    obtain ⟨key, value⟩ := field
    have hrest := ih fun other hmem => hnested other (List.mem_cons_of_mem _ hmem)
    by_cases hkey : key = name
    · subst hkey
      rw [Record.erase_cons_self, ← hrest,
        populateFields_skipped o path fields (hnested value List.mem_cons_self) hskip]
    · -- the entries of other fields are still there
      have hentry : (some tree).bind (Record.get? key) =
          (some (Record.erase name tree)).bind (Record.get? key) := by
        rw [Option.bind_some, Option.bind_some, Record.get?_erase, if_neg (Ne.symm hkey)]
      rw [Record.erase_cons_of_ne hkey, populateFields_cons, populateFields_cons, hentry, hrest]

/-- The first unknown name is the same without a field and its entry. -/
theorem checkNames_erase {fields : List (String × Value)}
    (hfield : Record.contains name fields = true) :
    checkNames o.strict fields path (some tree) =
      checkNames o.strict (Record.erase name fields) path (some (Record.erase name tree)) := by
  refine checkNames_eq_of_find ?_
  rw [Option.getD_some, Option.getD_some, Record.names_erase, List.find?_filter]
  congr 1
  funext key
  by_cases hkey : key = name
  · subst hkey
    simp [hfield]
  · simp [hkey, Record.contains_erase_of_ne (Ne.symm hkey)]

/-- An object is populated alike without a field that is left out. -/
theorem populateObject_erase {fields : List (String × Value)} {value : Value}
    (hsorted : Record.Sorted fields) (hvalue : Record.get? name fields = some value)
    (hnested : ¬ value.IsNested) (hskip : Overrides.Skips (some tree) name) (path : FieldPath) :
    (populateObject o path (some tree) fields : Generation σ Value) =
      populateObject o path (some (Record.erase name tree)) (Record.erase name fields) := by
  have hfield : Record.contains name fields = true := by
    rw [Record.contains, hvalue]
    rfl
  have hunique : ∀ other, (name, other) ∈ fields → ¬ other.IsNested := by
    intro other hmem
    rwa [Record.eq_of_mem hsorted hvalue hmem]
  rw [populateObject, populateObject, checkNames_erase hfield, populateFields_erase hskip hunique]

/-- **Leaving a field out is deleting it.**  Take the object at any place of a template with
the tree of overrides there, and a field of the object that its entry leaves out.  Without the
field and without the entry the template ends in the same specimen or the same error, and with
the source in the same state. -/
theorem create_erase_skipped {template value : Value} {overrides : Overrides}
    {place : List String} {fields : List (String × Value)} {text : String}
    (hwf : template.WellFormed) (hfields : template.fieldsAt? place = some fields)
    (htree : overrides.treeAt? place = some tree) (hvalue : Record.get? name fields = some value)
    (hnested : ¬ value.IsNested) (hentry : Record.get? name tree = some (.spec text))
    (hskip : Spec.parse text = .ok .skip) (s : σ) :
    create o template (some overrides) s =
      create o (template.modifyAt (Record.erase name) place)
        (some (overrides.modifyAt (Record.erase name) place)) s := by
  have hsorted : Record.Sorted fields := (Value.wellFormed_of_fieldsAt? hwf hfields).1
  refine congrFun ?_ s
  exact populate_modifyAt (populateObject_erase hsorted hvalue hnested ⟨text, hentry, hskip⟩)
    hwf hfields htree .root

/-- The fur of pets, left out of a strict population. -/
theorem create_erase_skipped_fur :
    (create { strict := true }
        (.object [("age", .integer 3),
          ("pets", .array [.object [("fur", .bool true), ("legs", .integer 4)]])])
        (some [("pets", .tree [("fur", .spec "skip")])])
        (Random.Script.ofWords [0] 0) : EStateM.Result _ _ _) =
      create { strict := true }
        (.object [("age", .integer 3), ("pets", .array [.object [("legs", .integer 4)]])])
        (some [("pets", .tree [])]) (Random.Script.ofWords [0] 0) :=
  @create_erase_skipped _ _ _ "fur" [("fur", .spec "skip")]
    (.object [("age", .integer 3),
      ("pets", .array [.object [("fur", .bool true), ("legs", .integer 4)]])])
    (.bool true) [("pets", .tree [("fur", .spec "skip")])] ["pets"]
    [("fur", .bool true), ("legs", .integer 4)] "skip"
    ⟨by unfold Record.Sorted; decide, trivial,
      ⟨⟨by unfold Record.Sorted; decide, trivial, trivial, trivial⟩, trivial⟩, trivial⟩
    rfl rfl rfl nofun rfl (by decide +kernel) (Random.Script.ofWords [0] 0)

end Specimen

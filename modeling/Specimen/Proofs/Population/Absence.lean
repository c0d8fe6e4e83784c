import Specimen.Proofs.Population.Locality
import Specimen.Random.Script

/-!
# Empty overrides

An object or an array of objects is populated under an empty tree as it is under nothing: no
field finds an entry, and no name is unknown.  So an empty tree may be given for such a field
wherever it has no entry.  A root that takes a spec is different, because overrides for the
whole template are a tree even when they are empty, and no tree may stand there.  The report
on empty overrides is empty all the same.

## Main definitions

* `Value.TakesSpec v` — the value is a leaf, or an array that starts with one.

## Main statements

* `populate_tree_of_takesSpec` — under any tree such a value is refused.
* `create_empty_eq_none_iff` — everything else does not tell empty overrides from none.
* `populateObject_insert_empty` — an empty tree in the place of no entry.
* `empty_overrides_as_none` — the two together, with the report.
-/

namespace Specimen

open Specimen.Random (Source)

/-- The value takes a spec, and no tree: it is a leaf, or an array that starts with one. -/
def Value.TakesSpec (v : Value) : Prop :=
  v.IsLeaf ∨ ∃ first rest, v = .array (first :: rest) ∧ first.IsLeaf

/-- What takes no spec has fields, or is an array without leaves and objects. -/
theorem Value.kind_of_not_takesSpec {v : Value} (h : ¬ v.TakesSpec) :
    v = .array [] ∨ v.IsNested ∨ ∃ fields, fieldsOf? v = some fields := by
  match v with
  | .object fields => exact Or.inr (Or.inr ⟨fields, rfl⟩)
  | .array [] => exact Or.inl rfl
  | .array (.array items :: rest) => exact Or.inr (Or.inl ⟨items, rest, rfl⟩)
  | .array (.object fields :: _) => exact Or.inr (Or.inr ⟨fields, rfl⟩)
  | .array (.null :: rest) | .array (.bool _ :: rest) | .array (.integer _ :: rest)
  | .array (.decimal _ :: rest) | .array (.text _ :: rest) | .array (.date _ :: rest) =>
    exact absurd (Or.inr ⟨_, rest, rfl, trivial⟩) h
  | .null | .bool _ | .integer _ | .decimal _ | .text _ | .date _ =>
    exact absurd (Or.inl trivial) h

section

variable {σ : Type} [Source σ] {o : Options} {path : FieldPath}

/-! ### Values that take a spec -/

/-- A value that takes a spec is refused under a tree, before anything is drawn. -/
theorem populate_tree_of_takesSpec {v : Value} (h : v.TakesSpec) (entries : Overrides) :
    (populate o path (some (.tree entries)) v : Generation σ Value) =
      throw (.misshapedOverride path.render .spec) := by
  rcases h with hleaf | ⟨first, rest, rfl, hleaf⟩
  · rw [populate_leaf o path _ hleaf]
    rfl
  · rw [populate_leaves o path _ hleaf]
    rfl

/-- Without an override nothing is of the wrong shape. -/
theorem populate_none_ne_misshaped {v : Value} (h : v.TakesSpec) {s t : σ} {field : String}
    {expected : GenerationError.Expected} :
    populate o path none v s ≠ .error (.misshapedOverride field expected) t := by
  intro hrun
  have hgenerator : ∀ {value : Value}, generatorOf o.window value path none ≠
      .error (.misshapedOverride field expected) := by
    intro value herror
    rcases generatorOf_eq_error herror with ⟨_, _, hentry, _⟩ | ⟨_, hentry, _⟩ | ⟨_, he⟩
    · cases hentry
    · cases hentry
    · cases he
  rcases h with hleaf | ⟨first, rest, rfl, hleaf⟩
  · rw [populate_leaf o path _ hleaf] at hrun
    rcases Generation.ofExcept_bind_eq_error hrun with ⟨e, herror, rfl⟩ | ⟨g, -, hgenerate⟩
    · exact hgenerator herror
    · exact Generator.isFault_of_generate hgenerate
  · rw [populate_leaves o path _ hleaf] at hrun
    rcases Generation.ofExcept_bind_eq_error hrun with ⟨e, herror, rfl⟩ | ⟨g, -, hmap⟩
    · exact hgenerator herror
    · obtain ⟨-, u, hgenerate⟩ := Generation.times_eq_error (Generation.map_eq_error.mp hmap)
      exact Generator.isFault_of_generate hgenerate

/-! ### Values that take a tree -/

/-- An object is populated under an empty tree as it is under nothing. -/
theorem populateObject_empty (path : FieldPath) (fields : List (String × Value)) :
    (populateObject o path (some .empty) fields : Generation σ Value) =
      populateObject o path none fields := by
  have hfields : (populateFields o path (some .empty) fields :
      Generation σ (List (String × Value))) = populateFields o path none fields :=
    populateFields_tree_congr fun _ _ _ => rfl
  rw [populateObject, populateObject, hfields]
  rfl

/-- So is a node with fields. -/
theorem populate_tree_empty {v : Value} {fields : List (String × Value)}
    (hfields : fieldsOf? v = some fields) (path : FieldPath) :
    (populate o path (some (.tree Overrides.empty)) v : Generation σ Value) =
      populate o path none v :=
  @populate_tree_congr σ _ o (some .empty) none v fields hfields
    (fun path => populateObject_empty path fields) path

/-- **Only values that take a spec tell empty overrides from none.** -/
theorem create_empty_eq_none_iff (template : Value) (s : σ) :
    create o template (some .empty) s = create o template none s ↔ ¬ template.TakesSpec := by
  constructor
  · intro hsame hspec
    have hempty : create o template (some .empty) s =
        .error (.misshapedOverride FieldPath.root.render .spec) s :=
      congrFun (populate_tree_of_takesSpec hspec .empty) s
    rw [hsame] at hempty
    exact populate_none_ne_misshaped hspec hempty
  · intro hspec
    refine congrFun ?_ s
    change populate o .root (some (.tree Overrides.empty)) template = populate o .root none template
    rcases Value.kind_of_not_takesSpec hspec with rfl | ⟨items, rest, rfl⟩ | ⟨fields, hfields⟩
    · rw [populate_empty, populate_empty]
    · rw [populate_nested, populate_nested]
    · exact populate_tree_empty hfields .root

/-! ### Empty trees for fields -/

/-- An object is populated alike when a field that takes a tree is given an empty one in the
place of no entry. -/
theorem populateObject_insert_empty {tree : Overrides} {fields : List (String × Value)}
    {name : String} {value : Value} {below : List (String × Value)}
    (hsorted : Record.Sorted fields) (hvalue : Record.get? name fields = some value)
    (hbelow : fieldsOf? value = some below) (hentry : Record.get? name tree = none)
    (path : FieldPath) :
    (populateObject o path (some tree) fields : Generation σ Value) =
      populateObject o path (some (Record.insert name (.tree Overrides.empty) tree)) fields := by
  have hnames : checkNames o.strict fields path (some tree) =
      checkNames o.strict fields path (some (Record.insert name (.tree Overrides.empty) tree)) := by
    refine checkNames_eq_of_find ?_
    rw [Option.getD_some, Option.getD_some, Record.find?_names_insert]
    rw [Record.contains, hvalue]
    rfl
  have hfields : (populateFields o path (some tree) fields :
      Generation σ (List (String × Value))) =
      populateFields o path (some (Record.insert name (.tree Overrides.empty) tree)) fields := by
    refine populateFields_tree_congr fun key other hmem => ?_
    rw [Option.bind_some, Option.bind_some, Record.get?_insert]
    by_cases hkey : name = key
    · -- the field itself, whose value is the one that was looked up
      subst hkey
      obtain rfl := Record.eq_of_mem hsorted hvalue hmem
      rw [if_pos rfl, hentry]
      exact populateField_congr Iff.rfl rfl (populate_tree_empty hbelow _).symm
    · rw [if_neg hkey]
  rw [populateObject, populateObject, hnames, hfields]

end

/-- **Empty overrides and no overrides are the same unless the root takes a spec.**  A root
that is a leaf, or an array that starts with one, is refused under any tree, also under an
empty one.  At any place below, a field that is an object or an array of objects may be given
an empty tree in the place of no entry.  The report on empty overrides is empty for any root. -/
theorem empty_overrides_as_none {σ : Type} [Source σ] (o : Options) :
    (∀ (template : Value) (s : σ),
      create o template (some .empty) s = create o template none s ↔ ¬ template.TakesSpec) ∧
    (∀ (template : Value) (s : σ), template.TakesSpec →
      create o template (some .empty) s =
        .error (.misshapedOverride FieldPath.root.render .spec) s) ∧
    (∀ (template : Value) (overrides : Overrides) (place : List String)
      (fields : List (String × Value)) (tree : Overrides) (name : String) (value : Value),
      template.WellFormed → template.fieldsAt? place = some fields →
      overrides.treeAt? place = some tree → Record.get? name fields = some value →
      (∃ below, fieldsOf? value = some below) → Record.get? name tree = none →
      ∀ s : σ, create o template (some overrides) s =
        create o template
          (some (overrides.modifyAt (Record.insert name (.tree Overrides.empty)) place)) s) ∧
    ∀ (template : Value) (strict : Bool),
      Overrides.validate template .empty strict = Report.empty := by
  refine ⟨create_empty_eq_none_iff, ?_, ?_, ?_⟩
  · intro template s hspec
    exact congrFun (populate_tree_of_takesSpec hspec .empty) s
  · intro template overrides place fields tree name value hwf hfields htree hvalue hbelow hentry s
    obtain ⟨below, hbelow⟩ := hbelow
    have hsorted := (Value.wellFormed_of_fieldsAt? hwf hfields).1
    have hchange := populate_modifyAt (σ := σ) (o := o) (f := id)
      (g := Record.insert name (.tree Overrides.empty))
      (populateObject_insert_empty hsorted hvalue hbelow hentry) hwf hfields htree .root
    rw [Value.modifyAt_id] at hchange
    exact congrFun hchange s
  · intro template strict
    unfold Overrides.validate Overrides.issues
    cases fieldsOf? template with
    | none => rfl
    | some fields => rfl

/-- A number is refused under empty overrides; a home of pets may have an empty tree. -/
theorem empty_overrides_as_none_home :
    (create {} (.integer 3) (some .empty) (Random.Script.ofWords [0] 0) :
        EStateM.Result _ _ _) =
        .error (.misshapedOverride "$" .spec) (Random.Script.ofWords [0] 0) ∧
      (create { strict := true }
          (.object [("pets", .array [.object [("home", .object [("city", .text "x")])]])])
          (some [("pets", .tree [])]) (Random.Script.ofWords [0] 0) : EStateM.Result _ _ _) =
        create { strict := true }
          (.object [("pets", .array [.object [("home", .object [("city", .text "x")])]])])
          (some [("pets", .tree [("home", .tree [])])]) (Random.Script.ofWords [0] 0) := by
  constructor
  · exact (empty_overrides_as_none {}).2.1 (.integer 3) _ (Or.inl trivial)
  · have hwf : (Value.object [("pets", .array
        [.object [("home", .object [("city", .text "x")])]])]).WellFormed := by
      simp [Value.WellFormed, Value.WellFormedFields, Value.WellFormedItems, Record.Sorted]
    exact (empty_overrides_as_none { strict := true }).2.2.1 _ [("pets", .tree [])] ["pets"]
      [("home", .object [("city", .text "x")])] [] "home" _ hwf rfl rfl rfl ⟨_, rfl⟩ rfl _

/-- A number is populated without overrides, but not with empty ones. -/
theorem create_number_none_and_empty :
    (create {} (.integer 3) none (Random.Script.ofWords [0] 0) : EStateM.Result _ _ _) =
        .ok (.integer 0) ⟨[], 0, 1⟩ ∧
      (create {} (.integer 3) (some .empty) (Random.Script.ofWords [0] 0) :
        EStateM.Result _ _ _) = .error (.misshapedOverride "$" .spec) ⟨[0], 0, 0⟩ :=
  ⟨by with_unfolding_all rfl, by with_unfolding_all rfl⟩

end Specimen

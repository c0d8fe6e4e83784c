import Specimen.Proofs.Population.Locality
import Specimen.Proofs.Validation.Foresight

/-!
# Entries are judged for themselves

Validation goes through the entries of a tree one after another and files what it finds behind
what it found before.  No entry is judged by another one: the report of a tree is the reports of
its entries, each standing alone, one behind the other.

The same holds further down.  A tree that leads nowhere but to a place of the template is judged
as the tree at its end, for the fields at that place, so that nothing is found on the way.

## Main definitions

* `Report.concat` — reports one behind the other.
* `Overrides.along place t` — the overrides that hold nothing but the tree `t` at a place.

## Main statements

* `exists_entriesIssues_along` — nothing is found on the way to a place.
* `validate_entry_by_entry` — the report of a tree is made of the reports of its entries.
-/

namespace Specimen

/-! ### Reports one behind the other -/

namespace Report

/-- Reports one behind the other, errors behind errors and warnings behind warnings. -/
def concat (reports : List Report) : Report :=
  ⟨reports.flatMap (·.errors), reports.flatMap (·.warnings)⟩

/-- Issues that are found piece by piece can be filed piece by piece. -/
theorem ofIssues_flatMap {α : Type} (pieces : List α) (issues : α → List Issue) :
    ofIssues (pieces.flatMap issues) =
      concat (pieces.map fun piece => ofIssues (issues piece)) := by
  have hfiled : ∀ found, ofIssues found =
      ⟨found.filter (·.severity = .error), found.filter (·.severity = .warning)⟩ :=
    fun found => foldl_push found empty
  simp only [hfiled, concat, List.flatMap_map, List.filter_flatMap]

end Report

/-! ### Trees that lead to a place -/

/-- The overrides that hold nothing but a tree at a place. -/
def Overrides.along : List String → Overrides → Overrides
  | [], t => t
  | name :: place, t => [(name, .tree (along place t))]

section

variable {fields all : List (String × Value)}

/-- What lies below a node lies below its fields. -/
theorem Value.exists_fieldsOf?_of_fieldsAt? {place : List String} {value : Value}
    (h : value.fieldsAt? place = some fields) : ∃ all, fieldsOf? value = some all := by
  cases place with
  | nil => exact ⟨fields, h⟩
  | cons name place => exact (Option.bind_eq_some_iff.mp h).imp fun _ h => h.1

/-- What is found in a tree is what is found in its entries. -/
theorem entriesIssues_eq_flatMap (strict : Bool) (path : FieldPath) (t : Overrides) :
    Override.entriesIssues strict fields path t =
      t.flatMap fun entry => Override.entriesIssues strict fields path [entry] := by
  induction t with
  | nil => rw [Override.entriesIssues, List.flatMap_nil]
  | cons entry t ih =>
    obtain ⟨name, entry⟩ := entry
    rw [Override.entriesIssues, ih, List.flatMap_cons]
    simp only [Override.entriesIssues, List.append_nil]

/-- **One step down.**  A tree for a node with fields is judged by these fields. -/
theorem exists_issues_tree {name : String} {value : Value} (path : FieldPath)
    (hget : Record.get? name all = some value) (hfields : fieldsOf? value = some fields) :
    ∃ path', ∀ (strict : Bool) (t : Overrides),
      Override.issues strict all path name (.tree t) =
        Override.entriesIssues strict fields path' t := by
  rcases Value.fieldsOf?_eq_some_iff.mp hfields with rfl | ⟨rest, rfl⟩
  · exact ⟨path.child name, fun strict t => issues_eq_nodeIssues (.tree t) hget⟩
  · exact ⟨(path.child name).element, fun strict t => issues_eq_nodeIssues (.tree t) hget⟩

/-- **Nothing is found on the way to a place.**  Overrides that hold nothing but a tree there are
judged as that tree, by the fields there. -/
theorem exists_entriesIssues_along {place : List String} {value : Value} (path : FieldPath)
    (hall : fieldsOf? value = some all) (hplace : value.fieldsAt? place = some fields) :
    ∃ path', ∀ (strict : Bool) (t : Overrides),
      Override.entriesIssues strict all path (Overrides.along place t) =
        Override.entriesIssues strict fields path' t := by
  induction place generalizing value all path with
  | nil =>
    obtain rfl : all = fields := Option.some.inj (hall.symm.trans hplace)
    exact ⟨path, fun _ _ => rfl⟩
  | cons name place ih =>
    rw [Value.fieldsAt?, hall, Option.bind_some] at hplace
    obtain ⟨next, hget, hplace⟩ := Option.bind_eq_some_iff.mp hplace
    obtain ⟨others, hothers⟩ := Value.exists_fieldsOf?_of_fieldsAt? hplace
    obtain ⟨here, hhere⟩ := exists_issues_tree path hget hothers
    obtain ⟨path', hpath'⟩ := ih here hothers hplace
    refine ⟨path', fun strict t => ?_⟩
    rw [Overrides.along, Override.entriesIssues, Override.entriesIssues, List.append_nil, hhere,
      hpath']

end

/-! ### Reports of trees -/

/-- **The report of a tree is made of the reports of its entries**, in the order of the tree, which
is that of the names.  This holds of the tree for the template, where `place` is empty, and of the
tree for any node further down: overrides that hold nothing but the tree at the place of the node
have the reports of the same overrides with one entry of the tree each. -/
theorem validate_entry_by_entry {template : Value} {place : List String}
    (hplace : (template.fieldsAt? place).isSome) (t : Overrides) (strict : Bool) :
    (Overrides.along place t).validate template strict =
      .concat (t.map fun entry => (Overrides.along place [entry]).validate template strict) := by
  obtain ⟨fields, hfields⟩ := Option.isSome_iff_exists.mp hplace
  obtain ⟨all, hall⟩ := Value.exists_fieldsOf?_of_fieldsAt? hfields
  obtain ⟨path, hpath⟩ := exists_entriesIssues_along .root hall hfields
  have hissues : ∀ entries, (Overrides.along place entries).issues strict template =
      Override.entriesIssues strict fields path entries := by
    intro entries
    rw [Overrides.issues, hall]
    exact hpath strict entries
  simp only [Overrides.validate, hissues]
  rw [entriesIssues_eq_flatMap, Report.ofIssues_flatMap]

/-- Two entries for the objects of an array, of which one has an error and one a warning. -/
theorem validate_entry_by_entry_legs :
    ((Value.object [("pets", .array [.object [("legs", .integer 4)]])]).fieldsAt? ["pets"]).isSome ∧
      Overrides.validate (.object [("pets", .array [.object [("legs", .integer 4)]])])
          [("pets", .tree [("legs", .tree []), ("wings", .spec "boolean")])] false =
        .concat [
          Overrides.validate (.object [("pets", .array [.object [("legs", .integer 4)]])])
            [("pets", .tree [("legs", .tree [])])] false,
          Overrides.validate (.object [("pets", .array [.object [("legs", .integer 4)]])])
            [("pets", .tree [("wings", .spec "boolean")])] false] ∧
      Overrides.validate (.object [("pets", .array [.object [("legs", .integer 4)]])])
          [("pets", .tree [("legs", .tree []), ("wings", .spec "boolean")])] false =
        ⟨[⟨.error, "misshaped_override", "pets[].legs", "nested overrides given for number field"⟩],
          [⟨.warning, "unknown_field", "pets[].wings",
            "override specifies field 'wings' that is not in the template"⟩]⟩ :=
  ⟨rfl, @validate_entry_by_entry (.object [("pets", .array [.object [("legs", .integer 4)]])])
    ["pets"] rfl [("legs", .tree []), ("wings", .spec "boolean")] false, rfl⟩

end Specimen

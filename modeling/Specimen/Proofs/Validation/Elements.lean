import Specimen.Proofs.Population.Locality
import Specimen.Proofs.Population.Relocation
import Specimen.Proofs.Validation.Levels

/-!
# Overrides for the objects of an array

A template may itself be an array of objects, whose overrides are then for its first object.
Population enters such an array as it enters any other one and names the fields of an element
below the path of the elements.  Validation takes the fields of the first object for those of
the root, so the step to the elements is missing from all that it reports.

Whatever population fails for in an override is reported even so, as an error at the place
that the rest of the path leads to.  But the two paths are the same only by accident: where the
names of the overrides are names that no path to an element begins with, nothing is reported at
the path that population names.

## Main statements

* `Level.exists_path_of_reaches` — what lies below the root lies below the name of an override.
* `validate_foresees_elements` — failures for an array of objects are among the reported errors,
  at paths without the step to the elements.
* `validate_misses_element_path` — an error that is reported at another path.
-/

namespace Specimen

open Specimen.Random (Source)

/-! ### How paths begin -/

namespace FieldPath

variable {path : FieldPath} {c : Char}

theorem down_append (steps more : List Step) (path : FieldPath) :
    path.down (steps ++ more) = (path.down steps).down more :=
  List.foldl_append

/-- Every step further down goes on where the path ends, unless the path is empty. -/
theorem head?_step (h : path.trail.toList.head? = some c) (step : Step) :
    (path.step step).trail.toList.head? = some c := by
  have hne : path.trail.isEmpty = false := by
    rw [Bool.eq_false_iff, Ne, String.isEmpty_iff]
    intro hempty
    rw [hempty] at h
    cases h
  cases step with
  | child name => simp [FieldPath.step, child, hne, String.toList_append, h]
  | element => simp [FieldPath.step, element, String.toList_append, h]

theorem head?_down (h : path.trail.toList.head? = some c) (steps : List Step) :
    (path.down steps).trail.toList.head? = some c := by
  induction steps generalizing path with
  | nil => exact h
  | cons step steps ih => exact ih (head?_step h step)

/-- So the written form of a path begins as any path on the way to it does. -/
theorem head?_render_down (h : path.trail.toList.head? = some c) (steps : List Step) :
    (path.down steps).render.toList.head? = some c := by
  have hdown := head?_down h steps
  rw [render]
  split
  · next hempty =>
    rw [String.isEmpty_iff.mp hempty] at hdown
    cases hdown
  · exact hdown

end FieldPath

/-! ### Where issues lie -/

namespace Level

variable {fields : List (String × Value)} {overrides : Overrides} {m : Level} {strict : Bool}

/-- The issues of an entry itself lie at the field of the entry. -/
theorem path_of_mem_entryIssues {name : String} {entry : Override} {issue : Issue}
    (h : issue ∈ m.entryIssues strict name entry) :
    issue.path = (m.path.child name).render := by
  have hfinding : ∀ (finding : Finding) (path : FieldPath),
      (finding.issue strict path).path = path.render := fun _ _ => rfl
  unfold entryIssues judgeField at h
  split at h
  · rw [List.mem_singleton.mp h, hfinding]
  · split at h
    · rw [List.mem_singleton.mp h, hfinding]
    · cases entry with
      | spec text =>
        obtain ⟨finding, -, rfl⟩ := List.mem_map.mp h
        rw [hfinding]
      | tree entries =>
        dsimp only at h
        split at h
        · cases h
        · rw [List.mem_singleton.mp h, hfinding]

/-- A level below the root lies below the name of an override for the root. -/
theorem exists_path_of_reaches (h : (root fields overrides).Reaches m) :
    m = root fields overrides ∨
      ∃ name ∈ Record.names overrides, ∃ steps,
        m.path = (FieldPath.root.child name).down steps := by
  induction h with
  | refl => exact Or.inl rfl
  | @tail l m _ hbelow ih =>
    right
    -- the last step goes from `l` to the field of one of its entries, and maybe to its elements
    obtain ⟨key, tree, hmem, more, hpath⟩ : ∃ key tree, (key, Override.tree tree) ∈ l.tree ∧
        ∃ more, m.path = (l.path.child key).down more := by
      cases hbelow with
      | object hmem _ => exact ⟨_, _, hmem, [], rfl⟩
      | objects hmem _ => exact ⟨_, _, hmem, [.element], rfl⟩
    rcases ih with rfl | ⟨name, hname, steps, hsteps⟩
    · exact ⟨key, Record.mem_names_of_mem hmem, more, hpath⟩
    · refine ⟨name, hname, steps ++ .child key :: more, ?_⟩
      rw [hpath, hsteps, FieldPath.down_append]
      rfl

/-- So does every issue. -/
theorem exists_path_of_raises {name : String} {entry : Override} {issue : Issue}
    (h : (root fields overrides).Raises strict m name entry issue) :
    ∃ key ∈ Record.names overrides, ∃ steps,
      issue.path = ((FieldPath.root.child key).down steps).render := by
  obtain ⟨hreaches, hmem, hissue⟩ := h
  rw [path_of_mem_entryIssues hissue]
  rcases exists_path_of_reaches hreaches with rfl | ⟨key, hkey, steps, hsteps⟩
  · exact ⟨name, Record.mem_names_of_mem hmem, [], rfl⟩
  · refine ⟨key, hkey, steps ++ [.child name], ?_⟩
    rw [hsteps, FieldPath.down_append]
    rfl

end Level

/-! ### Arrays of objects -/

/-- The report for an array of objects is that for its first object. -/
theorem Overrides.validate_objects (fields : List (String × Value)) (rest : List Value)
    (overrides : Overrides) (strict : Bool) :
    overrides.validate (.array (.object fields :: rest)) strict =
      overrides.validate (.object fields) strict := rfl

section

variable {σ : Type} [Source σ] {o : Options} {fields : List (String × Value)} {rest : List Value}
  {overrides : Overrides} {s t : σ} {e : GenerationError} {field : String}

/-- An array of objects fails for one of its elements, at the path of the elements. -/
theorem exists_element_error
    (h : create o (.array (.object fields :: rest)) (some overrides) s = .error e t) :
    ∃ u, populateObject o FieldPath.root.element (some overrides) fields u = .error e t := by
  rw [create_objects] at h
  exact (Generation.times_eq_error (Generation.map_eq_error.mp h)).2

/-- The failures of an object are foreseen by the issues of its tree, as failures at the root. -/
theorem populateObject_root_foreseen (hwf : (Value.object fields).WellFormed)
    (h : populateObject o .root (some overrides) fields s = .error e t)
    (hfield : e.overrideField? = some field) :
    ∃ issue ∈ (overrides.validate (.object fields) o.strict).errors, Foresees e field issue := by
  rw [← populate_object_map] at h
  obtain ⟨issue, hmem, hforesees⟩ := populate_foreseen.1 .root (some (.tree overrides))
    (.object fields) hwf nofun s t e field h hfield
  refine ⟨issue, ?_, hforesees⟩
  rw [Overrides.validate, Report.errors_ofIssues]
  exact List.mem_filter.mpr ⟨hmem, decide_eq_true hforesees.1⟩

/-- An error for an override stays one when it is moved. -/
theorem GenerationError.Moved.overrideField? {path path' : FieldPath} {e e' : GenerationError}
    (h : Moved path path' e e') (hfield : e.overrideField? = some field) :
    ∃ steps, field = (path.down steps).render ∧
      e'.overrideField? = some (path'.down steps).render ∧
      ∀ source, e = .spec field source → e' = .spec (path'.down steps).render source := by
  cases h with
  | unplaced hnone => cases e <;> simp_all [GenerationError.overrideField?, field?]
  | placed steps hsome =>
    refine ⟨steps, ?_⟩
    cases e <;> simp_all [GenerationError.overrideField?, field?, withField]

/-- **Validation foresees failures for the objects of an array, but at other paths.**  When
population of an array of objects fails for an override, an error is reported with the same
words; its path lacks the step to the elements that the path of the failure begins with.  If
every name in the overrides begins with a character that is no bracket, nothing at all is
reported at the path of the failure. -/
theorem validate_foresees_elements (hwf : (Value.array (.object fields :: rest)).WellFormed)
    (h : create o (.array (.object fields :: rest)) (some overrides) s = .error e t)
    (hfield : e.overrideField? = some field) :
    (∃ steps, field = (FieldPath.ofSteps (.element :: steps)).render ∧
      ∃ issue ∈ (overrides.validate (.array (.object fields :: rest)) o.strict).errors,
        issue.severity = .error ∧ issue.path = (FieldPath.ofSteps steps).render ∧
          ∀ source, e = .spec field source → issue.message = source.message) ∧
      ((∀ name ∈ Record.names overrides, ∃ c, name.toList.head? = some c ∧ c ≠ '[') →
        ∀ issue ∈ (overrides.validate (.array (.object fields :: rest)) o.strict).errors,
          issue.path ≠ field) := by
  obtain ⟨u, helement⟩ := exists_element_error h
  obtain ⟨e', hmoved, hroot⟩ := populateObject_moved .root helement
  obtain ⟨steps, rfl, hfield', hspec⟩ := hmoved.overrideField? hfield
  rw [Overrides.validate_objects]
  constructor
  · -- the same object fails at the root, which is where validation looks at it
    obtain ⟨issue, hmem, hseverity, hpath, hmessage⟩ :=
      populateObject_root_foreseen hwf.1 hroot hfield'
    exact ⟨steps, rfl, issue, hmem, hseverity, hpath,
      fun source he => hmessage source (hspec source he)⟩
  · intro hnames issue hmem heq
    obtain ⟨-, m, name, entry, hraises⟩ := Overrides.mem_errors_validate_iff.mp hmem
    obtain ⟨key, hkey, more, hpath⟩ := Level.exists_path_of_raises hraises
    obtain ⟨c, hc, hbracket⟩ := hnames key hkey
    -- one path begins with the bracket of the elements, the other one with the name
    have helements : (FieldPath.root.element.down steps).render.toList.head? = some '[' :=
      FieldPath.head?_render_down rfl steps
    have hname : ((FieldPath.root.child key).down more).render.toList.head? = some c :=
      FieldPath.head?_render_down hc more
    rw [← heq, hpath, hname] at helements
    exact hbracket (Option.some.inj helements)

end

/-- A spec of the wrong kind for the objects of an array. -/
theorem validate_foresees_elements_incompatible :
    (∃ steps, "[].id" = (FieldPath.ofSteps (.element :: steps)).render ∧
      ∃ issue ∈ (Overrides.validate (.array [.object [("id", .integer 1)]])
          [("id", .spec "boolean")] false).errors,
        issue.severity = .error ∧ issue.path = (FieldPath.ofSteps steps).render ∧
          ∀ source, GenerationError.spec "[].id" ⟨"boolean", .incompatible .number⟩
            = .spec "[].id" source → issue.message = source.message) ∧
      ∀ issue ∈ (Overrides.validate (.array [.object [("id", .integer 1)]])
          [("id", .spec "boolean")] false).errors, issue.path ≠ "[].id" := by
  have hwf : (Value.array [.object [("id", .integer 1)]]).WellFormed :=
    ⟨⟨by unfold Record.Sorted; decide, trivial, trivial⟩, trivial⟩
  have h := @validate_foresees_elements Random.Script _ .default [("id", .integer 1)] []
    [("id", .spec "boolean")] (Random.Script.ofWords [0] 0) (Random.Script.ofWords [0] 0)
    (.spec "[].id" ⟨"boolean", .incompatible .number⟩) "[].id" hwf (by with_unfolding_all rfl) rfl
  refine ⟨h.1, h.2 fun name hname => ?_⟩
  rw [List.mem_singleton.mp hname]
  exact ⟨'i', rfl, by decide⟩

/-- **The error is reported, but not where population fails.** -/
theorem validate_misses_element_path :
    create .default (.array [.object [("id", .integer 1)]]) (some [("id", .spec "boolean")])
        (Random.Script.ofWords [0] 0) =
      .error (.spec "[].id" ⟨"boolean", .incompatible .number⟩) (Random.Script.ofWords [0] 0) ∧
    (Overrides.validate (.array [.object [("id", .integer 1)]])
        [("id", .spec "boolean")] false).errors =
      [⟨.error, "incompatible_spec", "id",
        (Spec.Error.mk "boolean" (.incompatible .number)).message⟩] ∧
    ¬ ∃ issue ∈ (Overrides.validate (.array [.object [("id", .integer 1)]])
        [("id", .spec "boolean")] false).errors, issue.path = "[].id" := by
  have hparse : Spec.parse "boolean" = .ok .boolean := by decide +kernel
  have herrors : (Overrides.validate (.array [.object [("id", .integer 1)]])
      [("id", .spec "boolean")] false).errors =
      [⟨.error, "incompatible_spec", "id",
        (Spec.Error.mk "boolean" (.incompatible .number)).message⟩] := by
    rw [Overrides.validate, Report.errors_ofIssues]
    simp only [Overrides.issues, fieldsOf?, Override.entriesIssues, Override.issues, judgeField,
      Record.get?_cons_self, Value.category?, specFindings, hparse]
    rfl
  refine ⟨by with_unfolding_all rfl, herrors, ?_⟩
  rw [herrors]
  rintro ⟨issue, hmem, hpath⟩
  rw [List.mem_singleton.mp hmem] at hpath
  exact absurd hpath (by decide)

end Specimen

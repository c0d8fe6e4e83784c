import Specimen.Validation.Finding

/-!
# Strict and lenient validation

Whether validation is strict does not show in what it finds, nor in the order in which it finds
it, but only in where it files the unknown fields: among the errors in strict mode, among the
warnings otherwise.  So each report can be read off the other one.

## Main definitions

* `issuesOf strict found` — the issues of what was found, in either mode.

## Main statements

* `Overrides.exists_found` — what is found does not depend on the mode.
* `Finding.issue_of_unknown`, `Finding.issue_of_known` — what the mode does to one issue.
* `Overrides.validate_strict_moves_unknown` — the two reports differ in the unknown fields alone.
-/

namespace Specimen

/-! ### One finding -/

namespace Finding

variable {finding : Finding}

/-- An unknown field is a warning that strict mode makes an error of. -/
theorem issue_of_unknown (h : finding.code = "unknown_field") (path : FieldPath) :
    (finding.issue false path).severity = .warning ∧
      finding.issue true path = { finding.issue false path with severity := .error } := by
  cases finding with
  | unknownField name => exact ⟨rfl, rfl⟩
  | fieldless | nestedArray _ | misplacedTree _ | misplacedSpec _ _ | invalidSpec _
  | incompatibleSpec _ | ignoredSpec _ => simp [code] at h

/-- Any other finding is the same issue in either mode. -/
theorem issue_of_known (h : finding.code ≠ "unknown_field") (strict other : Bool)
    (path : FieldPath) : finding.issue strict path = finding.issue other path := by
  cases finding with
  | unknownField name => exact absurd rfl h
  | fieldless | nestedArray _ | misplacedTree _ | misplacedSpec _ _ | invalidSpec _
  | incompatibleSpec _ | ignoredSpec _ => rfl

end Finding

/-! ### Everything that is found -/

/-- The issues of what was found, in either mode. -/
def issuesOf (strict : Bool) (found : List (Finding × FieldPath)) : List Issue :=
  found.map fun place => place.1.issue strict place.2

theorem issuesOf_cons (strict : Bool) (finding : Finding) (path : FieldPath)
    (found : List (Finding × FieldPath)) :
    issuesOf strict ((finding, path) :: found) =
      finding.issue strict path :: issuesOf strict found := rfl

theorem issuesOf_append (strict : Bool) (found more : List (Finding × FieldPath)) :
    issuesOf strict (found ++ more) = issuesOf strict found ++ issuesOf strict more :=
  List.map_append

/-- An entry is looked up and judged alike in both modes, if it is judged alike once its field
is found. -/
theorem exists_found_judgeField {judge : Bool → Value → Category → List Issue}
    (fields : List (String × Value)) (here : FieldPath) (name : String)
    (hjudge : ∀ value category, ∃ found, ∀ strict, judge strict value category =
      issuesOf strict found) :
    ∃ found, ∀ strict, judgeField strict fields here name (judge strict) =
      issuesOf strict found := by
  unfold judgeField
  cases Record.get? name fields with
  | none => exact ⟨[(.unknownField name, here)], fun _ => rfl⟩
  | some value =>
    cases hcategory : value.category? with
    | none =>
      refine ⟨[(.nestedArray here.render, here)], fun strict => ?_⟩
      simp only [hcategory]
      rfl
    | some category =>
      simp only [hcategory]
      exact hjudge value category

mutual

/-- What is found of an entry does not depend on the mode. -/
theorem Override.exists_found (fields : List (String × Value)) (path : FieldPath) (name : String) :
    ∀ entry : Override, ∃ found, ∀ strict, Override.issues strict fields path name entry =
      issuesOf strict found
  | .spec text => by
    simp only [Override.issues]
    refine exists_found_judgeField fields _ name fun value category => ?_
    refine ⟨(specFindings text value category).map (·, path.child name), fun strict => ?_⟩
    rw [issuesOf, List.map_map]
    rfl
  | .tree entries => by
    simp only [Override.issues]
    refine exists_found_judgeField fields _ name fun value category => ?_
    cases category.takesTree with
    | true =>
      exact exists_found_entries ((fieldsOf? value).getD [])
        (treePath category (path.child name)) entries
    | false => exact ⟨[(.misplacedTree category, path.child name)], fun _ => rfl⟩

/-- Nor does what is found of a tree. -/
theorem Override.exists_found_entries (fields : List (String × Value)) (path : FieldPath) :
    ∀ entries : List (String × Override), ∃ found, ∀ strict,
      Override.entriesIssues strict fields path entries = issuesOf strict found
  | [] => ⟨[], fun strict => by rw [Override.entriesIssues]; rfl⟩
  | (name, entry) :: entries => by
    obtain ⟨found, hfound⟩ := Override.exists_found fields path name entry
    obtain ⟨more, hmore⟩ := Override.exists_found_entries fields path entries
    refine ⟨found ++ more, fun strict => ?_⟩
    rw [Override.entriesIssues, hfound, hmore, issuesOf_append]

end

/-- **What is found does not depend on the mode.** -/
theorem Overrides.exists_found (template : Value) (overrides : Overrides) :
    ∃ found, ∀ strict, overrides.issues strict template = issuesOf strict found := by
  unfold Overrides.issues
  cases fieldsOf? template with
  | some fields => exact Override.exists_found_entries fields .root overrides
  | none =>
    cases overrides with
    | nil => exact ⟨[], fun _ => rfl⟩
    | cons entry overrides => exact ⟨[(.fieldless, .root)], fun _ => rfl⟩

/-- But for the unknown fields, the issues are the same in either mode. -/
theorem issuesOf_filter_known (strict other : Bool) (found : List (Finding × FieldPath)) :
    (issuesOf strict found).filter (·.code ≠ "unknown_field") =
      (issuesOf other found).filter (·.code ≠ "unknown_field") := by
  induction found with
  | nil => rfl
  | cons place found ih =>
    obtain ⟨finding, path⟩ := place
    by_cases hcode : finding.code = "unknown_field"
    · have hissue : ∀ strict, (finding.issue strict path).code = "unknown_field" := fun _ => hcode
      simpa [issuesOf_cons, hissue] using ih
    · have hissue : (finding.issue other path).code ≠ "unknown_field" := hcode
      simpa [issuesOf_cons, Finding.issue_of_known hcode strict other, hissue] using ih

/-- The unknown fields are listed alike in either mode, but for their severity. -/
theorem issuesOf_filter_unknown (found : List (Finding × FieldPath)) :
    (issuesOf true found).filter (·.code = "unknown_field") =
      ((issuesOf false found).filter (·.code = "unknown_field")).map
        (fun issue => { issue with severity := .error }) := by
  induction found with
  | nil => rfl
  | cons place found ih =>
    obtain ⟨finding, path⟩ := place
    by_cases hcode : finding.code = "unknown_field"
    · have hissue : (finding.issue false path).code = "unknown_field" := hcode
      simpa [issuesOf_cons, (Finding.issue_of_unknown hcode path).2, hissue] using ih
    · have hissue : ∀ strict, (finding.issue strict path).code ≠ "unknown_field" := fun _ => hcode
      simpa [issuesOf_cons, hissue] using ih

/-- The mode decides on the severity of the unknown fields. -/
theorem severity_of_mem_issuesOf {strict : Bool} {found : List (Finding × FieldPath)}
    {issue : Issue} (h : issue ∈ issuesOf strict found) (hcode : issue.code = "unknown_field") :
    issue.severity = if strict then .error else .warning := by
  obtain ⟨⟨finding, path⟩, -, rfl⟩ := List.mem_map.mp h
  have hcode : finding.code = "unknown_field" := hcode
  obtain ⟨hlenient, hstrict⟩ := Finding.issue_of_unknown hcode path
  cases strict with
  | false => exact hlenient
  | true => rw [hstrict, if_pos rfl]

/-! ### The two reports -/

/-- Issues of a severity that the unknown fields do not have are those of the other mode, without
the unknown fields. -/
theorem issuesOf_filter_severity {strict : Bool} {severity : Severity}
    (found : List (Finding × FieldPath)) (h : severity ≠ if strict then .error else .warning) :
    (issuesOf strict found).filter (·.severity = severity) =
      ((issuesOf (!strict) found).filter (·.severity = severity)).filter
        (·.code ≠ "unknown_field") := by
  have hknown : ∀ issue ∈ issuesOf strict found, issue.severity = severity →
      issue.code ≠ "unknown_field" := fun issue hissue hseverity hcode =>
    h (hseverity.symm.trans (severity_of_mem_issuesOf hissue hcode))
  calc (issuesOf strict found).filter (·.severity = severity)
      = ((issuesOf strict found).filter (·.code ≠ "unknown_field")).filter
          (·.severity = severity) := by
        rw [List.filter_filter]
        refine List.filter_congr fun issue hissue => ?_
        by_cases hseverity : issue.severity = severity
        · simp [hseverity, hknown issue hissue hseverity]
        · simp [hseverity]
    _ = ((issuesOf (!strict) found).filter (·.code ≠ "unknown_field")).filter
          (·.severity = severity) := by rw [issuesOf_filter_known strict (!strict)]
    _ = ((issuesOf (!strict) found).filter (·.severity = severity)).filter
          (·.code ≠ "unknown_field") := by simp only [List.filter_filter, Bool.and_comm]

/-- The unknown fields are all of the severity that the mode decides on. -/
theorem issuesOf_filter_severity_unknown (strict : Bool) (found : List (Finding × FieldPath)) :
    ((issuesOf strict found).filter (·.severity = if strict then .error else .warning)).filter
        (·.code = "unknown_field") =
      (issuesOf strict found).filter (·.code = "unknown_field") := by
  rw [List.filter_filter]
  refine List.filter_congr fun issue hissue => ?_
  by_cases hcode : issue.code = "unknown_field"
  · simp [hcode, severity_of_mem_issuesOf hissue hcode]
  · simp [hcode]

/-- **The two reports differ in the unknown fields alone.**  Without them, the errors of either
report are those of the other, and so are the warnings.  The unknown fields themselves are listed
alike among the errors of the strict report and among the warnings of the lenient one.  In both
reports, every issue has the severity of the list that it stands in. -/
theorem Overrides.validate_strict_moves_unknown (template : Value) (overrides : Overrides) :
    (overrides.validate template false).errors =
        (overrides.validate template true).errors.filter (·.code ≠ "unknown_field") ∧
      (overrides.validate template true).warnings =
        (overrides.validate template false).warnings.filter (·.code ≠ "unknown_field") ∧
      (overrides.validate template true).errors.filter (·.code = "unknown_field") =
        ((overrides.validate template false).warnings.filter (·.code = "unknown_field")).map
          (fun issue => { issue with severity := .error }) ∧
      ∀ strict,
        (∀ issue ∈ (overrides.validate template strict).errors, issue.severity = .error) ∧
        ∀ issue ∈ (overrides.validate template strict).warnings, issue.severity = .warning := by
  obtain ⟨found, hfound⟩ := Overrides.exists_found template overrides
  simp only [Overrides.validate, Report.errors_ofIssues, Report.warnings_ofIssues, hfound]
  refine ⟨issuesOf_filter_severity found (by decide),
    issuesOf_filter_severity found (by decide), ?_, fun strict => ⟨?_, ?_⟩⟩
  · have hstrict := issuesOf_filter_severity_unknown true found
    have hlenient := issuesOf_filter_severity_unknown false found
    simp only [if_true, Bool.false_eq_true, if_false] at hstrict hlenient
    rw [hstrict, hlenient, issuesOf_filter_unknown]
  · exact fun issue hissue => of_decide_eq_true (List.mem_filter.mp hissue).2
  · exact fun issue hissue => of_decide_eq_true (List.mem_filter.mp hissue).2

end Specimen

/-!
# Reports

A report files issues by their severity and keeps the order in which they were found.

## Main definitions

* `Issue` — a problem at a place, with its severity.
* `Report` — the errors and the warnings.
* `Report.push` — files one more issue.
* `Report.ofIssues` — the report of a list of issues.

## Main statements

* `Report.errors_ofIssues`, `Report.warnings_ofIssues` — an issue is filed exactly
  where its severity says.
-/

namespace Specimen

/-- Whether an issue makes overrides unusable. -/
inductive Severity where
  | error
  | warning
deriving DecidableEq, Repr

/-- A problem at a place. -/
structure Issue where
  severity : Severity
  /-- A name for the sort of problem. -/
  code : String
  /-- The path of the place. -/
  path : String
  message : String
deriving DecidableEq, Repr

/-- The issues found, by severity. -/
structure Report where
  errors : List Issue
  warnings : List Issue
deriving DecidableEq, Repr

namespace Report

/-- Nothing was found. -/
def empty : Report := ⟨[], []⟩

/-- There are no errors. -/
def isOk (r : Report) : Bool := r.errors.isEmpty

/-- Files one more issue behind those of its severity. -/
def push (r : Report) (issue : Issue) : Report :=
  match issue.severity with
  | .error => { r with errors := r.errors ++ [issue] }
  | .warning => { r with warnings := r.warnings ++ [issue] }

/-- The codes of the errors, then those of the warnings. -/
def codes (r : Report) : List String := (r.errors ++ r.warnings).map (·.code)

/-- The report of issues in the order found. -/
def ofIssues (issues : List Issue) : Report := issues.foldl push empty

/-- Filing a list of issues appends them, each where it belongs. -/
theorem foldl_push (issues : List Issue) (r : Report) :
    issues.foldl push r
      = ⟨r.errors ++ issues.filter (·.severity = .error),
         r.warnings ++ issues.filter (·.severity = .warning)⟩ := by
  induction issues generalizing r with
  | nil => simp
  | cons issue issues ih =>
    rw [List.foldl_cons, ih]
    cases h : issue.severity <;> simp [push, h]

theorem errors_ofIssues (issues : List Issue) :
    (ofIssues issues).errors = issues.filter (·.severity = .error) := by
  simp [ofIssues, foldl_push, empty]

theorem warnings_ofIssues (issues : List Issue) :
    (ofIssues issues).warnings = issues.filter (·.severity = .warning) := by
  simp [ofIssues, foldl_push, empty]

end Report

end Specimen

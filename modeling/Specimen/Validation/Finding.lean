import Specimen.FieldPath
import Specimen.Override.Basic
import Specimen.Validation.Report
import Specimen.Value.Json

/-!
# Checking overrides against a template

Overrides are checked without generating anything.  The walk is led by the overrides:
each entry is looked up in the template and judged by the category of its field, and
trees are followed into objects and into the first objects of arrays.

## Main definitions

* `Finding` — what may be wrong with an entry, with its code and message.
* `fieldsOf?` — the fields that the entries of a tree refer to.
* `Overrides.issues` — the issues of overrides for a template, in the order found.
* `Overrides.validate` — the report of these issues.
-/

namespace Specimen

/-- What may be wrong with an entry. -/
inductive Finding where
  /-- A tree for a node that has no fields. -/
  | fieldless
  /-- The template has no such field. -/
  | unknownField (name : String)
  /-- The field holds an array that starts with an array. -/
  | nestedArray (field : String)
  /-- A tree for a field that takes a spec. -/
  | misplacedTree (category : Category)
  /-- A spec for a field that takes a tree. -/
  | misplacedSpec (spec : String) (category : Category)
  /-- The spec cannot be read. -/
  | invalidSpec (error : Spec.Error)
  /-- The spec does not suit the field. -/
  | incompatibleSpec (error : Spec.Error)
  /-- The spec has no effect, since the array is empty. -/
  | ignoredSpec (spec : String)
deriving DecidableEq

namespace Finding

/-- The name for the sort of problem. -/
def code : Finding → String
  | .fieldless => "misshaped_override"
  | .unknownField _ => "unknown_field"
  | .nestedArray _ => "unsupported_structure"
  | .misplacedTree _ => "misshaped_override"
  | .misplacedSpec _ _ => "misshaped_override"
  | .invalidSpec _ => "invalid_spec"
  | .incompatibleSpec _ => "incompatible_spec"
  | .ignoredSpec _ => "ignored_override"

/-- The text of the finding. -/
def message : Finding → String
  | .fieldless => "nested overrides given for a node without fields"
  | .unknownField name => "override specifies field '" ++ name ++ "' that is not in the template"
  | .nestedArray field => (Value.Error.nestedArray field).message
  | .misplacedTree category => "nested overrides given for " ++ category.name ++ " field"
  | .misplacedSpec spec category => "spec '" ++ spec ++ "' given for " ++ category.name ++ " field"
  | .invalidSpec error => error.message
  | .incompatibleSpec error => error.message
  | .ignoredSpec spec => "spec '" ++ spec ++ "' ignored: empty arrays stay empty"

/-- Unknown fields are errors only when the check is strict; a spec without effect is
never one. -/
def severity (strict : Bool) : Finding → Severity
  | .unknownField _ => if strict then .error else .warning
  | .ignoredSpec _ => .warning
  | _ => .error

/-- The finding at a place. -/
def issue (finding : Finding) (strict : Bool) (path : FieldPath) : Issue :=
  ⟨finding.severity strict, finding.code, path.render, finding.message⟩

end Finding

/-- The fields that the entries of a tree refer to: those of the object, or of the
first object of the array. -/
def fieldsOf? : Value → Option (List (String × Value))
  | .object fields => some fields
  | .array (.object fields :: _) => some fields
  | _ => none

/-- The category that a spec for the field has to suit.  For an array it is that of
the first item. -/
def specTarget (value : Value) (category : Category) : Category :=
  match category, value with
  | .arrayOfPrimitives, .array (first :: _) => first.category?.getD .null
  | .arrayOfPrimitives, _ => .null
  | category, _ => category

/-- What is wrong with a spec for a field of the category. -/
def specFindings (spec : String) (value : Value) (category : Category) : List Finding :=
  match Spec.parse spec with
  | .error e => [.invalidSpec e]
  | .ok rule =>
    if rule.isSkip then []
    else if category.takesTree then [.misplacedSpec spec category]
    else if category = .emptyArray then [.ignoredSpec spec]
    else match Spec.check spec rule (specTarget value category) with
    | .error e => [.incompatibleSpec e]
    | .ok () => []

/-- Where the entries of a tree for the field lie: behind the element step if the field
is an array. -/
def treePath (category : Category) (path : FieldPath) : FieldPath :=
  if category = .arrayOfObjects then path.element else path

/-- Judges the entry for the named field, once the field and its category are found. -/
def judgeField (strict : Bool) (fields : List (String × Value)) (here : FieldPath) (name : String)
    (judge : Value → Category → List Issue) : List Issue :=
  match Record.get? name fields with
  | none => [(Finding.unknownField name).issue strict here]
  | some value =>
    match value.category? with
    | none => [(Finding.nestedArray here.render).issue strict here]
    | some category => judge value category

mutual

/-- The issues of the entry for the named field. -/
def Override.issues (strict : Bool) (fields : List (String × Value)) (path : FieldPath)
    (name : String) : Override → List Issue
  | .spec text =>
    judgeField strict fields (path.child name) name fun value category =>
      (specFindings text value category).map (·.issue strict (path.child name))
  | .tree entries =>
    judgeField strict fields (path.child name) name fun value category =>
      if category.takesTree then
        entriesIssues strict ((fieldsOf? value).getD []) (treePath category (path.child name))
          entries
      else [(Finding.misplacedTree category).issue strict (path.child name)]

/-- The issues of the entries for the fields of an object. -/
def Override.entriesIssues (strict : Bool) (fields : List (String × Value)) (path : FieldPath) :
    List (String × Override) → List Issue
  | [] => []
  | (name, entry) :: entries =>
    Override.issues strict fields path name entry ++ entriesIssues strict fields path entries

end

namespace Overrides

/-- The issues of overrides for a template, in the order found.  A template without
fields takes no overrides at all. -/
def issues (strict : Bool) (template : Value) (t : Overrides) : List Issue :=
  match fieldsOf? template with
  | some fields => Override.entriesIssues strict fields .root t
  | none => if t.isEmpty then [] else [Finding.fieldless.issue strict .root]

/-- Checks overrides against a template. -/
def validate (template : Value) (t : Overrides) (strict : Bool) : Report :=
  .ofIssues (t.issues strict template)

end Overrides

end Specimen

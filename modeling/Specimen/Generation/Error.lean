import Specimen.Binary64.Decimal
import Specimen.Random.Source
import Specimen.Spec.Error
import Specimen.Spec.Rule
import Specimen.Value.Json

/-!
# Errors of generation

Generation fails for the template, for the overrides, or for bounds that leave no
number.  Whatever has been drawn before a failure stays drawn.

## Main definitions

* `GenerationError` — why generation fails, with its `message`.
* `Generation σ α` — a value made from a source, or an error; either way the source
  has moved on to where generation stopped.
* `Generation.draw` — a draw, which cannot fail.
-/

namespace Specimen

/-- What the override for a field has to be. -/
inductive GenerationError.Expected where
  | spec
  | tree
deriving DecidableEq, Repr

/-- The words for what an override has to be. -/
def GenerationError.Expected.text : Expected → String
  | .spec => "a spec string"
  | .tree => "a nested override tree"

/-- Why generation fails. -/
inductive GenerationError where
  /-- The template or the result is refused as a value. -/
  | value (error : Value.Error)
  /-- The override for the field is no spec, or not one that suits the field. -/
  | spec (field : String) (source : Spec.Error)
  /-- The field is open and has no override. -/
  | unsupportedField (field : String) (category : Category)
  /-- An override names a field that the template does not have. -/
  | unknownOverride (field : String)
  /-- A spec stands where a tree is needed, or a tree where a spec is needed. -/
  | misshapedOverride (field : String) (expected : GenerationError.Expected)
  /-- The bounds are not finite or not in order. -/
  | boundOrder (lower upper : Binary64)
  /-- No integer lies in the range. -/
  | emptyRange (lower upper : Int64)
  /-- No double lies between the bounds. -/
  | emptyDecimalRange (lower upper : Binary64)
  /-- No finite double lies beyond the bound. -/
  | decimalOverflow (bound : Binary64)
  /-- A rule that leaves its field out was asked for a value. -/
  | skip
deriving DecidableEq

/-- The text of the error. -/
def GenerationError.message : GenerationError → String
  | .value error => error.message
  | .spec field source => "field '" ++ field ++ "': " ++ source.message
  | .unsupportedField field category =>
    "cannot generate values of type '" ++ category.name ++ "' for field '" ++ field ++ "'"
  | .unknownOverride field =>
    "override specifies field '" ++ field ++ "' that is not in the template"
  | .misshapedOverride field expected =>
    "override for field '" ++ field ++ "' must be " ++ expected.text
  | .boundOrder lower upper =>
    "lower bound " ++ lower.text ++ " must be lower than upper bound " ++ upper.text
  | .emptyRange lower upper =>
    "no value fits between " ++ Spec.Rule.integerText lower ++ " and "
      ++ Spec.Rule.integerText upper
  | .emptyDecimalRange lower upper =>
    "no decimal fits strictly between " ++ lower.text ++ " and " ++ upper.text
  | .decimalOverflow bound => "no finite decimal lies beyond " ++ bound.text
  | .skip => "'skip' does not generate values"

/-- A value made from a random source, or an error. -/
abbrev Generation (σ : Type) := EStateM GenerationError σ

/-- A draw as a generation that does not fail. -/
def Generation.draw {σ α : Type} (x : Random.Draw σ α) : Generation σ α :=
  fun s => let (a, s) := x s; .ok a s

/-- A result that needs no draw. -/
def Generation.ofExcept {σ ε α : Type} (error : ε → GenerationError) :
    Except ε α → Generation σ α
  | .ok a => pure a
  | .error e => throw (error e)

@[simp] theorem Generation.draw_apply {σ α : Type} (x : Random.Draw σ α) (s : σ) :
    Generation.draw x s = .ok (x s).1 (x s).2 := rfl

@[simp] theorem Generation.ofExcept_ok {σ ε α : Type} (error : ε → GenerationError) (a : α) :
    (Generation.ofExcept error (.ok a) : Generation σ α) = pure a := rfl

@[simp] theorem Generation.ofExcept_error {σ ε α : Type} (error : ε → GenerationError) (e : ε) :
    (Generation.ofExcept error (.error e) : Generation σ α) = throw (error e) := rfl

end Specimen

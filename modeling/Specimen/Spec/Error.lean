import Specimen.Spec.Literal
import Specimen.Value.Category

/-!
# Faults of spec strings

A spec string is refused for a fault in its text, for bounds that leave nothing to
generate, or because it does not suit the field that it is given for.

## Main definitions

* `GrammarFault` — why a text is no sentence of the grammar, with its `reason`.
* `Fault` — why a spec is refused.
* `Spec.Error` — a fault together with the spec that has it, with its `message`.
-/

namespace Specimen.Spec

/-- Why a text is no spec. -/
inductive GrammarFault where
  /-- A run of digits, points and a minus sign that is no number literal. -/
  | malformedLiteral (literal : String)
  /-- A character that starts no token. -/
  | unexpectedCharacter (c : Char)
  /-- There is no token at all. -/
  | empty
  /-- The tokens have no meaning together. -/
  | unrecognized
  /-- A single word that names no kind. -/
  | unknownKind (word : String)
  /-- Bounds for something that is not a number. -/
  | unboundable (word : String)
  /-- A length that is no natural number in range. -/
  | invalidLength (literal : Literal)
  /-- An integer bound that does not fit into a signed word. -/
  | integerOutOfRange (literal : Literal)
  /-- A bound that is too large for a double. -/
  | numberOutOfRange (literal : Literal)
  /-- The spec leaves the field out, so it makes no values. -/
  | skipMakesNoValues
deriving DecidableEq

/-- Results are compared like their values, so that statements about single texts can be
decided. -/
instance exceptDecidableEq {ε α : Type} [DecidableEq ε] [DecidableEq α] :
    DecidableEq (Except ε α)
  | .ok a, .ok b => if h : a = b then isTrue (h ▸ rfl) else isFalse fun e => h (Except.ok.inj e)
  | .error a, .error b =>
    if h : a = b then isTrue (h ▸ rfl) else isFalse fun e => h (Except.error.inj e)
  | .ok _, .error _ => isFalse nofun
  | .error _, .ok _ => isFalse nofun

/-- The text of the reason. -/
def GrammarFault.reason : GrammarFault → String
  | .malformedLiteral literal => "malformed number literal '" ++ literal ++ "'"
  | .unexpectedCharacter c => "unexpected character '" ++ c.toString ++ "'"
  | .empty => "empty spec"
  | .unrecognized => "unrecognized spec"
  | .unknownKind word => "unknown kind '" ++ word ++ "'"
  | .unboundable word => "'" ++ word ++ "' cannot be bounded"
  | .invalidLength literal => "invalid string length '" ++ literal.text ++ "'"
  | .integerOutOfRange literal => "integer literal '" ++ literal.text ++ "' out of range"
  | .numberOutOfRange literal => "number literal '" ++ literal.text ++ "' out of range"
  | .skipMakesNoValues => "'skip' does not generate values"

/-- Why a spec is refused. -/
inductive Fault where
  | grammar (fault : GrammarFault)
  /-- The kind of the spec does not suit fields of the category. -/
  | incompatible (category : Category)
  /-- An integer spec has a bound with a point. -/
  | nonIntegerBound (literal : Literal)
  /-- The bounds are equal or in the wrong order. -/
  | boundOrder (lower upper : Literal)
  /-- No integer lies between the bounds. -/
  | emptyRange
deriving DecidableEq

/-- A fault and the spec that has it. -/
structure Error where
  spec : String
  fault : Fault
deriving DecidableEq

/-- The text of the error. -/
def Error.message (e : Error) : String :=
  match e.fault with
  | .grammar fault => "invalid spec '" ++ e.spec ++ "': " ++ fault.reason
  | .incompatible category =>
    "spec '" ++ e.spec ++ "' not compatible with type '" ++ category.name ++ "'"
  | .nonIntegerBound literal =>
    "integer spec '" ++ e.spec ++ "' contains real value " ++ literal.text
  | .boundOrder lower upper =>
    "lower bound " ++ lower.text ++ " must be lower than upper bound " ++ upper.text
  | .emptyRange => "spec '" ++ e.spec ++ "' leaves no integer between its bounds"

end Specimen.Spec

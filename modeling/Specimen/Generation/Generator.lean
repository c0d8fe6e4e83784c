import Specimen.Generation.Primitive
import Specimen.Spec.Parser

/-!
# Generators

A generator is a rule together with the window that its numbers come from.  It is
resolved from a spec string, or follows from the kind of a template value.

## Main definitions

* `Generator` — a rule and a window.
* `Generator.implicit?` — the generator for values of the kind of a template value.
* `Generator.resolve` — the generator for a spec string.
* `Generator.generate` — one value.
-/

namespace Specimen

/-- A rule, and the window that numbers with fewer than two bounds come from. -/
structure Generator where
  rule : Spec.Rule
  window : UInt32
deriving DecidableEq

namespace Generator

/-- The rule for values of the same kind.  Open leaves and containers have none. -/
def implicitRule? : Value → Option Spec.Rule
  | .bool _ => some .boolean
  | .text _ => some (.string none)
  | .integer _ => some (.integer .any)
  | .decimal _ => some (.decimal .any)
  | .date _ => some .date
  | .null | .array _ | .object _ => none

/-- The generator for values of the same kind. -/
def implicit? (v : Value) (window : UInt32) : Option Generator :=
  (implicitRule? v).map fun rule => ⟨rule, window⟩

/-- The generator for a spec string.  A spec that leaves fields out has none. -/
def resolve (spec : String) (window : UInt32) : Except Spec.Error Generator := do
  let rule ← Spec.parse spec
  if rule.isSkip then .error ⟨spec, .grammar .skipMakesNoValues⟩ else .ok ⟨rule, window⟩

variable {σ : Type} [Random.Source σ]

/-- An integer in the range. -/
def integer (window : UInt32) : Spec.Range Int64 → Generation σ Int64
  | .any => .draw (Primitive.integerWithin window)
  | .below upper => Primitive.integerBelow upper window
  | .above lower => Primitive.integerAbove lower window
  | .between lower upper => Primitive.integerBetween lower upper

/-- A decimal in the range. -/
def decimal (window : UInt32) : Spec.Range Binary64 → Generation σ Binary64
  | .any => .draw (Primitive.decimalWithin window)
  | .below upper => Primitive.decimalBelow upper window
  | .above lower => Primitive.decimalAbove lower window
  | .between lower upper => Primitive.decimalBetween lower upper

/-- One value. -/
def generate (g : Generator) : Generation σ Value :=
  match g.rule with
  | .boolean => .bool <$> Generation.draw Primitive.boolean
  | .date => .date <$> Generation.draw Primitive.date
  | .string length => .text <$> Generation.draw (Primitive.text length)
  | .integer range => .integer <$> integer g.window range
  | .decimal range => .decimal <$> decimal g.window range
  | .skip => throw .skip

end Generator

end Specimen

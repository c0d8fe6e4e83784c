import Specimen.Generation.Populate
import Specimen.Json.Typed

/-!
# Typed specimens

A value of a type with a JSON form serves as the template for other values of its type.

## Main definitions

* `createAs` — a typed specimen in the image of a typed value.
-/

namespace Specimen

/-- A typed specimen in the image of a typed value.  The specimen need not be readable,
since overrides may leave fields out or change their kind. -/
def createAs {σ : Type} [Random.Source σ] {α : Type} [Json.Writable α] [Json.Readable α]
    (o : Options) (template : α) (overrides : Option Overrides) : Generation σ α := do
  let template ← .ofExcept .value (Value.ofWritable template)
  let made ← create o template overrides
  .ofExcept .value (made.readAs α)

end Specimen

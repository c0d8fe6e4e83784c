/-!
# Options

What a caller may set for the population of templates, each setting with the value that holds
when the caller says nothing.

## Main definitions

* `Options` — what a caller may set for the population of templates.
* `Options.withSeed`, `Options.withElementCount`, `Options.withWindow`,
  `Options.withStrict` — options with one of them changed.
-/

namespace Specimen

/-- What a caller may set for the population of templates. -/
structure Options where
  /-- The number of elements generated for an array that is not empty. -/
  elementCount : Nat := 3
  /-- The width of the range of numbers with fewer than two bounds. -/
  window : UInt32 := 1000
  /-- An override for a field that the template does not have is an error. -/
  strict : Bool := false
  /-- The seed of the default random source. -/
  seed : Option UInt64 := none
deriving DecidableEq

namespace Options

/-- The options that hold unless others are set. -/
def default : Options := {}

/-- The options with the given seed. -/
def withSeed (o : Options) (seed : UInt64) : Options := { o with seed := some seed }

/-- The options with the given number of elements. -/
def withElementCount (o : Options) (elementCount : Nat) : Options := { o with elementCount }

/-- The options with the given window. -/
def withWindow (o : Options) (window : UInt32) : Options := { o with window }

/-- The options with the given strictness. -/
def withStrict (o : Options) (strict : Bool) : Options := { o with strict }

end Options

end Specimen

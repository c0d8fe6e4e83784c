import Specimen.Binary64.Decimal

/-!
# Decimals scaled step by step

A decimal with a short coefficient can be read with arithmetic on doubles alone: the
coefficient is rounded to a double, which is then multiplied or divided by the double
nearest to a power of ten.  Every step rounds.  When the coefficient and the power are
doubles themselves the one multiplication or division is the only rounding, so the
result is the nearest double; otherwise it may miss that by a few ordinals.

No double reaches `10 ^ 309`, so greater powers are divided away in portions of
`10 ^ 308`, and a multiplication by one of them ends at infinity.

## Main definitions

* `Magnitude.ofNat` — the magnitude nearest to a natural number.
* `Magnitude.timesTens`, `Magnitude.overTens` — a magnitude multiplied or divided by a
  power of ten.
* `Decimal.scaled d` — the magnitude that `d` reads as, step by step.
-/

namespace Specimen.Binary64

attribute [local instance (high)] instPowNat

namespace Magnitude

/-- The magnitude nearest to a natural number. -/
def ofNat (n : Nat) : Magnitude := .nearest (n * unitsPerOne) 1

/-- The greatest exponent of a power of ten that rounds to a finite double. -/
def maxTens : Nat := 308

/-- The magnitude multiplied by the double nearest to `10 ^ e`.  Zero stays, also where
the power lies beyond the doubles. -/
def timesTens (m : Magnitude) (e : Nat) : Magnitude :=
  if m = .zero then .zero
  else if e ≤ maxTens then m.mul (.ofNat (10 ^ e))
  else .infinity

/-- The magnitude divided by the double nearest to `10 ^ e`, or by a greater power in
portions until it has come down to zero. -/
def overTens (m : Magnitude) (e : Nat) : Magnitude :=
  if m = .zero then .zero
  else if e ≤ maxTens then m.div (.ofNat (10 ^ e))
  else overTens (m.div (.ofNat (10 ^ maxTens))) (e - maxTens)
termination_by e
decreasing_by simp only [maxTens] at *; omega

end Magnitude

/-- The magnitude that the decimal reads as when each step of the scaling rounds. -/
def Decimal.scaled (d : Decimal) : Magnitude :=
  if 0 ≤ d.exponent then (Magnitude.ofNat d.coefficient).timesTens d.exponent.toNat
  else (Magnitude.ofNat d.coefficient).overTens (-d.exponent).toNat

end Specimen.Binary64

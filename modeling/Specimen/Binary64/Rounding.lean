import Specimen.Binary64.Basic

/-!
# Rounding to the nearest double

Arithmetic on doubles is exact arithmetic followed by one rounding: the nearest
magnitude, and the even ordinal when two are equally near.  Rounding works on a
quotient of natural numbers, in units of `2 ^ -1074`, so no precision is lost on
the way.

## Main definitions

* `floorOrdinal q` — the greatest magnitude of at most `q` units.
* `nearestOrdinal num den` — the magnitude nearest to `num / den` units.
* `Binary64.ofRatio negative num den` — the double nearest to `± num / den`.
* `Magnitude.mul`, `Magnitude.div` — products and quotients of finite magnitudes.
* `Binary64.add`, `Binary64.sub`, `Binary64.mul`, `Binary64.half` — the arithmetic
  that generation needs.
-/

namespace Specimen.Binary64

attribute [local instance (high)] instPowNat

/-- The ordinal of the greatest magnitude of at most `q` units: the leading 53 bits
of `q`, after the binades that lie below them. -/
def floorOrdinal (q : Nat) : Nat :=
  (q.log2 - 52) * binade + q / 2 ^ (q.log2 - 52)

/-- The ordinal of the magnitude nearest to `num / den` units.  A value halfway
between two magnitudes goes to the even ordinal, which has the even significand. -/
def nearestOrdinal (num den : Nat) : Nat :=
  let below := floorOrdinal (num / den)
  let middle := den * (units below + units (below + 1))
  if 2 * num < middle then below
  else if middle < 2 * num then below + 1
  else below + below % 2

/-- The magnitude nearest to `num / den` units.  Values that round past the
greatest finite magnitude become infinity. -/
def Magnitude.nearest (num den : Nat) : Magnitude :=
  .ofOrdinal (nearestOrdinal num den)

/-- The double nearest to `num / den` units, with the given sign. -/
def ofUnits (negative : Bool) (num den : Nat) : Binary64 :=
  .number negative (.nearest num den)

/-- The double nearest to `num / den`, with the given sign. -/
def ofRatio (negative : Bool) (num den : Nat) : Binary64 :=
  ofUnits negative (num * unitsPerOne) den

/-- The double nearest to an integer; zero is positive. -/
def ofInt (i : Int) : Binary64 := ofRatio (i < 0) i.natAbs 1

/-! ### Arithmetic -/

/-- The signed value in units of `2 ^ -1074`. -/
def Magnitude.signed (negative : Bool) (m : Magnitude) : Int :=
  if negative then -(m.value : Int) else m.value

/-- The sum.  A sum of zero is negative only when both terms are negative. -/
def add : Binary64 → Binary64 → Binary64
  | .nan, _ => .nan
  | _, .nan => .nan
  | .number s a, .number t b =>
    if a.isFinite then
      if b.isFinite then
        let sum := a.signed s + b.signed t
        if sum = 0 then .number (s && t) .zero else ofUnits (sum < 0) sum.natAbs 1
      else .number t b
    else if b.isFinite || s == t then .number s a
    else .nan

/-- The difference: the sum with the opposite number. -/
def sub (x y : Binary64) : Binary64 := x.add y.negate

/-- The product of two finite magnitudes. -/
def Magnitude.mul (a b : Magnitude) : Magnitude := .nearest (a.value * b.value) unitsPerOne

/-- The quotient of two finite magnitudes, the second of which is not zero. -/
def Magnitude.div (a b : Magnitude) : Magnitude := .nearest (a.value * unitsPerOne) b.value

/-- The product. -/
def mul : Binary64 → Binary64 → Binary64
  | .nan, _ => .nan
  | _, .nan => .nan
  | .number s a, .number t b =>
    if a.isFinite && b.isFinite then .number (s != t) (a.mul b)
    else if a.ordinal = 0 ∨ b.ordinal = 0 then .nan
    else .number (s != t) .infinity

/-- Half of the number. -/
def half : Binary64 → Binary64
  | .nan => .nan
  | .number s a => if a.isFinite then ofUnits s a.value 2 else .number s a

end Specimen.Binary64

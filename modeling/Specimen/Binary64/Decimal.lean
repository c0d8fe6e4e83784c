import Specimen.Binary64.Rounding

/-!
# Decimal text of doubles

A finite double is written with the fewest decimal digits that read back as the
same double, in plain positional notation: never an exponent, and no point when
the number is whole.

The digits are found by trying grids of multiples of `10 ^ e`, from coarse to fine.
On each grid only the two neighbours of the number can be nearest to it, and a
candidate counts when it reads back.  What is written therefore reads back by
construction, and no coarser grid holds a number that does.

## Main definitions

* `Decimal` — a decimal number `coefficient * 10 ^ exponent`.
* `Decimal.magnitude d` — the magnitude that `d` reads as.
* `onGrid m e` — the multiple of `10 ^ e` nearest to `m`, if it reads back as `m`.
* `shortest m` — the decimal with the fewest digits that reads back as `m`.
* `Binary64.text` — the text of a double.
* `Magnitude.ofScientific` — reading of a decimal with an exponent of any size.
-/

namespace Specimen.Binary64

attribute [local instance (high)] instPowNat

/-- The decimal number `coefficient * 10 ^ exponent`. -/
structure Decimal where
  coefficient : Nat
  exponent : Int
deriving DecidableEq

namespace Decimal

/-- The value is `numerator / denominator`. -/
def numerator (d : Decimal) : Nat := d.coefficient * 10 ^ d.exponent.toNat

/-- A power of ten; one when the exponent is not negative. -/
def denominator (d : Decimal) : Nat := 10 ^ (-d.exponent).toNat

/-- The magnitude that the decimal reads as. -/
def magnitude (d : Decimal) : Magnitude :=
  .nearest (d.numerator * unitsPerOne) d.denominator

/-- The digits with trailing zeros dropped. -/
def trimZeros (digits : List Char) : List Char :=
  (digits.reverse.dropWhile (· == '0')).reverse

/-- Positional notation: the whole part, then a point and the digits behind it
unless they are all zero. -/
def plain (d : Decimal) : List Char :=
  let places := (-d.exponent).toNat
  let whole := d.numerator / d.denominator
  let behind := trimZeros ((Nat.toDigits 10 (d.numerator % d.denominator)).leftpad places '0')
  Nat.toDigits 10 whole ++ if behind.isEmpty then [] else '.' :: behind

end Decimal

/-- The multiple of `10 ^ e` nearest to the magnitude, provided it reads back as
that magnitude.  Of two that are equally near, the greater is taken. -/
def onGrid (m : Magnitude) (e : Int) : Option Decimal :=
  let num := m.value * 10 ^ (-e).toNat
  let step := unitsPerOne * 10 ^ e.toNat
  let low : Decimal := ⟨num / step, e⟩
  let high : Decimal := ⟨num / step + 1, e⟩
  if low.magnitude = m then
    if high.magnitude = m ∧ step ≤ 2 * (num % step) then some high else some low
  else if high.magnitude = m then some high
  else none

/-- The coarsest grid among the given number of grids, from `10 ^ e` downwards, that
holds a decimal for the magnitude; failing that, its exact expansion. -/
def search (m : Magnitude) : Nat → Int → Decimal
  | 0, _ => ⟨m.value * 5 ^ (1074 : Nat), -1074⟩
  | grids + 1, e => (onGrid m e).getD (search m grids (e - 1))

/-- The decimal with the fewest digits that reads back as the magnitude.  No double
reaches `10 ^ 309`, and every double is a multiple of `10 ^ -1074`. -/
def shortest (m : Magnitude) : Decimal := search m 1383 308

/-- The text of a double. -/
def text : Binary64 → String
  | .nan => "NaN"
  | .number negative m =>
    let digits := if m.isFinite then (shortest m).plain else "inf".toList
    String.ofList (if negative then '-' :: digits else digits)

/-- The double that a signed decimal reads as. -/
def ofDecimal (negative : Bool) (d : Decimal) : Binary64 :=
  .number negative d.magnitude

/-- Reads a decimal whose exponent may have any size.  Decimals far beyond the
doubles are settled by their number of digits alone. -/
def Magnitude.ofScientific (d : Decimal) : Magnitude :=
  let size : Int := (Nat.toDigits 10 d.coefficient).length + d.exponent
  if d.coefficient = 0 ∨ size < -400 then .zero
  else if 400 < size then .infinity
  else d.magnitude

end Specimen.Binary64

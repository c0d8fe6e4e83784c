/-!
# Numerals

The decimal numeral of an integer has no leading zeros and no plus sign.

## Main definitions

* `numeral n` — the digits of `n`, behind a minus sign if `n` is negative.
-/

namespace Specimen.Text

/-- The decimal digits of an integer, behind a minus sign if it is negative. -/
def numeral (n : Int) : List Char :=
  if n < 0 then '-' :: Nat.toDigits 10 n.natAbs else Nat.toDigits 10 n.natAbs

/-- A natural number is written with its digits alone. -/
@[simp] theorem numeral_natCast (n : Nat) : numeral n = Nat.toDigits 10 n := by
  simp [numeral]

end Specimen.Text

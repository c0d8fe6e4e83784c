import Specimen.Binary64.Scaling
import Specimen.Json.Basic

/-!
# JSON numerals

A numeral without fraction and exponent denotes an integer when that fits into 64
bits.  Every other numeral denotes a double.  Of its digits, those that fit into a
significand of 64 bits count, from the left; the significand is then scaled by a power
of ten as in `Binary64.Decimal.scaled`.  A numeral whose double is infinite denotes
nothing.

## Main definitions

* `Json.readWhole`, `Json.readFraction`, `Json.readExponent` — the parts of a numeral.
* `Json.significand` — the leading digits that count, with their power of ten.
* `Json.readNumber` — a number and the text behind it.
-/

namespace Specimen.Json

open Binary64 (Decimal)
attribute [local instance (high)] instPowNat

/-! ### The parts of a numeral -/

/-- One or more digits. -/
def readDigits (cs : List Char) : Option (List Char × List Char) :=
  match cs.span Char.isDigit with
  | ([], _) => none
  | (digits, rest) => some (digits, rest)

/-- The whole part of a number: more than one digit must not start with zero. -/
def readWhole (cs : List Char) : Option (List Char × List Char) :=
  match readDigits cs with
  | some ('0' :: _ :: _, _) => none
  | result => result

/-- The digits behind a point; none without a point. -/
def readFraction : List Char → Option (List Char × List Char)
  | '.' :: rest => readDigits rest
  | rest => some ([], rest)

/-- The exponent, if one is written. -/
def readExponent : List Char → Option (Option Int × List Char)
  | c :: rest =>
    if c = 'e' ∨ c = 'E' then
      match rest with
      | '-' :: rest => (readDigits rest).map fun (digits, rest) =>
          (some (-(Nat.ofDigitChars 10 digits 0 : Int)), rest)
      | '+' :: rest => (readDigits rest).map fun (digits, rest) =>
          (some (Nat.ofDigitChars 10 digits 0 : Int), rest)
      | rest => (readDigits rest).map fun (digits, rest) =>
          (some (Nat.ofDigitChars 10 digits 0 : Int), rest)
    else some (none, c :: rest)
  | [] => some (none, [])

/-! ### Doubles -/

/-- Digits are appended to a number for as long as it stays below `2 ^ 64`.  The result
is that number and the digits that are left. -/
def appendDigits (n : Nat) : List Char → Nat × List Char
  | [] => (n, [])
  | digit :: digits =>
    let longer := 10 * n + (digit.toNat - '0'.toNat)
    if longer < 2 ^ (64 : Nat) then appendDigits longer digits else (n, digit :: digits)

/-- The digits of a numeral that count.  Digits of the whole part that do not fit raise
the power of ten, whereas those of the fraction are dropped. -/
def significand (whole fraction : List Char) : Decimal :=
  let (n, surplus) := appendDigits 0 whole
  let (n, dropped) := appendDigits n fraction
  ⟨n, surplus.length + dropped.length - fraction.length⟩

/-- The double that a significand with an exponent denotes, unless it is too large. -/
def realNumber (negative : Bool) (d : Decimal) : Option Number :=
  Number.ofBinary64? (.number negative d.scaled)

/-! ### Numbers -/

/-- The number that an integer numeral denotes.  Negative zero is a double, and so is
an integer that does not fit into 64 bits. -/
def integerNumber (negative : Bool) (whole : List Char) : Option Number :=
  let n := Nat.ofDigitChars 10 whole 0
  let signed : Int := if negative then -n else n
  if h : (-2 ^ (63 : Nat) ≤ signed ∧ signed < 2 ^ (64 : Nat)) ∧ ¬(negative = true ∧ n = 0) then
    some (.integer signed h.1)
  else realNumber negative (significand whole [])

/-- A number.  It is an integer when it has neither a fraction nor an exponent. -/
def readNumber (cs : List Char) : Option (Number × List Char) := do
  let (negative, cs) := match cs with
    | '-' :: rest => (true, rest)
    | rest => (false, rest)
  let (whole, cs) ← readWhole cs
  let (fraction, cs) ← readFraction cs
  let (exponent, cs) ← readExponent cs
  let result ←
    if fraction.isEmpty && exponent.isNone then integerNumber negative whole
    else
      let digits := significand whole fraction
      realNumber negative ⟨digits.coefficient, digits.exponent + exponent.getD 0⟩
  return (result, cs)

end Specimen.Json

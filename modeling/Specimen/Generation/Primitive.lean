import Specimen.Generation.Error

/-!
# Primitive values

Each primitive draws one value.  Numbers without bounds, and numbers with one bound,
come from a window of a given width:

* without bounds from `[0, width)`;
* below a bound from `[upper - width, upper)`;
* above a bound from `(lower, lower + width]`;
* between two bounds from `(lower, upper)`, whatever the window.

Integers near the ends of their range get what is left of the window.  Decimals that
rounding pushes onto their bound move to the double next to it.

## Main definitions

* `Primitive.boolean`, `Primitive.text`, `Primitive.date` — values without bounds.
* `Primitive.integerWithin`, `Primitive.integerBelow`, `Primitive.integerAbove`,
  `Primitive.integerBetween` — integers.
* `Primitive.decimalWithin`, `Primitive.decimalBelow`, `Primitive.decimalAbove`,
  `Primitive.decimalBetween` — decimals.
-/

namespace Specimen.Primitive

open Specimen.Random
attribute [local instance (high)] instPowNat

/-- The window that is used unless another one is asked for. -/
def defaultWindow : UInt32 := 1000

/-- The width of a window; a window of zero counts as one. -/
def width (window : UInt32) : Nat := max 1 window.toNat

variable {σ : Type} [Source σ]

/-- Either truth value, by the first bit of a word. -/
def boolean : Draw σ Bool := do return (← word64) < 2 ^ (63 : Nat)

/-! ### Texts -/

/-- The characters of generated texts. -/
def alphabet : List Char :=
  "abcdefghijklmnopqrstuvwxyzABCDEFGHIJKLMNOPQRSTUV1234567890".toList

/-- The length of a text unless another one is asked for. -/
def defaultLength : Nat := 10

/-- One character of the alphabet. -/
def letter : Draw σ Char := do
  return alphabet.getD (← uniform32 alphabet.length) 'a'

/-- A text of the given length. -/
def text (length : Option Nat) : Draw σ String := do
  return String.ofList (← times (length.getD defaultLength) letter)

/-! ### Dates -/

/-- The first day of one of the first eleven months of a year from 2001 to 2017. -/
def date : Draw σ Date := do
  let year ← uniform32 17
  let month ← uniform32 11
  return (Date.of? (2001 + year) (month + 1) 1).getD default

/-! ### Integers -/

/-- The integer, or the end of the range of signed words that lies nearest. -/
def saturate (n : Int) : Int64 :=
  if n < -2 ^ (63 : Nat) then Int64.minValue
  else if 2 ^ (63 : Nat) ≤ n then Int64.maxValue
  else .ofInt n

/-- One of `count` consecutive integers from `first` on. -/
def integerFrom (first : Int) (count : Nat) : Draw σ Int64 := do
  return .ofInt (first + (← uniform64 count))

/-- An integer from `[0, width)`. -/
def integerWithin (window : UInt32) : Draw σ Int64 := integerFrom 0 (width window)

/-- An integer from `[upper - width, upper)`. -/
def integerBelow (upper : Int64) (window : UInt32) : Generation σ Int64 :=
  let lower := saturate (upper.toInt - width window)
  if upper ≤ lower then throw (.emptyRange lower upper)
  else .draw (integerFrom lower.toInt (upper.toInt - lower.toInt).toNat)

/-- An integer from `(lower, lower + width]`. -/
def integerAbove (lower : Int64) (window : UInt32) : Generation σ Int64 :=
  let upper := saturate (lower.toInt + width window)
  if upper ≤ lower then throw (.emptyRange lower upper)
  else .draw (integerFrom (lower.toInt + 1) (upper.toInt - lower.toInt).toNat)

/-- An integer from `(lower, upper)`. -/
def integerBetween (lower upper : Int64) : Generation σ Int64 :=
  if upper.toInt - lower.toInt < 2 then throw (.emptyRange lower upper)
  else .draw (integerFrom (lower.toInt + 1) (upper.toInt - lower.toInt - 1).toNat)

/-! ### Decimals -/

/-- The width of a window as a double. -/
def decimalWidth (window : UInt32) : Binary64 := .ofInt (width window)

/-- A decimal from `[0, width)`: the upper 52 bits of a word as a fraction of one,
times the width. -/
def decimalWithin (window : UInt32) : Draw σ Binary64 := do
  let word ← word64
  return (Binary64.ofRatio false (word.toNat / 2 ^ (12 : Nat)) (2 ^ (52 : Nat))).mul
    (decimalWidth window)

/-- A decimal from `(0, width]`. -/
def positiveOffset (window : UInt32) : Draw σ Binary64 := do
  return (decimalWidth window).sub (← decimalWithin window)

/-- The double itself if it lies below the bound, otherwise the one next to the bound:
a large bound absorbs what is taken from it. -/
def stepBelow (upper x : Binary64) : Binary64 := if x.lt upper then x else upper.nextDown

/-- The double itself if it lies above the bound, otherwise the one next to the bound. -/
def stepAbove (lower x : Binary64) : Binary64 := if lower.lt x then x else lower.nextUp

/-- A decimal from `[upper - width, upper)`. -/
def decimalBelow (upper : Binary64) (window : UInt32) : Generation σ Binary64 := do
  let offset ← .draw (positiveOffset window)
  let x := stepBelow upper (upper.sub offset)
  if x.isFinite then return x else throw (.decimalOverflow upper)

/-- A decimal from `(lower, lower + width]`. -/
def decimalAbove (lower : Binary64) (window : UInt32) : Generation σ Binary64 := do
  let offset ← .draw (positiveOffset window)
  let x := stepAbove lower (lower.add offset)
  if x.isFinite then return x else throw (.decimalOverflow lower)

/-- A decimal from `[0, 1)`: the upper 53 bits of a word as a fraction of one. -/
def fraction : Draw σ Binary64 := do
  let word ← word64
  return .ofRatio false (word.toNat / 2 ^ (11 : Nat)) (2 ^ (53 : Nat))

/-- The point at the fraction `t` of the way between two doubles.  The difference of
the bounds, which might be too large, is not needed. -/
def interpolate (lower upper t : Binary64) : Binary64 :=
  (lower.mul ((Binary64.ofInt 1).sub t)).add (upper.mul t)

/-- The double lies strictly between the bounds. -/
def isBetween (lower upper x : Binary64) : Bool := lower.lt x && x.lt upper

/-- The first of a number of random points that lies strictly between the bounds. -/
def firstBetween (lower upper : Binary64) : Nat → Draw σ (Option Binary64)
  | 0 => pure none
  | tries + 1 => do
    let x := interpolate lower upper (← fraction)
    if isBetween lower upper x then return some x else firstBetween lower upper tries

/-- How many random points are tried before the midpoint. -/
def betweenTries : Nat := 64

/-- The point halfway between two doubles, without their sum. -/
def midpoint (lower upper : Binary64) : Binary64 := lower.half.add upper.half

/-- A decimal from `(lower, upper)`: one of several random points, or the midpoint. -/
def decimalBetween (lower upper : Binary64) : Generation σ Binary64 :=
  if lower.lt upper && lower.isFinite && upper.isFinite then do
    match ← .draw (firstBetween lower upper betweenTries) with
    | some x => return x
    | none =>
      if isBetween lower upper (midpoint lower upper) then return midpoint lower upper
      else throw (.emptyDecimalRange lower upper)
  else throw (.boundOrder lower upper)

end Specimen.Primitive

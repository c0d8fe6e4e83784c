import Specimen.Binary64.Decimal
import Specimen.Proofs.Binary64.Position
import Mathlib.Algebra.Order.Field.Rat
import Mathlib.Tactic.FieldSimp
import Mathlib.Tactic.NormNum
import Mathlib.Tactic.Positivity

/-!
# Exact values of doubles

A finite double is a rational number.  The order of doubles is the order of their
values, and a double on one side of the rounded value of a decimal is on the same side
of the decimal itself, however far the rounding moved it.

## Main definitions

* `Binary64.toRat x` — the value of a finite double.
* `Decimal.toRat negative d` — the value of a decimal with a sign.

## Main statements

* `Decimal.magnitude_congr`, `position_ofDecimal_congr` — a decimal is read by its value.
* `lt_iff_toRat_lt` — doubles are ordered by their values.
* `toRat_lt_of_lt_ofDecimal`, `lt_toRat_of_ofDecimal_lt` — a bound that is rounded
  bounds the exact number.
-/

namespace Specimen.Binary64

/-- The value of a finite double. -/
def toRat (x : Binary64) : ℚ := x.exactUnits / unitsPerOne

/-- The value of a decimal with a sign. -/
def Decimal.toRat (negative : Bool) (d : Decimal) : ℚ :=
  (if negative then -1 else 1) * (d.numerator / d.denominator)

theorem unitsPerOne_pos : 0 < unitsPerOne := by
  unfold unitsPerOne
  generalize 1074 = n
  exact Nat.two_pow_pos n

theorem Decimal.denominator_pos (d : Decimal) : 0 < d.denominator :=
  Nat.pow_pos (by omega)

theorem toRat_negate (x : Binary64) : x.negate.toRat = -x.toRat := by
  rw [toRat, exactUnits_negate, toRat]
  push_cast
  ring

theorem Decimal.toRat_not (negative : Bool) (d : Decimal) :
    d.toRat (!negative) = -d.toRat negative := by
  cases negative <;> simp [Decimal.toRat]

theorem negate_ofDecimal (negative : Bool) (d : Decimal) :
    (ofDecimal negative d).negate = ofDecimal (!negative) d := rfl

/-- A decimal is read by its value alone. -/
theorem Decimal.magnitude_congr {d d' : Decimal} (h : d.toRat false = d'.toRat false) :
    d.magnitude = d'.magnitude := by
  have hD : (d.denominator : ℚ) ≠ 0 := by exact_mod_cast d.denominator_pos.ne'
  have hD' : (d'.denominator : ℚ) ≠ 0 := by exact_mod_cast d'.denominator_pos.ne'
  have hcross : d.numerator * d'.denominator = d'.numerator * d.denominator := by
    rw [toRat, toRat, if_neg Bool.false_ne_true, one_mul, one_mul, div_eq_div_iff hD hD'] at h
    exact_mod_cast h
  have hscaled : d.numerator * unitsPerOne * d'.denominator
      = d'.numerator * unitsPerOne * d.denominator := by
    rw [Nat.mul_right_comm, hcross, Nat.mul_right_comm]
  rw [magnitude, magnitude, Magnitude.nearest, Magnitude.nearest,
    nearestOrdinal_congr d.denominator_pos d'.denominator_pos hscaled]

/-- The sign can be taken off on both sides. -/
theorem Decimal.toRat_congr {negative : Bool} {d d' : Decimal}
    (h : d.toRat negative = d'.toRat negative) : d.toRat false = d'.toRat false := by
  cases negative with
  | false => exact h
  | true =>
    rwa [show true = !false from rfl, toRat_not, toRat_not, neg_inj] at h

theorem Decimal.toRat_nonneg (d : Decimal) : 0 ≤ d.toRat false := by
  rw [toRat, if_neg Bool.false_ne_true, one_mul]
  positivity

/-- Without the sign it is the same decimal. -/
theorem Decimal.abs_toRat (negative : Bool) (d : Decimal) : |d.toRat negative| = d.toRat false := by
  cases negative with
  | false => exact abs_of_nonneg d.toRat_nonneg
  | true => rw [show true = !false from rfl, toRat_not, abs_neg, abs_of_nonneg d.toRat_nonneg]

theorem Decimal.magnitude_of_toRat_eq_zero {d : Decimal} (h : d.toRat false = 0) :
    d.magnitude = .zero := by
  have hnum : d.numerator = 0 := by
    have hD : (d.denominator : ℚ) ≠ 0 := by exact_mod_cast d.denominator_pos.ne'
    rw [toRat, if_neg Bool.false_ne_true, one_mul, div_eq_zero_iff, or_iff_left hD] at h
    exact_mod_cast h
  have hordinal : nearestOrdinal 0 d.denominator = 0 :=
    Nat.le_zero.mp (nearestOrdinal_le d.denominator_pos (Nat.zero_le _))
  rw [magnitude, hnum, Nat.zero_mul, Magnitude.nearest, hordinal, Magnitude.zero]

/-- Equal decimals are read at one position, also where zero has two signs. -/
theorem position_ofDecimal_congr {s s' : Bool} {d d' : Decimal}
    (h : d.toRat s = d'.toRat s') :
    (ofDecimal s d).position = (ofDecimal s' d').position := by
  have hnonneg := d.toRat_nonneg
  have hnonneg' := d'.toRat_nonneg
  -- with different signs, both decimals are zero
  have hzero : d.toRat false = -d'.toRat false →
      d.magnitude = .zero ∧ d'.magnitude = .zero := fun h =>
    ⟨Decimal.magnitude_of_toRat_eq_zero (by linarith),
      Decimal.magnitude_of_toRat_eq_zero (by linarith)⟩
  cases s with
  | false =>
    cases s' with
    | false => rw [ofDecimal, ofDecimal, Decimal.magnitude_congr h]
    | true =>
      obtain ⟨hd, hd'⟩ := hzero (h.trans (Decimal.toRat_not false d'))
      rw [ofDecimal, ofDecimal, hd, hd']
      rfl
  | true =>
    rw [show true = !false from rfl, Decimal.toRat_not] at h
    cases s' with
    | false =>
      obtain ⟨hd, hd'⟩ := hzero (by linarith)
      rw [ofDecimal, ofDecimal, hd, hd']
      rfl
    | true =>
      rw [show true = !false from rfl, Decimal.toRat_not, neg_inj] at h
      rw [ofDecimal, ofDecimal, Decimal.magnitude_congr h]

/-! ### Order -/

theorem lt_iff_toRat_lt {x y : Binary64} (hx : x.isFinite = true) (hy : y.isFinite = true) :
    x.lt y = true ↔ x.toRat < y.toRat := by
  obtain ⟨i, hi, -, -⟩ := isFinite_iff.mp hx
  obtain ⟨j, hj, -, -⟩ := isFinite_iff.mp hy
  have hU : (0 : ℚ) < unitsPerOne := by exact_mod_cast unitsPerOne_pos
  rw [toRat, toRat, div_lt_div_iff_of_pos_right hU, Int.cast_lt, exactUnits_eq hi, exactUnits_eq hj,
    unitsAt_lt_unitsAt, lt_iff_of_position hi hj]

/-! ### Bounds that were rounded -/

/-- The rounded decimal in terms of positions. -/
private theorem position_ofDecimal (negative : Bool) (d : Decimal) :
    ∃ k : ℕ, k = nearestOrdinal (d.numerator * unitsPerOne) d.denominator ∧
      (ofDecimal negative d).position =
        some ((if negative then (-1 : ℤ) else 1) * (min k infinityOrdinal : ℕ)) := by
  refine ⟨_, rfl, ?_⟩
  cases negative with
  | false =>
    simp [ofDecimal, Decimal.magnitude, Magnitude.nearest]
  | true =>
    simp [ofDecimal, Decimal.magnitude, Magnitude.nearest]

/-- In whole numbers of units, a double below a rounded decimal is below the decimal. -/
private theorem exactUnits_mul_lt {v : Binary64} {negative : Bool} {d : Decimal}
    (hv : v.isFinite = true) (h : v.lt (ofDecimal negative d) = true) :
    v.exactUnits * d.denominator
      < (if negative then (-1 : ℤ) else 1) * (d.numerator * unitsPerOne : ℕ) := by
  have hden := d.denominator_pos
  obtain ⟨i, hi, hlow, hhigh⟩ := isFinite_iff.mp hv
  obtain ⟨k, hk, hpos⟩ := position_ofDecimal negative d
  have hij := (lt_iff_of_position hi hpos).mp h
  rw [exactUnits_eq hi]
  cases negative with
  | false =>
    rw [if_neg Bool.false_ne_true, Int.one_mul] at hij ⊢
    rcases Int.lt_or_le i 0 with hneg | hnonneg
    · -- a negative double lies below every decimal without a sign
      have hunits : unitsAt i < 0 := by
        rw [← unitsAt_zero]
        exact unitsAt_lt_unitsAt.mpr hneg
      have hprod : unitsAt i * d.denominator < 0 :=
        Int.mul_neg_of_neg_of_pos hunits (by exact_mod_cast hden)
      omega
    · -- were the decimal not above the double, it would not round above it either
      obtain ⟨m, rfl⟩ := Int.eq_ofNat_of_zero_le hnonneg
      rw [unitsAt_natCast]
      have hlt : m < nearestOrdinal (d.numerator * unitsPerOne) d.denominator := by omega
      have hunits : d.denominator * units m < d.numerator * unitsPerOne := by
        by_contra hge
        exact absurd (nearestOrdinal_le hden (not_lt.mp hge)) (by omega)
      rw [mul_comm]
      exact_mod_cast hunits
  | true =>
    rw [if_pos rfl] at hij ⊢
    -- the double is negative too, and its magnitude is the greater one
    obtain ⟨m, rfl⟩ : ∃ m : ℕ, i = -(m : ℤ) := ⟨i.natAbs, by omega⟩
    rw [unitsAt_neg, unitsAt_natCast]
    have hlt : nearestOrdinal (d.numerator * unitsPerOne) d.denominator < m := by omega
    have hunits : d.numerator * unitsPerOne < d.denominator * units m := by
      by_contra hge
      exact absurd (le_nearestOrdinal hden (not_lt.mp hge)) (by omega)
    have hcast : ((d.numerator * unitsPerOne : ℕ) : ℤ) < d.denominator * units m := by
      exact_mod_cast hunits
    linarith

/-- **A double below the double nearest to a decimal is below the decimal itself.** -/
theorem toRat_lt_of_lt_ofDecimal {v : Binary64} {negative : Bool} {d : Decimal}
    (hv : v.isFinite = true) (h : v.lt (ofDecimal negative d) = true) :
    v.toRat < d.toRat negative := by
  have hunits := exactUnits_mul_lt hv h
  have hU : (0 : ℚ) < unitsPerOne := by exact_mod_cast unitsPerOne_pos
  have hD : (0 : ℚ) < d.denominator := by exact_mod_cast d.denominator_pos
  have hcast : (v.exactUnits : ℚ) * d.denominator
      < (if negative then -1 else 1) * (d.numerator * unitsPerOne) := by
    have := (Int.cast_lt (R := ℚ)).mpr hunits
    push_cast at this
    exact this
  rw [toRat, Decimal.toRat, ← mul_div_assoc, div_lt_div_iff₀ hU hD, mul_assoc]
  exact hcast

/-- **A double above the double nearest to a decimal is above the decimal itself.** -/
theorem lt_toRat_of_ofDecimal_lt {v : Binary64} {negative : Bool} {d : Decimal}
    (hv : v.isFinite = true) (h : (ofDecimal negative d).lt v = true) :
    d.toRat negative < v.toRat := by
  have hneg : v.negate.lt (ofDecimal (!negative) d) = true := by
    rw [← negate_ofDecimal, lt_negate]
    exact h
  have := toRat_lt_of_lt_ofDecimal (by rw [isFinite_negate]; exact hv) hneg
  rw [toRat_negate, Decimal.toRat_not] at this
  linarith

end Specimen.Binary64

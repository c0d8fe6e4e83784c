import Specimen.Generation.Primitive
import Specimen.Proofs.Binary64.Exact
import Specimen.Proofs.Random.Uniform

/-!
# Fractions of the window

Decimals without two bounds take a random part of the window.  A fraction of one times
the width is rounded, but never up to the width itself: the greatest fraction is
`1 - 2 ^ -52`, which leaves at least one step of the doubles just below the width.  So
the part that is left, from the value to the width, is never negative and never more
than the width.

## Main definitions

* `Primitive.widthOrdinal window` — the ordinal of the width, which is exact.

## Main statements

* `Primitive.decimalWithin_always` — the values lie in `[0, width)`.
* `Primitive.positiveOffset_always` — the offsets lie in `[0, width]`.
-/

namespace Specimen

open Binary64

namespace Primitive

open Specimen.Random (Source Draw)

/-! ### The width -/

theorem width_pos (window : UInt32) : 0 < width window :=
  lt_of_lt_of_le Nat.one_pos (Nat.le_max_left 1 _)

theorem width_lt (window : UInt32) : width window < 2 ^ 32 :=
  max_lt (by norm_num) window.toNat_lt

/-- The distance from one to the double below it, in units. -/
def stepBelowOne : ℕ := 2 ^ 1021

/-- A power of two split at any place of its exponent. -/
theorem two_pow_split {p q r : ℕ} (h : p = q + r) : 2 ^ p = 2 ^ q * 2 ^ r := by
  rw [h, Nat.pow_add]

theorem unitsPerOne_eq : unitsPerOne = 2 ^ 53 * stepBelowOne := by
  unfold unitsPerOne stepBelowOne
  -- the exponents are named, so that no power of two is evaluated
  obtain ⟨p, hp⟩ : ∃ p, p = 1074 := ⟨_, rfl⟩
  obtain ⟨q, hq⟩ : ∃ q, q = 1021 := ⟨_, rfl⟩
  rw [← hp, ← hq]
  exact two_pow_split (show p = 53 + q by omega)

/-- The ordinal of the width of a window. -/
def widthOrdinal (window : UInt32) : ℕ := nearestOrdinal (width window * unitsPerOne) 1

private theorem widthOrdinal_spec (window : UInt32) :
    units (widthOrdinal window) = width window * unitsPerOne ∧
      widthOrdinal window / binade = 1021 + 1 + (width window).log2 + 1 := by
  have hlt := width_lt window
  obtain ⟨k, hk, hdiv⟩ :=
    exists_units_eq (1021 + 1) (width_pos window) (show width window < 2 ^ 53 by omega)
  have hunits : units k = width window * unitsPerOne := by
    rw [hk, two_pow_split (show 1021 + 1 + 52 = 53 + 1021 by norm_num), ← stepBelowOne,
      ← unitsPerOne_eq]
  have hround : widthOrdinal window = k := by
    rw [widthOrdinal, ← hunits, nearestOrdinal_units]
  rw [hround]
  exact ⟨hunits, hdiv⟩

/-- The width is a double, not a rounded number. -/
theorem units_widthOrdinal (window : UInt32) :
    units (widthOrdinal window) = width window * unitsPerOne :=
  (widthOrdinal_spec window).1

theorem widthOrdinal_pos (window : UInt32) : 0 < widthOrdinal window := by
  rw [← units_lt_units, units_zero, units_widthOrdinal]
  exact Nat.mul_pos (width_pos window) unitsPerOne_pos

theorem widthOrdinal_lt (window : UInt32) : widthOrdinal window < infinityOrdinal := by
  have hlog : (width window).log2 < 32 :=
    (Nat.log2_lt (width_pos window).ne').mpr (width_lt window)
  have hlt : widthOrdinal window < 2047 * binade := by
    rw [← Nat.div_lt_iff_lt_mul binade_pos, (widthOrdinal_spec window).2]
    omega
  exact hlt

/-- The step just above the width is at most `2 ^ -52` of it. -/
theorem step_widthOrdinal_le (window : UInt32) :
    2 ^ scale (widthOrdinal window) ≤ width window * (2 * stepBelowOne) := by
  have hscale : scale (widthOrdinal window) = (width window).log2 + 1 + 1021 := by
    rw [scale, (widthOrdinal_spec window).2]
    omega
  rw [two_pow_split hscale, ← stepBelowOne, Nat.pow_succ, Nat.mul_assoc]
  exact Nat.mul_le_mul_right _ (Nat.log2_self_le (width_pos window).ne')

theorem decimalWidth_eq (window : UInt32) :
    decimalWidth window = .number false (.ofOrdinal (widthOrdinal window)) := by
  simp [decimalWidth, ofInt, ofRatio, ofUnits, Magnitude.nearest, widthOrdinal]

theorem position_decimalWidth (window : UInt32) :
    (decimalWidth window).position = some (widthOrdinal window : ℤ) := by
  rw [decimalWidth_eq, position_positive, Magnitude.ordinal_ofOrdinal,
    Nat.min_eq_left (widthOrdinal_lt window).le]

/-! ### A part of the width -/

/-- The ordinal of `1 - 2 ^ -52`, the greatest fraction that is drawn. -/
def greatestFraction : ℕ := 1021 * binade + (2 * binade - 2)

theorem units_greatestFraction : units greatestFraction = (2 ^ 53 - 2) * stepBelowOne := by
  have hpos : 2 ≤ binade := by unfold binade; omega
  have hdouble : 2 * binade = 2 ^ 53 := by rw [binade, ← Nat.pow_succ']
  rw [greatestFraction, units_binade_add 1021 (by omega) (by omega), hdouble, stepBelowOne]

private theorem fraction_le {n : ℕ} (hn : n < 2 ^ 52) :
    nearestOrdinal (n * unitsPerOne) (2 ^ 52) ≤ greatestFraction := by
  refine nearestOrdinal_le (Nat.two_pow_pos 52) ?_
  rw [units_greatestFraction, unitsPerOne_eq]
  have hle : n * 2 ^ 53 ≤ 2 ^ 52 * (2 ^ 53 - 2) := by omega
  calc n * (2 ^ 53 * stepBelowOne) = n * 2 ^ 53 * stepBelowOne := by ring
    _ ≤ 2 ^ 52 * (2 ^ 53 - 2) * stepBelowOne := Nat.mul_le_mul_right _ hle
    _ = 2 ^ 52 * ((2 ^ 53 - 2) * stepBelowOne) := by ring

/-- A fraction of the width, rounded, stays below the width. -/
private theorem product_lt (window : UInt32) {f : ℕ} (hf : f ≤ greatestFraction) :
    nearestOrdinal (units f * units (widthOrdinal window)) unitsPerOne < widthOrdinal window := by
  have hpos := widthOrdinal_pos window
  have hpred := units_pred_add_le hpos
  have hstep := step_widthOrdinal_le window
  have hunits : units f ≤ (2 ^ 53 - 2) * stepBelowOne := by
    rw [← units_greatestFraction]
    exact units_le_units.mpr hf
  -- what the fraction leaves of the width is more than the step just below it
  have hle : units f * width window ≤ units (widthOrdinal window - 1) := by
    have hmul : units f * width window ≤ (2 ^ 53 - 2) * stepBelowOne * width window :=
      Nat.mul_le_mul_right _ hunits
    have hsplit : (2 ^ 53 - 2) * stepBelowOne * width window + width window * (2 * stepBelowOne)
        = width window * (2 ^ 53 * stepBelowOne) := by ring
    rw [units_widthOrdinal, unitsPerOne_eq] at hpred
    omega
  have hround : nearestOrdinal (units f * units (widthOrdinal window)) unitsPerOne
      ≤ widthOrdinal window - 1 := by
    refine nearestOrdinal_le unitsPerOne_pos ?_
    calc units f * units (widthOrdinal window)
        = unitsPerOne * (units f * width window) := by rw [units_widthOrdinal]; ring
      _ ≤ unitsPerOne * units (widthOrdinal window - 1) := Nat.mul_le_mul_left _ hle
  omega

variable {σ : Type} [Source σ]

/-- A value from the window stands between zero and the width. -/
theorem decimalWithin_always (window : UInt32) :
    (decimalWithin window : Draw σ Binary64).Always
      fun x => ∃ i : ℕ, x.position = some (i : ℤ) ∧ i < widthOrdinal window := by
  intro s
  have hword : (Random.word64 s).1.toNat / 2 ^ 12 < 2 ^ 52 := by
    have := UInt64.toNat_lt (Random.word64 s).1
    omega
  change ∃ i : ℕ, (mul (ofRatio false ((Random.word64 s).1.toNat / 2 ^ 12) (2 ^ 52))
    (decimalWidth window)).position = some (i : ℤ) ∧ i < widthOrdinal window
  generalize (Random.word64 s).1.toNat / 2 ^ 12 = n at hword
  have hwidth := widthOrdinal_lt window
  have hfraction := fraction_le hword
  have hfinite : greatestFraction < infinityOrdinal := by
    simp [greatestFraction, binade, infinityOrdinal]
  have hproduct := product_lt window hfraction
  rw [decimalWidth_eq, ofRatio, ofUnits, Magnitude.nearest]
  generalize nearestOrdinal (n * unitsPerOne) (2 ^ 52) = f at hfraction hproduct ⊢
  refine ⟨_, ?_, hproduct⟩
  have hf : (Magnitude.ofOrdinal f).isFinite = true := by
    rw [Magnitude.isFinite, Magnitude.ordinal_ofOrdinal, Nat.min_eq_left (by omega)]
    exact decide_eq_true (by omega)
  have hw : (Magnitude.ofOrdinal (widthOrdinal window)).isFinite = true := by
    rw [Magnitude.isFinite, Magnitude.ordinal_ofOrdinal, Nat.min_eq_left hwidth.le]
    exact decide_eq_true hwidth
  rw [mul, hf, hw, Bool.and_self, if_pos rfl, bne_self_eq_false, position_positive, Magnitude.mul,
    Magnitude.nearest, Magnitude.value, Magnitude.value]
  simp only [Magnitude.ordinal_ofOrdinal]
  rw [Nat.min_eq_left (show f ≤ infinityOrdinal by omega), Nat.min_eq_left hwidth.le,
    Nat.min_eq_left (hproduct.trans hwidth).le]

/-- What is left of the width lies between zero and the whole width. -/
theorem positiveOffset_always (window : UInt32) :
    (positiveOffset window : Draw σ Binary64).Always fun x =>
      x.isFinite = true ∧ 0 ≤ x.exactUnits ∧ x.exactUnits ≤ units (widthOrdinal window) := by
  refine (decimalWithin_always window).bind fun x hx => Draw.Always.pure ?_
  obtain ⟨i, hi, hlt⟩ := hx
  have hwidth := widthOrdinal_lt window
  have hpos := position_decimalWidth window
  have hneg : x.negate.position = some (-(i : ℤ)) := by rw [position_negate, hi]; rfl
  have hsum : ((decimalWidth window).sub x).position
      = some (clampAt (roundAt (unitsAt (widthOrdinal window) + unitsAt (-(i : ℤ))))) := by
    rw [sub, position_add (isFinite_iff.mpr ⟨_, hpos, by omega, by omega⟩)
      (isFinite_iff.mpr ⟨_, hneg, by omega, by omega⟩), exactUnits_eq hpos, exactUnits_eq hneg]
  have hunits := units_le_units.mpr hlt.le
  have hlow : 0 ≤ roundAt (unitsAt (widthOrdinal window) + unitsAt (-(i : ℤ))) := by
    refine le_roundAt ?_
    rw [unitsAt_neg, unitsAt_natCast, unitsAt_natCast, unitsAt_zero]
    omega
  have hhigh : roundAt (unitsAt (widthOrdinal window) + unitsAt (-(i : ℤ)))
      ≤ widthOrdinal window := by
    refine roundAt_le ?_
    rw [unitsAt_neg, unitsAt_natCast, unitsAt_natCast]
    omega
  generalize roundAt (unitsAt (widthOrdinal window) + unitsAt (-(i : ℤ))) = r at hsum hlow hhigh
  have hclamp : clampAt r = r := by
    unfold clampAt
    omega
  rw [hclamp] at hsum
  refine ⟨isFinite_iff.mpr ⟨r, hsum, by omega, by omega⟩, ?_, ?_⟩
  · rw [exactUnits_eq hsum, ← unitsAt_zero]
    exact unitsAt_le_unitsAt.mpr hlow
  · rw [exactUnits_eq hsum, ← unitsAt_natCast]
    exact unitsAt_le_unitsAt.mpr hhigh

end Primitive

end Specimen

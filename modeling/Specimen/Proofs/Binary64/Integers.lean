import Specimen.Proofs.Binary64.Nearest

/-!
# Doubles of integers

An integer is read as a double nearest to it, so the order of integers is kept, but for
integers that meet in one double.  Up to `2 ^ 53` no two do.  Beyond that the doubles are
multiples of a power of two, which for signed words is at most `2 ^ 10`: integers that are
more than this apart stay apart.

## Main statements

* `exists_toRat_eq` — the integers of 53 bits, shifted by a few bits, are doubles.
* `ofInt_nearest` — no finite double is nearer to an integer than its own.
* `toRat_ofInt_mono` — the doubles of integers are in the order of the integers.
* `toRat_ofInt` — the double of an integer of 53 bits is the integer.
* `abs_toRat_ofInt_sub_le` — the double of a signed word is at most 512 away from it.
-/

namespace Specimen.Binary64

/-! ### Integers that are doubles -/

/-- A whole number of 53 bits is a double, and stays one when it is shifted. -/
private theorem exists_toRat_eq_natCast {w : ℕ} (hpos : 0 < w) (hlt : w < 2 ^ 53) {q : ℕ}
    (hq : q ≤ 900) : ∃ y : Binary64, y.isFinite = true ∧ y.toRat = w * 2 ^ q := by
  obtain ⟨k, hk, hexponent⟩ := exists_units_eq (q + 1022) hpos hlt
  have hlog : w.log2 < 53 := (Nat.log2_lt (by omega)).mpr hlt
  have hfinite : k < infinityOrdinal := by
    rw [show infinityOrdinal = 2047 * binade by decide, ← Nat.div_lt_iff_lt_mul binade_pos]
    omega
  have hposition : (number false (.ofOrdinal k)).position = some (k : ℤ) := by
    rw [position_positive, Magnitude.ordinal_ofOrdinal, Nat.min_eq_left hfinite.le]
  refine ⟨.number false (.ofOrdinal k), isFinite_iff.mpr ⟨k, hposition, by omega, by omega⟩, ?_⟩
  have hU : (unitsPerOne : ℚ) ≠ 0 := by exact_mod_cast unitsPerOne_pos.ne'
  -- the exponent of one is named, so that no power of two is evaluated
  obtain ⟨p, hp⟩ : ∃ p, p = 1074 := ⟨_, rfl⟩
  have hunits : units k = w * 2 ^ q * unitsPerOne := by
    rw [hk, unitsPerOne, ← hp, Nat.mul_assoc, ← Nat.pow_add,
      show q + 1022 + 52 = q + p by omega]
  rw [toRat, exactUnits_eq hposition, unitsAt_natCast, hunits]
  push_cast
  rw [mul_div_cancel_right₀ _ hU]

/-- **An integer of 53 bits is a double, and stays one when it is shifted**, also the first
integer of 54 bits. -/
theorem exists_toRat_eq {k : ℤ} (hk : k.natAbs ≤ 2 ^ 53) {q : ℕ} (hq : q ≤ 800) :
    ∃ y : Binary64, y.isFinite = true ∧ y.toRat = k * 2 ^ q := by
  have habs : ∃ y : Binary64, y.isFinite = true ∧ y.toRat = (k.natAbs : ℚ) * 2 ^ q := by
    rcases Nat.eq_zero_or_pos k.natAbs with h | hpos
    · refine ⟨zero, rfl, ?_⟩
      have hposition : zero.position = some 0 := rfl
      rw [h, toRat, exactUnits_eq hposition, unitsAt_zero, Int.cast_zero, zero_div, Nat.cast_zero,
        zero_mul]
    · rcases Nat.lt_or_eq_of_le hk with hlt | heq
      · exact exists_toRat_eq_natCast hpos hlt (by omega)
      · obtain ⟨y, hy, hvalue⟩ :=
          exists_toRat_eq_natCast (w := 1) (q := q + 53) Nat.one_pos (by norm_num) (by omega)
        refine ⟨y, hy, ?_⟩
        rw [hvalue, heq]
        push_cast
        ring
  obtain ⟨y, hy, hvalue⟩ := habs
  rcases Int.natAbs_eq k with h | h
  · refine ⟨y, hy, ?_⟩
    rw [hvalue]
    conv_rhs => rw [h, Int.cast_natCast]
  · refine ⟨y.negate, by rwa [isFinite_negate], ?_⟩
    rw [toRat_negate, hvalue]
    conv_rhs => rw [h, Int.cast_neg, Int.cast_natCast, neg_mul]

/-! ### Rounding -/

/-- An integer is read like the decimal with its digits. -/
theorem ofInt_eq_ofDecimal (n : ℤ) : ofInt n = ofDecimal (decide (n < 0)) ⟨n.natAbs, 0⟩ := by
  have hnumerator : (⟨n.natAbs, 0⟩ : Decimal).numerator = n.natAbs := Nat.mul_one _
  have hdenominator : (⟨n.natAbs, 0⟩ : Decimal).denominator = 1 := rfl
  rw [ofDecimal, Decimal.magnitude, hnumerator, hdenominator]
  rfl

/-- **No finite double is nearer to an integer than its own.** -/
theorem ofInt_nearest {n : ℤ} {y : Binary64} (h : (ofInt n).isFinite = true)
    (hy : y.isFinite = true) : |(ofInt n).toRat - n| ≤ |y.toRat - n| := by
  have hvalue : Decimal.toRat (decide (n < 0)) ⟨n.natAbs, 0⟩ = n := by
    have hcast : (n.natAbs : ℚ) = |(n : ℚ)| := by rw [Nat.cast_natAbs, Int.cast_abs]
    simp only [Decimal.toRat, Decimal.numerator, Decimal.denominator, Int.toNat_zero, neg_zero,
      pow_zero, mul_one, Nat.cast_one, div_one, hcast, decide_eq_true_eq]
    split
    · next h =>
      rw [abs_of_neg (by exact_mod_cast h)]
      ring
    · next h =>
      rw [abs_of_nonneg (by exact_mod_cast not_lt.mp h)]
      ring
  rw [ofInt_eq_ofDecimal] at h ⊢
  have := ofDecimal_nearest h hy
  rwa [hvalue] at this

section

variable {x y a : ℚ}

/-- What is nearer to the greater of two numbers lies beyond their middle. -/
private theorem add_le_two_mul (hlt : y < x) (h : |x - a| ≤ |y - a|) : x + y ≤ 2 * a := by
  have hsquares := sq_le_sq.mpr h
  nlinarith only [hsquares, hlt]

private theorem two_mul_le_add (hlt : y < x) (h : |y - a| ≤ |x - a|) : 2 * a ≤ x + y := by
  have hsquares := sq_le_sq.mpr h
  nlinarith only [hsquares, hlt]

end

/-- **The doubles of integers are in the order of the integers**, but some are equal. -/
theorem toRat_ofInt_mono {m n : ℤ} (hm : (ofInt m).isFinite = true)
    (hn : (ofInt n).isFinite = true) (h : m ≤ n) : (ofInt m).toRat ≤ (ofInt n).toRat := by
  rcases h.eq_or_lt with rfl | hlt
  · exact le_rfl
  · have hcast : (m : ℚ) < n := by exact_mod_cast hlt
    by_contra hcross
    rw [not_le] at hcross
    -- the double of each integer is on its side of the middle, and they are the wrong sides
    have hleft := add_le_two_mul hcross (ofInt_nearest hm hn)
    have hright := two_mul_le_add hcross (ofInt_nearest hn hm)
    linarith

theorem toRat_ofInt {n : ℤ} (h : n.natAbs ≤ 2 ^ 53) : (ofInt n).toRat = n := by
  obtain ⟨y, hy, hvalue⟩ := exists_toRat_eq h (Nat.zero_le 800)
  rw [pow_zero, mul_one] at hvalue
  have hnearest := ofInt_nearest (isFinite_ofInt (e := 53) (by norm_num) h) hy
  rw [hvalue, sub_self, abs_zero, abs_nonpos_iff, sub_eq_zero] at hnearest
  exact hnearest

/-- The double of a signed word is at most half a step away from it. -/
theorem abs_toRat_ofInt_sub_le {n : ℤ} (h : n.natAbs ≤ 2 ^ 63) :
    |(ofInt n).toRat - n| ≤ 512 := by
  -- the nearest multiple of the step is a double
  obtain ⟨k, hk⟩ : ∃ k, k = (n + 512) / 1024 := ⟨_, rfl⟩
  obtain ⟨y, hy, hvalue⟩ :=
    exists_toRat_eq (show k.natAbs ≤ 2 ^ 53 by omega) (show 10 ≤ 800 by norm_num)
  have hstep : |k * 2 ^ 10 - n| ≤ 512 := by
    rw [abs_le]
    omega
  calc |(ofInt n).toRat - n| ≤ |y.toRat - n| :=
        ofInt_nearest (isFinite_ofInt (e := 63) (by norm_num) h) hy
    _ = ((|k * 2 ^ 10 - n| : ℤ) : ℚ) := by rw [hvalue]; push_cast; rfl
    _ ≤ 512 := by exact_mod_cast hstep

end Specimen.Binary64

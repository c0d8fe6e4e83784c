import Mathlib.Algebra.Order.Group.Abs
import Mathlib.Algebra.Order.AbsoluteValue.Basic
import Specimen.Proofs.Binary64.Exact

/-!
# Nearest doubles

Rounding chooses between the two magnitudes around a quotient, so that no magnitude at all is
nearer to it than the one that is chosen; and of two that are equally near it is the even one.
These are not both even, for between two even ones there is another that is nearer.  So the
magnitude that a decimal is read as can be told without reading it.  With the signs put back, a
decimal is read as a double that no other finite double is nearer than.

## Main definitions

* `IsNearest i q` — the magnitude with the ordinal is the one nearest to the number.

## Main statements

* `nearestOrdinal_lt_or_even` — the rounded magnitude is nearer to a quotient than any other, or
  as near and even.
* `IsNearest.unique` — no two magnitudes are the nearest one.
* `Decimal.isNearest_iff` — a decimal is read as the magnitude nearest to it.
* `ofDecimal_nearest` — no finite double is nearer to a decimal than the one it is read as.
* `isFinite_ofInt` — an integer of few enough bits is read as a finite double.
-/

namespace Specimen.Binary64

/-! ### Distances -/

section

variable {a b q : ℚ}

/-- Beyond the middle of two numbers the greater one is nearer. -/
private theorem abs_sub_lt_of_add_lt (hab : a < b) (h : a + b < 2 * q) : |b - q| < |a - q| := by
  rw [abs_of_neg (show a - q < 0 by linarith), abs_lt]
  constructor <;> linarith

/-- Before the middle the smaller one is. -/
private theorem abs_sub_lt_of_lt_add (hab : a < b) (h : 2 * q < a + b) : |a - q| < |b - q| := by
  rw [abs_of_pos (show 0 < b - q by linarith), abs_lt]
  constructor <;> linarith

/-- In the middle both are equally near. -/
private theorem abs_sub_eq_of_add_eq (h : a + b = 2 * q) : |a - q| = |b - q| := by
  rw [show a - q = -(b - q) by linarith, abs_neg]

/-- Two numbers that are equally near lie around the middle. -/
private theorem add_eq_of_abs_sub_eq (hab : a < b) (h : |a - q| = |b - q|) : a + b = 2 * q := by
  rcases lt_trichotomy (a + b) (2 * q) with hlt | heq | hgt
  · exact absurd h (abs_sub_lt_of_add_lt hab hlt).ne'
  · exact heq
  · exact absurd h (abs_sub_lt_of_lt_add hab hgt).ne

end

/-! ### The nearest magnitude -/

section

variable {num den k : ℕ}

/-- A magnitude before the rounded one lies before the middle to it, or the quotient is in the
middle and the rounded one is even. -/
private theorem middle_le_of_lt_nearestOrdinal (hden : 0 < den) (h : k < nearestOrdinal num den) :
    den * (units k + units (nearestOrdinal num den)) < 2 * num ∨
      den * (units k + units (nearestOrdinal num den)) = 2 * num ∧
        nearestOrdinal num den % 2 = 0 := by
  obtain ⟨j, hj⟩ : ∃ j, nearestOrdinal num den = j + 1 := ⟨nearestOrdinal num den - 1, by omega⟩
  have hkj : den * units k ≤ den * units j :=
    Nat.mul_le_mul_left _ (units_le_units.mpr (by omega))
  rw [hj, Nat.mul_add]
  rcases Nat.lt_trichotomy (2 * num) (den * (units j + units (j + 1))) with hlt | heq | hgt
  · exact absurd (nearestOrdinal_le_of_lt_middle hden hlt) (by omega)
  · have heven := nearestOrdinal_of_eq_middle hden heq
    rw [Nat.mul_add] at heq
    omega
  · rw [Nat.mul_add] at hgt
    omega

/-- Likewise for a magnitude behind the rounded one. -/
private theorem le_middle_of_nearestOrdinal_lt (hden : 0 < den) (h : nearestOrdinal num den < k) :
    2 * num < den * (units (nearestOrdinal num den) + units k) ∨
      2 * num = den * (units (nearestOrdinal num den) + units k) ∧
        nearestOrdinal num den % 2 = 0 := by
  obtain ⟨j, hj⟩ : ∃ j, nearestOrdinal num den = j := ⟨_, rfl⟩
  have hjk : den * units (j + 1) ≤ den * units k :=
    Nat.mul_le_mul_left _ (units_le_units.mpr (by omega))
  rw [hj, Nat.mul_add]
  rcases Nat.lt_trichotomy (2 * num) (den * (units j + units (j + 1))) with hlt | heq | hgt
  · rw [Nat.mul_add] at hlt
    omega
  · have heven := nearestOrdinal_of_eq_middle hden heq
    rw [Nat.mul_add] at heq
    omega
  · exact absurd (lt_nearestOrdinal_of_middle_lt hden hgt) (by omega)

/-- **The rounded magnitude is nearer to a quotient than any other one, or as near and even.** -/
theorem nearestOrdinal_lt_or_even (hden : 0 < den) (hk : k ≠ nearestOrdinal num den) :
    |(units (nearestOrdinal num den) : ℚ) - num / den| < |(units k : ℚ) - num / den| ∨
      |(units (nearestOrdinal num den) : ℚ) - num / den| = |(units k : ℚ) - num / den| ∧
        nearestOrdinal num den % 2 = 0 := by
  have hD : (0 : ℚ) < den := by exact_mod_cast hden
  rcases Nat.lt_or_gt_of_ne hk with hlt | hgt
  · have hunits : (units k : ℚ) < units (nearestOrdinal num den) := by
      exact_mod_cast units_lt_units.mpr hlt
    rcases middle_le_of_lt_nearestOrdinal hden hlt with hmiddle | ⟨hmiddle, heven⟩
    · refine Or.inl (abs_sub_lt_of_add_lt hunits ?_)
      rw [← mul_div_assoc, lt_div_iff₀' hD]
      exact_mod_cast hmiddle
    · refine Or.inr ⟨(abs_sub_eq_of_add_eq ?_).symm, heven⟩
      rw [← mul_div_assoc, eq_div_iff hD.ne', mul_comm]
      exact_mod_cast hmiddle
  · have hunits : (units (nearestOrdinal num den) : ℚ) < units k := by
      exact_mod_cast units_lt_units.mpr hgt
    rcases le_middle_of_nearestOrdinal_lt hden hgt with hmiddle | ⟨hmiddle, heven⟩
    · refine Or.inl (abs_sub_lt_of_lt_add hunits ?_)
      rw [← mul_div_assoc, div_lt_iff₀' hD]
      exact_mod_cast hmiddle
    · refine Or.inr ⟨abs_sub_eq_of_add_eq ?_, heven⟩
      rw [← mul_div_assoc, eq_div_iff hD.ne', mul_comm]
      exact_mod_cast hmiddle.symm

end

/-- The ordinal is that of the magnitude nearest to the number: every other magnitude is further
away, or as far and this one is even.  All ordinals count, also those behind the finite magnitudes:
a number that is nearer to one of these is too large for a finite double. -/
def IsNearest (i : ℕ) (q : ℚ) : Prop :=
  ∀ k ≠ i, |(units i : ℚ) / unitsPerOne - q| < |(units k : ℚ) / unitsPerOne - q| ∨
    |(units i : ℚ) / unitsPerOne - q| = |(units k : ℚ) / unitsPerOne - q| ∧ i % 2 = 0

theorem IsNearest.le {i : ℕ} {q : ℚ} (h : IsNearest i q) (k : ℕ) :
    |(units i : ℚ) / unitsPerOne - q| ≤ |(units k : ℚ) / unitsPerOne - q| := by
  by_cases hk : k = i
  · rw [hk]
  · rcases h k hk with hlt | ⟨heq, -⟩
    · exact hlt.le
    · exact heq.le

/-- The values of magnitudes are in the order of the magnitudes. -/
private theorem units_div_lt {i j : ℕ} (h : i < j) :
    (units i : ℚ) / unitsPerOne < units j / unitsPerOne := by
  have hU : (0 : ℚ) < unitsPerOne := by exact_mod_cast unitsPerOne_pos
  exact div_lt_div_of_pos_right (by exact_mod_cast units_lt_units.mpr h) hU

/-- Of two magnitudes only the one before can be the nearest one. -/
private theorem IsNearest.le_of_isNearest {i j : ℕ} {q : ℚ} (hi : IsNearest i q)
    (hj : IsNearest j q) : j ≤ i := by
  by_contra hle
  rw [not_le] at hle
  have hdistance := le_antisymm (hi.le j) (hj.le i)
  have hmiddle := add_eq_of_abs_sub_eq (units_div_lt hle) hdistance
  have hieven : i % 2 = 0 := ((hi j hle.ne').resolve_left hdistance.not_lt).2
  have hjeven : j % 2 = 0 := ((hj i hle.ne).resolve_left hdistance.symm.not_lt).2
  -- between two even ones there is a magnitude that is nearer to the middle than either
  have hbelow := units_div_lt (show i < i + 1 by omega)
  have hnearer := abs_sub_lt_of_lt_add (q := q) (units_div_lt (show i + 1 < j by omega))
    (by linarith)
  exact absurd (hj.le (i + 1)) (not_le.mpr hnearer)

/-- **Only one magnitude is the nearest one.** -/
theorem IsNearest.unique {i j : ℕ} {q : ℚ} (hi : IsNearest i q) (hj : IsNearest j q) : i = j :=
  le_antisymm (hj.le_of_isNearest hi) (hi.le_of_isNearest hj)

/-- A distance may be measured in units. -/
private theorem abs_div_sub {U : ℚ} (hU : 0 < U) (a n D : ℚ) :
    |a / U - n / D| = |a - n * U / D| / U := by
  have hsplit : a / U - n / D = (a - n * U / D) / U := by
    rw [sub_div, mul_div_right_comm, mul_div_cancel_right₀ _ hU.ne']
  rw [hsplit, abs_div, abs_of_pos hU]

namespace Decimal

variable {d : Decimal}

theorem isNearest_nearestOrdinal (d : Decimal) :
    IsNearest (nearestOrdinal (d.numerator * unitsPerOne) d.denominator) (d.toRat false) := by
  have hU : (0 : ℚ) < unitsPerOne := by exact_mod_cast unitsPerOne_pos
  intro k hk
  have hnearest := nearestOrdinal_lt_or_even d.denominator_pos hk
  rw [Nat.cast_mul] at hnearest
  rw [toRat, if_neg Bool.false_ne_true, one_mul, abs_div_sub hU, abs_div_sub hU,
    div_lt_div_iff_of_pos_right hU, div_left_inj' hU.ne']
  exact hnearest

/-- A finite magnitude is not cut off. -/
theorem ordinal_magnitude (h : d.magnitude.isFinite = true) :
    d.magnitude.ordinal = nearestOrdinal (d.numerator * unitsPerOne) d.denominator := by
  rw [Magnitude.isFinite, decide_eq_true_eq, magnitude, Magnitude.nearest,
    Magnitude.ordinal_ofOrdinal] at h
  rw [magnitude, Magnitude.nearest, Magnitude.ordinal_ofOrdinal, Nat.min_eq_left (by omega)]

/-- **A decimal is read as the magnitude nearest to it**, if that is finite. -/
theorem isNearest_iff {m : Magnitude} (h : m.isFinite = true) :
    IsNearest m.ordinal (d.toRat false) ↔ d.magnitude = m := by
  constructor
  · intro hnearest
    rw [magnitude, Magnitude.nearest, ← hnearest.unique d.isNearest_nearestOrdinal,
      Magnitude.ofOrdinal_ordinal]
  · rintro rfl
    rw [ordinal_magnitude h]
    exact d.isNearest_nearestOrdinal

end Decimal

/-! ### The nearest double -/

/-- The case without a sign: a negative double is no nearer to the decimal than zero is. -/
private theorem ofDecimal_nearest_positive {d : Decimal} {y : Binary64}
    (h : (ofDecimal false d).isFinite = true) (hy : y.isFinite = true) :
    |(ofDecimal false d).toRat - d.toRat false| ≤ |y.toRat - d.toRat false| := by
  have hU : (0 : ℚ) < unitsPerOne := by exact_mod_cast unitsPerOne_pos
  have hnearest : IsNearest d.magnitude.ordinal (d.toRat false) :=
    (Decimal.isNearest_iff h).mpr rfl
  obtain ⟨i, hi, -, -⟩ := isFinite_iff.mp hy
  have hx : (ofDecimal false d).toRat = (d.magnitude.value : ℚ) / unitsPerOne := by
    rw [toRat, ofDecimal, exactUnits, Magnitude.signed, if_neg Bool.false_ne_true, Int.cast_natCast]
  rw [hx]
  rcases Int.le_total 0 i with hnonneg | hneg
  · obtain ⟨j, rfl⟩ := Int.eq_ofNat_of_zero_le hnonneg
    have := hnearest.le j
    rwa [toRat, exactUnits_eq hi, unitsAt_natCast, Int.cast_natCast]
  · have hunits : (y.exactUnits : ℚ) ≤ 0 := by
      rw [exactUnits_eq hi, ← Int.cast_zero, ← unitsAt_zero]
      exact_mod_cast unitsAt_le_unitsAt.mpr hneg
    have hy : y.toRat ≤ 0 := div_nonpos_of_nonpos_of_nonneg hunits hU.le
    have hd := d.toRat_nonneg
    calc |(d.magnitude.value : ℚ) / unitsPerOne - d.toRat false|
        ≤ |(units 0 : ℚ) / unitsPerOne - d.toRat false| := hnearest.le 0
      _ = d.toRat false := by
        rw [units_zero, Nat.cast_zero, zero_div, zero_sub, abs_neg, abs_of_nonneg hd]
      _ ≤ |y.toRat - d.toRat false| := by
        rw [abs_of_nonpos (by linarith)]
        linarith

/-- **No finite double is nearer to a decimal than the one that the decimal is read as.** -/
theorem ofDecimal_nearest {negative : Bool} {d : Decimal} {y : Binary64}
    (h : (ofDecimal negative d).isFinite = true) (hy : y.isFinite = true) :
    |(ofDecimal negative d).toRat - d.toRat negative| ≤ |y.toRat - d.toRat negative| := by
  cases negative with
  | false => exact ofDecimal_nearest_positive h hy
  | true =>
    -- with all signs turned around the distances are the same
    have hneg : ofDecimal true d = (ofDecimal false d).negate := (negate_ofDecimal false d).symm
    rw [hneg, isFinite_negate] at h
    have hmirror := ofDecimal_nearest_positive (y := y.negate) h (by rwa [isFinite_negate])
    rw [toRat_negate] at hmirror
    rw [hneg, toRat_negate, show true = !false from rfl, Decimal.toRat_not, abs_sub_comm,
      abs_sub_comm y.toRat]
    convert hmirror using 1
    · congr 1
      ring
    · congr 1
      ring

/-- An integer of few enough bits is read as a finite double. -/
theorem isFinite_ofInt {n : ℤ} {e : ℕ} (he : e < 1024) (h : n.natAbs ≤ 2 ^ e) :
    (ofInt n).isFinite = true := by
  -- the exponent of one is named, so that no power of two is evaluated
  obtain ⟨p, hp⟩ : ∃ p, p = 1074 := ⟨_, rfl⟩
  have hvalue : units ((e + p - 52) * binade + binade) = 2 ^ e * unitsPerOne := by
    rw [units_binade_add _ le_rfl (by have := binade_pos; omega), unitsPerOne, binade, ← hp,
      ← Nat.pow_add, ← Nat.pow_add, show 52 + (e + p - 52) = e + p by omega]
  have hle : nearestOrdinal (n.natAbs * unitsPerOne) 1 ≤ (e + p - 52) * binade + binade := by
    refine nearestOrdinal_le Nat.one_pos ?_
    rw [Nat.one_mul, hvalue]
    exact Nat.mul_le_mul_right _ h
  have hlt : (e + p - 52) * binade + binade < infinityOrdinal := by
    rw [← Nat.succ_mul, show infinityOrdinal = 2047 * binade by decide]
    exact Nat.mul_lt_mul_of_pos_right (by omega) binade_pos
  rw [ofInt, ofRatio, ofUnits, isFinite_number, Magnitude.isFinite, Magnitude.nearest,
    Magnitude.ordinal_ofOrdinal, decide_eq_true_iff]
  exact (Nat.min_le_left _ _).trans_lt (hle.trans_lt hlt)

end Specimen.Binary64

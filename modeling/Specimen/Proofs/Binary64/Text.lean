import Specimen.Proofs.Binary64.Exact
import Specimen.Proofs.Text.Characters
import Mathlib.Data.List.DropRight

/-!
# Written doubles read back

The digits of a double are found on the first grid that holds a decimal for it, and every
decimal that is tried is read back before it is taken.  So what is found reads back, on
whichever grid; the exact expansion at the end of the search does too.  Positional notation
gives the found decimal without loss: its whole part, and behind the point the rest, of which
only trailing zeros are dropped.

## Main definitions

* `Decimal.behind d` — the digits behind the point.

## Main statements

* `magnitude_shortest` — the shortest decimal of a magnitude reads as the magnitude.
* `Decimal.plain_eq` — positional notation is the whole part and the digits behind the point.
* `Decimal.whole_add_behind` — the two parts make up the decimal.
* `text_number` — the text of a finite double.
-/

namespace Specimen.Binary64

/-! ### The search -/

/-- The exact value of a magnitude reads as the magnitude. -/
theorem Magnitude.nearest_value (m : Magnitude) : Magnitude.nearest m.value 1 = m := by
  rw [Magnitude.nearest, Magnitude.value, nearestOrdinal_units, Magnitude.ofOrdinal_ordinal]

theorem magnitude_of_onGrid {m : Magnitude} {e : ℤ} {d : Decimal} (h : onGrid m e = some d) :
    d.magnitude = m := by
  unfold onGrid at h
  dsimp only at h
  split_ifs at h with hlow hboth hhigh
  · cases h
    exact hboth.1
  · cases h
    exact hlow
  · cases h
    exact hhigh

/-- Units are powers of two, so a number of them has an exact decimal expansion. -/
private theorem magnitude_expansion {n : ℕ} (hn : unitsPerOne = 2 ^ n) (v : ℕ) :
    Decimal.magnitude ⟨v * 5 ^ n, -n⟩ = Magnitude.nearest v 1 := by
  have hnum : Decimal.numerator ⟨v * 5 ^ n, -n⟩ = v * 5 ^ n := by simp [Decimal.numerator]
  have hden : Decimal.denominator ⟨v * 5 ^ n, -n⟩ = 10 ^ n := by simp [Decimal.denominator]
  have hcross : v * 5 ^ n * unitsPerOne * 1 = v * 10 ^ n := by
    rw [hn, Nat.mul_one, Nat.mul_assoc, ← Nat.mul_pow]
  rw [Decimal.magnitude, hnum, hden, Magnitude.nearest, Magnitude.nearest,
    nearestOrdinal_congr (Nat.pow_pos (by omega)) Nat.one_pos hcross]

theorem magnitude_search (m : Magnitude) (grids : ℕ) (e : ℤ) :
    (search m grids e).magnitude = m := by
  induction grids generalizing e with
  | zero =>
    -- the value is written out; its exponent is named, so that no power is evaluated
    obtain ⟨n, hn⟩ : ∃ n, n = 1074 := ⟨_, rfl⟩
    have hplaces : (-1074 : ℤ) = -(n : ℤ) := by rw [hn]; rfl
    have hunit : unitsPerOne = 2 ^ n := by
      unfold unitsPerOne
      rw [← hn]
    rw [search, hplaces, ← hn, magnitude_expansion hunit, m.nearest_value]
  | succ grids ih =>
    rw [search]
    cases h : onGrid m e with
    | none => exact ih (e - 1)
    | some d => exact magnitude_of_onGrid h

/-- **The shortest decimal of a magnitude reads as the magnitude.** -/
theorem magnitude_shortest (m : Magnitude) : (shortest m).magnitude = m :=
  magnitude_search m _ _

/-! ### Positional notation -/

namespace Decimal

/-- The digits behind the point; there are none when the number is whole. -/
def behind (d : Decimal) : List Char :=
  trimZeros ((Nat.toDigits 10 (d.numerator % d.denominator)).leftpad (-d.exponent).toNat '0')

theorem plain_eq (d : Decimal) :
    d.plain = Nat.toDigits 10 (d.numerator / d.denominator) ++
      if d.behind.isEmpty then [] else '.' :: d.behind := rfl

/-- Only zeros are dropped. -/
theorem exists_trimZeros_append (digits : List Char) :
    ∃ k, digits = trimZeros digits ++ List.replicate k '0' := by
  refine ⟨(digits.rtakeWhile (· == '0')).length, ?_⟩
  have hzeros : digits.rtakeWhile (· == '0')
      = List.replicate (digits.rtakeWhile (· == '0')).length '0' := by
    refine List.eq_replicate_iff.mpr ⟨rfl, fun c hc => ?_⟩
    exact eq_of_beq (List.mem_rtakeWhile_imp (p := (· == '0')) hc)
  rw [← hzeros]
  exact List.rdropWhile_append_rtakeWhile.symm

/-- The digits behind a point as a number below one. -/
def fractionOf (digits : List Char) : ℚ := Nat.ofDigitChars 10 digits 0 / 10 ^ digits.length

theorem fractionOf_append_zeros (digits : List Char) (k : ℕ) :
    fractionOf (digits ++ List.replicate k '0') = fractionOf digits := by
  rw [fractionOf, fractionOf, Nat.ofDigitChars_append, Nat.ofDigitChars_replicate_zero,
    List.length_append, List.length_replicate]
  push_cast
  rw [pow_add, mul_comm, mul_div_mul_right]
  exact pow_ne_zero k (by norm_num)

theorem fractionOf_trimZeros (digits : List Char) :
    fractionOf (trimZeros digits) = fractionOf digits := by
  obtain ⟨k, hk⟩ := exists_trimZeros_append digits
  conv_rhs => rw [hk]
  rw [fractionOf_append_zeros]

theorem fractionOf_leftpad {n places : ℕ} (h : (Nat.toDigits 10 n).length ≤ places) :
    fractionOf ((Nat.toDigits 10 n).leftpad places '0') = n / 10 ^ places := by
  rw [fractionOf, List.length_leftpad, max_eq_left h, Text.ofDigitChars_leftpad]

theorem isDigit_of_mem_behind {d : Decimal} {c : Char} (h : c ∈ d.behind) : c.isDigit = true := by
  -- a digit that is not dropped was there before
  obtain ⟨k, hk⟩ := exists_trimZeros_append
    ((Nat.toDigits 10 (d.numerator % d.denominator)).leftpad (-d.exponent).toNat '0')
  have hmem := List.mem_append_left (List.replicate k '0') h
  rw [behind, ← hk] at hmem
  exact Text.isDigit_of_mem_leftpad hmem

/-- The digits behind the point are what the whole part leaves over. -/
theorem fractionOf_behind (d : Decimal) :
    fractionOf d.behind = (d.numerator % d.denominator : ℕ) / d.denominator := by
  rw [behind, fractionOf_trimZeros]
  rcases Nat.eq_zero_or_pos (-d.exponent).toNat with hzero | hpos
  · -- a whole number leaves nothing over, which is written with one zero
    have hden : d.denominator = 1 := by rw [denominator, hzero, Nat.pow_zero]
    rw [hden, Nat.mod_one, hzero]
    simp [fractionOf, List.leftpad, Nat.ofDigitChars_cons]
  · have hlength : (Nat.toDigits 10 (d.numerator % d.denominator)).length ≤ (-d.exponent).toNat :=
      (Nat.length_toDigits_le_iff (by decide) hpos).mpr (Nat.mod_lt _ d.denominator_pos)
    rw [fractionOf_leftpad hlength]
    congr 1
    rw [denominator]
    push_cast
    rfl

/-- **The whole part and the digits behind the point make up the decimal.** -/
theorem whole_add_behind (d : Decimal) :
    ((d.numerator / d.denominator : ℕ) : ℚ) + fractionOf d.behind = d.toRat false := by
  have hD : (d.denominator : ℚ) ≠ 0 := by exact_mod_cast d.denominator_pos.ne'
  have hsplit : (d.denominator : ℚ) * (d.numerator / d.denominator : ℕ)
      + (d.numerator % d.denominator : ℕ) = d.numerator := by
    exact_mod_cast Nat.div_add_mod d.numerator d.denominator
  rw [fractionOf_behind, toRat, if_neg Bool.false_ne_true, one_mul, eq_div_iff hD, add_mul,
    div_mul_cancel₀ _ hD, mul_comm, hsplit]

end Decimal

private theorem cons_sign (negative : Bool) (digits : List Char) :
    (if negative then '-' :: digits else digits) = (if negative then ['-'] else []) ++ digits := by
  cases negative <;> rfl

/-- A finite double is written as its shortest decimal, behind its sign. -/
theorem text_number {m : Magnitude} (h : m.isFinite = true) (negative : Bool) :
    text (.number negative m) =
      String.ofList ((if negative then ['-'] else []) ++ (shortest m).plain) := by
  rw [← cons_sign, text, if_pos h]

end Specimen.Binary64

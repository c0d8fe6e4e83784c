import Specimen.Proofs.Binary64.Exact
import Specimen.Spec.Parser

/-!
# What literals denote

A number literal denotes the number that its digits give in positional notation, exactly.
Lengths and integer bounds are this number itself; a decimal bound is the double nearest
to it.

## Main definitions

* `Literal.value l` — the exact number.

## Main statements

* `Literal.of_ofChars?` — a literal that is read has the text that it was read from.
* `Literal.value_of_natural?`, `Literal.value_of_integerBound` — whole numbers are exact.
* `Literal.natural?_eq_some_iff`, `Literal.integerBound_eq_ok_iff`,
  `Literal.decimalBound_eq_ok_iff` — which literals serve as lengths and as bounds.
* `Literal.lt_value`, `Literal.value_lt` — a double on one side of the rounded literal
  is on the same side of the literal.
-/

namespace Specimen.Spec.Literal

open Binary64 (Decimal ofDecimal)

/-- The number that the sign and the digits denote: those before the point count whole
numbers, those behind it parts of a power of ten. -/
def value (l : Literal) : ℚ :=
  (if l.negative then -1 else 1) *
    (Nat.ofDigitChars 10 l.whole 0 +
      Nat.ofDigitChars 10 (l.fraction.getD []) 0 / 10 ^ (l.fraction.getD []).length)

/-! ### Reading -/

private theorem of_ofUnsigned? {negative : Bool} {cs : List Char} {l : Literal}
    (h : ofUnsigned? negative cs = some l) :
    l.chars = (if negative then ['-'] else []) ++ cs ∧ l.WellFormed := by
  have hsplit : cs.takeWhile Char.isDigit ++ cs.dropWhile Char.isDigit = cs :=
    List.takeWhile_append_dropWhile
  have hwhole : (cs.takeWhile Char.isDigit).all Char.isDigit = true :=
    List.all_takeWhile
  unfold ofUnsigned? at h
  dsimp only at h
  split at h
  · next hrest =>
    split at h
    · cases h
    · next hne =>
      cases h
      rw [hrest] at hsplit
      refine ⟨?_, hwhole, by simpa using hne⟩
      rw [chars, List.append_assoc, hsplit]
  · next digits hrest =>
    -- behind a point there are digits only
    split at h
    · cases h
    · next hne =>
      split at h
      · next hdigits =>
        cases h
        rw [hrest] at hsplit
        refine ⟨?_, hwhole, by simpa using hne, hdigits⟩
        rw [chars, List.append_assoc, hsplit]
      · cases h
  · cases h

/-- A literal is written as the text that it was read from. -/
theorem of_ofChars? {cs : List Char} {l : Literal} (h : ofChars? cs = some l) :
    l.chars = cs ∧ l.WellFormed := by
  unfold ofChars? at h
  split at h
  · exact of_ofUnsigned? h
  · exact of_ofUnsigned? h

/-! ### Values -/

theorem coefficient_eq (l : Literal) :
    l.coefficient = 10 ^ (l.fraction.getD []).length * Nat.ofDigitChars 10 l.whole 0
      + Nat.ofDigitChars 10 (l.fraction.getD []) 0 := by
  rw [coefficient, Nat.ofDigitChars_append, Nat.ofDigitChars_eq_ofDigitChars_zero]

/-- Reading all digits as one number and moving the point gives the same number. -/
theorem toRat_decimal (l : Literal) : l.decimal.toRat l.negative = l.value := by
  have hden : l.decimal.denominator = 10 ^ (l.fraction.getD []).length := by
    simp [decimal, Decimal.denominator]
  have hnum : l.decimal.numerator = l.coefficient := by
    simp [decimal, Decimal.numerator]
  have hpos : (10 : ℚ) ^ (l.fraction.getD []).length ≠ 0 := pow_ne_zero _ (by norm_num)
  rw [Decimal.toRat, value, hden, hnum, coefficient_eq]
  congr 1
  push_cast
  field_simp

theorem coe_signed {l : Literal} (h : l.fraction = none) : (l.signed : ℚ) = l.value := by
  have hcoefficient : l.coefficient = Nat.ofDigitChars 10 l.whole 0 := by
    rw [coefficient, h, Option.getD_none, List.append_nil]
  rw [signed, value, h, hcoefficient, Option.getD_none]
  split <;> simp

/-- A length is the number that is written. -/
theorem value_of_natural? {l : Literal} {n : ℕ} (h : l.natural? = some n) : (n : ℚ) = l.value := by
  unfold natural? at h
  split at h
  · cases h
  · next hfits =>
    simp only [not_or, Bool.not_eq_true, Option.isSome_eq_false_iff,
      Option.isNone_iff_eq_none] at hfits
    cases h
    rw [← coe_signed hfits.2.1, signed, if_neg (by simp [hfits.1])]
    simp

/-- An integer bound is the number that is written. -/
theorem value_of_integerBound {l : Literal} {n : Int64} (h : l.integerBound = .ok n) :
    (n.toInt : ℚ) = l.value := by
  unfold integerBound at h
  split at h
  · cases h
  · split at h
    · next m hm =>
      cases h
      unfold integer? at hm
      split at hm
      · cases hm
      · next hfits =>
        simp only [not_or, Bool.not_eq_true, Option.isSome_eq_false_iff,
          Option.isNone_iff_eq_none, not_lt, not_le] at hfits
        obtain ⟨hpoint, hlow, hhigh⟩ := hfits
        cases hm
        rw [Int64.toInt_ofInt_of_le hlow hhigh, coe_signed hpoint]
    · cases h

/-- A length is written with digits alone and fits into a word. -/
theorem natural?_eq_some_iff {l : Literal} {n : ℕ} :
    l.natural? = some n ↔
      (l.negative = false ∧ l.fraction = none) ∧ (n : ℚ) = l.value ∧ n < 2 ^ 64 := by
  constructor
  · intro h
    have hvalue := value_of_natural? h
    unfold natural? at h
    split at h
    · cases h
    · next hfits =>
      simp only [not_or, Bool.not_eq_true, Option.isSome_eq_false_iff,
        Option.isNone_iff_eq_none, not_le] at hfits
      cases h
      exact ⟨⟨hfits.1, hfits.2.1⟩, hvalue, hfits.2.2⟩
  · rintro ⟨⟨hsign, hpoint⟩, hvalue, hlt⟩
    have hcoefficient : n = l.coefficient := by
      have hsigned : l.signed = l.coefficient := by
        rw [signed, if_neg (by rw [hsign]; exact Bool.false_ne_true)]
      have hcast := coe_signed hpoint
      rw [hsigned, ← hvalue] at hcast
      exact_mod_cast hcast.symm
    rw [natural?, if_neg, ← hcoefficient]
    rw [hsign, hpoint, ← hcoefficient]
    simpa using hlt

/-- An integer bound is written without a point, and is the number that is written. -/
theorem integerBound_eq_ok_iff {l : Literal} {n : Int64} :
    l.integerBound = .ok n ↔ l.fraction = none ∧ (n.toInt : ℚ) = l.value := by
  constructor
  · intro h
    refine ⟨?_, value_of_integerBound h⟩
    unfold integerBound at h
    split at h
    · cases h
    · next hpoint => simpa using hpoint
  · rintro ⟨hpoint, hvalue⟩
    have hsigned : l.signed = n.toInt := by
      rw [← coe_signed hpoint] at hvalue
      exact_mod_cast hvalue.symm
    have hsome : l.integer? = some n := by
      have hlow := n.le_toInt
      have hhigh := n.toInt_lt
      rw [integer?, if_neg, hsigned, Int64.ofInt_toInt]
      rw [hpoint, hsigned]
      simp only [Option.isSome_none, Bool.false_eq_true, false_or, not_or, not_lt, not_le]
      exact ⟨hlow, hhigh⟩
    rw [integerBound, if_neg (by simp [hpoint]), hsome]

/-- A decimal bound is the double nearest to the number that is written, and finite. -/
theorem of_decimalBound {l : Literal} {x : Binary64} (h : l.decimalBound = .ok x) :
    x = ofDecimal l.negative l.decimal ∧ x.isFinite = true := by
  by_cases hfin : (ofDecimal l.negative l.decimal).isFinite = true
  · have hsome : l.binary64? = some (ofDecimal l.negative l.decimal) := by
      simp only [binary64?]
      rw [if_pos hfin]
    rw [decimalBound, hsome, Option.elim_some] at h
    obtain rfl := Except.ok.inj h
    exact ⟨rfl, hfin⟩
  · have hnone : l.binary64? = none := by
      simp only [binary64?]
      rw [if_neg hfin]
    rw [decimalBound, hnone, Option.elim_none] at h
    cases h

theorem decimalBound_eq_ok_iff {l : Literal} {x : Binary64} :
    l.decimalBound = .ok x ↔ x = ofDecimal l.negative l.decimal ∧ x.isFinite = true := by
  constructor
  · exact of_decimalBound
  · rintro ⟨rfl, hfin⟩
    have hsome : l.binary64? = some (ofDecimal l.negative l.decimal) := by
      simp only [binary64?]
      rw [if_pos hfin]
    rw [decimalBound, hsome, Option.elim_some]

/-- What lies below a decimal bound lies below the number that is written. -/
theorem lt_value {l : Literal} {x v : Binary64} (h : l.decimalBound = .ok x)
    (hv : v.isFinite = true) (hlt : v.lt x = true) : v.toRat < l.value := by
  obtain ⟨rfl, -⟩ := of_decimalBound h
  rw [← toRat_decimal]
  exact Binary64.toRat_lt_of_lt_ofDecimal hv hlt

/-- What lies above a decimal bound lies above the number that is written. -/
theorem value_lt {l : Literal} {x v : Binary64} (h : l.decimalBound = .ok x)
    (hv : v.isFinite = true) (hlt : x.lt v = true) : l.value < v.toRat := by
  obtain ⟨rfl, -⟩ := of_decimalBound h
  rw [← toRat_decimal]
  exact Binary64.lt_toRat_of_ofDecimal_lt hv hlt

end Specimen.Spec.Literal

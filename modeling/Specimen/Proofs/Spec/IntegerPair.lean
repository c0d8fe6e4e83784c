import Specimen.Proofs.Binary64.Integers
import Specimen.Proofs.Spec.Canonical

/-!
# Integers between two bounds

The parser compares two bounds as doubles before it reads them as integers.  So what it
says of two integers is what the integers themselves say, unless they are in order but meet
in one double: then it says that they are not in order.  Small integers never meet, nor do
integers that are far apart.

## Main definitions

* `pairText lower upper` — the canonical text of integers between two bounds.
* `pairVerdict lower upper` — what the bounds themselves say.
* `Meet lower upper` — the bounds are in order, but their doubles are not.

## Main statements

* `Rule.ofBounds_ofInt` — what the parser says of two integers.
* `not_meet_of_small`, `not_meet_of_apart` — integers that do not meet.
* `parse_pairText` — the parser judges by the integers, unless these meet.
-/

namespace Specimen.Spec

open Binary64 (ofDecimal ofInt)

/-- The canonical text of integers between two bounds. -/
def pairText (lower upper : Int64) : String := (Rule.integer (.between lower upper)).text

/-- What two integer bounds say by themselves: they have to be in order, with an integer
between them. -/
def pairVerdict (lower upper : Int64) : Except Fault Rule :=
  if upper ≤ lower then .error (.boundOrder (.ofInt lower.toInt) (.ofInt upper.toInt))
  else if upper.toInt - lower.toInt = 1 then .error .emptyRange
  else .ok (.integer (.between lower upper))

/-- The integers are in order, but have one double. -/
def Meet (lower upper : Int64) : Prop :=
  lower < upper ∧ (ofInt lower.toInt).lt (ofInt upper.toInt) = false

/-! ### The literal of a signed word -/

namespace Literal

/-- The literal of a signed word is that word as an integer bound. -/
theorem integerBound_ofInt (n : Int64) : (Literal.ofInt n.toInt).integerBound = .ok n :=
  integerBound_eq_ok_iff.mpr ⟨rfl, (value_ofInt n.toInt).symm⟩

end Literal

/-- The double of a signed word is finite. -/
theorem isFinite_ofInt_toInt (n : Int64) : (ofInt n.toInt).isFinite = true := by
  have hlow := n.le_toInt
  have hhigh := n.toInt_lt
  exact Binary64.isFinite_ofInt (e := 63) (by norm_num) (by omega)

/-- The literal of a signed word is rounded to the double of the word. -/
theorem roundsTo_ofInt (n : Int64) : (Literal.ofInt n.toInt).RoundsTo (ofInt n.toInt) := by
  have hcoefficient : (Literal.ofInt n.toInt).coefficient = n.toInt.natAbs := by
    rw [Literal.coefficient, Literal.ofInt, Option.getD_none, List.append_nil,
      Nat.ofDigitChars_ten_toDigits]
  refine Literal.roundsTo_iff.mpr ⟨?_, isFinite_ofInt_toInt n⟩
  rw [Binary64.ofInt_eq_ofDecimal, Literal.decimal, hcoefficient]
  rfl

/-! ### What the parser says of two integers -/

/-- Bounds whose doubles are not in order are refused. -/
theorem Rule.ofBounds_of_not_lt {kind : NumericKind} {lower upper : Literal} {x y : Binary64}
    (hx : lower.RoundsTo x) (hy : upper.RoundsTo y) (hlt : x.lt y = false) :
    ofBounds kind lower upper = .error (.boundOrder lower upper) := by
  have hge : x.ge y = true := by
    by_contra h
    rw [(Binary64.ge_eq_false_iff hx.isFinite hy.isFinite).mp (Bool.eq_false_iff.mpr h)] at hlt
    cases hlt
  rw [ofBounds, Literal.decimalBound_eq_ok_iff_roundsTo.mpr hx,
    Literal.decimalBound_eq_ok_iff_roundsTo.mpr hy, ok_bind, ok_bind, if_pos hge]

/-- Integers that are in order as doubles are in order. -/
theorem lt_of_ofInt_lt {lower upper : Int64}
    (h : (ofInt lower.toInt).lt (ofInt upper.toInt) = true) : lower < upper := by
  rw [Binary64.lt_iff_toRat_lt (isFinite_ofInt_toInt lower) (isFinite_ofInt_toInt upper)] at h
  rw [Int64.lt_iff_toInt_lt]
  by_contra hle
  have := Binary64.toRat_ofInt_mono (isFinite_ofInt_toInt upper) (isFinite_ofInt_toInt lower)
    (not_lt.mp hle)
  exact absurd h (not_lt.mpr this)

/-- **The parser judges two integers by themselves, unless they meet**; those it calls out of
order. -/
theorem Rule.ofBounds_ofInt (lower upper : Int64) :
    (¬ Meet lower upper →
      ofBounds .integer (.ofInt lower.toInt) (.ofInt upper.toInt) = pairVerdict lower upper) ∧
    (Meet lower upper → ofBounds .integer (.ofInt lower.toInt) (.ofInt upper.toInt)
      = .error (.boundOrder (.ofInt lower.toInt) (.ofInt upper.toInt))) := by
  have hx := roundsTo_ofInt lower
  have hy := roundsTo_ofInt upper
  refine ⟨fun hmeet => ?_, fun hmeet => ofBounds_of_not_lt hx hy hmeet.2⟩
  by_cases hlt : (ofInt lower.toInt).lt (ofInt upper.toInt) = true
  · -- in order either way, so that only the gap is left to look at
    have horder := lt_of_ofInt_lt hlt
    rw [Int64.lt_iff_toInt_lt] at horder
    rw [ofBounds_of_doubles hx hy hlt, pairVerdict, if_neg (Int64.not_le.mpr (lt_of_ofInt_lt hlt))]
    dsimp only
    rw [Literal.integerBound_ofInt, Literal.integerBound_ofInt, ok_bind, ok_bind]
    by_cases hgap : upper.toInt - lower.toInt = 1
    · rw [if_pos hgap, if_pos (by omega)]
    · rw [if_neg hgap, if_neg (by omega)]
  · rw [Bool.not_eq_true] at hlt
    have hle : upper ≤ lower := by
      by_contra h
      exact hmeet ⟨Int64.not_le.mp h, hlt⟩
    rw [ofBounds_of_not_lt hx hy hlt, pairVerdict, if_pos hle]

/-! ### Integers that do not meet -/

/-- Integers of 53 bits do not meet. -/
theorem not_meet_of_small {lower upper : Int64} (hl : lower.toInt.natAbs ≤ 2 ^ 53)
    (hu : upper.toInt.natAbs ≤ 2 ^ 53) : ¬ Meet lower upper := by
  rintro ⟨horder, hlt⟩
  rw [← Bool.not_eq_true, Binary64.lt_iff_toRat_lt (isFinite_ofInt_toInt lower)
    (isFinite_ofInt_toInt upper), Binary64.toRat_ofInt hl, Binary64.toRat_ofInt hu] at hlt
  exact hlt (by exact_mod_cast Int64.lt_iff_toInt_lt.mp horder)

/-- Integers that are more than the widest step apart do not meet. -/
theorem not_meet_of_apart {lower upper : Int64} (h : 1024 < upper.toInt - lower.toInt) :
    ¬ Meet lower upper := by
  rintro ⟨-, hlt⟩
  rw [← Bool.not_eq_true, Binary64.lt_iff_toRat_lt (isFinite_ofInt_toInt lower)
    (isFinite_ofInt_toInt upper), not_lt] at hlt
  have hlbounds := abs_le.mp (Binary64.abs_toRat_ofInt_sub_le (n := lower.toInt) (by
    have := lower.le_toInt
    have := lower.toInt_lt
    omega))
  have hubounds := abs_le.mp (Binary64.abs_toRat_ofInt_sub_le (n := upper.toInt) (by
    have := upper.le_toInt
    have := upper.toInt_lt
    omega))
  have hcast : (1024 : ℚ) < upper.toInt - lower.toInt := by exact_mod_cast h
  linarith [hlbounds.2, hubounds.1]

/-- The distance cannot be smaller: these stand at the two ends of one rounding interval. -/
example : Meet 4611686018427389440 4611686018427390464 := ⟨by decide, by decide +kernel⟩

/-! ### Texts -/

/-- The canonical text is the text of its sentence, whatever the bounds are. -/
theorem writtenAs_pairText (lower upper : Int64) :
    (Sentence.number .integer (.between (.ofInt lower.toInt) (.ofInt upper.toInt))).WrittenAs
      (pairText lower upper) := by
  have hbound : ∀ n : Int64, (Literal.ofInt n.toInt).WellFormed ∧
      (Literal.ofInt n.toInt).text = Rule.integerText n :=
    fun n => ⟨Literal.wellFormed_ofInt _, Literal.text_ofInt n⟩
  exact ⟨trivial, Token.spelled_range .integer (.between (hbound lower) (hbound upper))⟩

theorem parse_pairText_eq (lower upper : Int64) :
    parse (pairText lower upper)
      = (Rule.ofBounds .integer (.ofInt lower.toInt) (.ofInt upper.toInt)).mapError
        fun fault => ⟨pairText lower upper, fault⟩ :=
  parse_of_writtenAs (writtenAs_pairText lower upper)

/-- Bounds in order are never said to be out of order by themselves. -/
theorem pairVerdict_ne_boundOrder {lower upper : Int64} (h : lower < upper) (l u : Literal) :
    pairVerdict lower upper ≠ .error (.boundOrder l u) := by
  rw [pairVerdict, if_neg (Int64.not_le.mpr h)]
  split <;> exact nofun

/-- **What is said of two integer bounds.**  The parser says of them what they say
themselves exactly when they do not meet; if they do, it calls them out of order.  Bounds
that are out of order, bounds of 53 bits and bounds that are far apart do not meet. -/
theorem parse_pairText (lower upper : Int64) :
    (parse (pairText lower upper)
        = (pairVerdict lower upper).mapError (fun fault => ⟨pairText lower upper, fault⟩) ↔
      ¬ Meet lower upper) ∧
    (Meet lower upper → parse (pairText lower upper) = .error
      ⟨pairText lower upper, .boundOrder (.ofInt lower.toInt) (.ofInt upper.toInt)⟩) ∧
    (upper ≤ lower ∨ (lower.toInt.natAbs ≤ 2 ^ 53 ∧ upper.toInt.natAbs ≤ 2 ^ 53) ∨
        1024 < upper.toInt - lower.toInt →
      ¬ Meet lower upper) := by
  obtain ⟨happart, hmeets⟩ := Rule.ofBounds_ofInt lower upper
  have hmet : Meet lower upper → parse (pairText lower upper) = .error
      ⟨pairText lower upper, .boundOrder (.ofInt lower.toInt) (.ofInt upper.toInt)⟩ := by
    intro hmeet
    rw [parse_pairText_eq, hmeets hmeet]
    rfl
  refine ⟨⟨fun hparse hmeet => ?_, fun hmeet => ?_⟩, hmet, ?_⟩
  · rw [hmet hmeet] at hparse
    cases hverdict : pairVerdict lower upper with
    | ok r =>
      rw [hverdict] at hparse
      cases hparse
    | error fault =>
      rw [hverdict] at hparse
      cases hparse
      exact pairVerdict_ne_boundOrder hmeet.1 _ _ hverdict
  · rw [parse_pairText_eq, happart hmeet]
  · rintro (hle | ⟨hl, hu⟩ | hgap)
    · exact fun hmeet => Int64.not_le.mpr hmeet.1 hle
    · exact not_meet_of_small hl hu
    · exact not_meet_of_apart hgap

/-- Beyond 53 bits the parser calls bounds out of order that are not: two without an integer
between them, and two with one. -/
theorem parse_pairText_meeting :
    parse (pairText 9007199254740992 9007199254740993)
        = .error ⟨"9007199254740992 < integer < 9007199254740993",
          .boundOrder (.ofInt 9007199254740992) (.ofInt 9007199254740993)⟩ ∧
      pairVerdict 9007199254740992 9007199254740993 = .error .emptyRange ∧
      parse (pairText 18014398509481984 18014398509481986)
        = .error ⟨"18014398509481984 < integer < 18014398509481986",
          .boundOrder (.ofInt 18014398509481984) (.ofInt 18014398509481986)⟩ ∧
      pairVerdict 18014398509481984 18014398509481986
        = .ok (.integer (.between 18014398509481984 18014398509481986)) := by
  decide +kernel

end Specimen.Spec

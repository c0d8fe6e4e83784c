import Specimen.Generation.Primitive
import Specimen.Proofs.Binary64.Position

/-!
# The midpoint of two doubles

The midpoint is the sum of the two halves, and each of the three operations rounds.
It lies strictly between the two doubles all the same, whenever any double does.

Halving is exact except for the odd ones among the smallest doubles, where it is off
by half a unit towards an even result.  So the exact sum of the halves is at most one
unit off the middle, and rounding it could only reach an end when the ends are next to
next.  The parities of the halves exclude that.

## Main statements

* `position_half` — half of a double, and how far it is off.
* `isBetween_midpoint` — the midpoint lies between, if any double does.
-/

namespace Specimen.Binary64

/-! ### Halves -/

/-- Half of a magnitude is exact, or the magnitude is a small odd number and its half is
rounded to an even one. -/
private theorem half_ordinal (k : ℕ) :
    (2 * units (nearestOrdinal (units k) 2) = units k ∨
      (units k = k ∧ k % 2 = 1 ∧
        units (nearestOrdinal (units k) 2) = k / 2 + k / 2 % 2 ∧
        nearestOrdinal (units k) 2 = k / 2 + k / 2 % 2)) := by
  -- a magnitude with an exact half rounds to it
  have hexact : ∀ j, units k = 2 * units j → nearestOrdinal (units k) 2 = j := by
    intro j hj
    rw [hj]
    exact le_antisymm (nearestOrdinal_le Nat.two_pos le_rfl) (le_nearestOrdinal Nat.two_pos le_rfl)
  rcases Nat.lt_or_ge k (2 * binade) with hk | hk
  · have hself : units k = k := units_eq_self hk
    have hc : units (k / 2) = k / 2 := units_eq_self (by omega)
    have hc' : units (k / 2 + 1) = k / 2 + 1 := units_eq_self (by have := binade_pos; omega)
    rcases Nat.mod_two_eq_zero_or_one k with heven | hodd
    · left
      have hj : units k = 2 * units (k / 2) := by omega
      rw [hexact _ hj, ← hj]
    · right
      have hround : nearestOrdinal (units k) 2 = k / 2 + k / 2 % 2 :=
        nearestOrdinal_of_eq_middle Nat.two_pos (by omega)
      refine ⟨hself, hodd, ?_, hround⟩
      rw [hround, units_eq_self (by have := binade_pos; omega)]
  · left
    have hj : units k = 2 * units (k - binade) := by
      rw [← units_add_binade (by omega), Nat.sub_add_cancel (by omega)]
    rw [hexact _ hj, ← hj]

/-- Half of a finite double is finite.  It is exact, or the double is a small odd number
of units and its half the nearest even one. -/
theorem position_half {x : Binary64} {i : ℤ} (hx : x.isFinite = true)
    (hi : x.position = some i) :
    ∃ h, x.half.position = some h ∧ x.half.isFinite = true ∧
      (2 * unitsAt h = unitsAt i ∨
        (unitsAt i = i ∧ i % 2 = 1 ∧ unitsAt h = h ∧ h % 2 = 0 ∧
          (2 * h = i + 1 ∨ 2 * h = i - 1))) := by
  obtain ⟨i', hi', hlow, hhigh⟩ := isFinite_iff.mp hx
  obtain rfl : i' = i := by rw [hi] at hi'; exact (Option.some.inj hi').symm
  match x with
  | .number s m =>
    rw [isFinite_number] at hx
    have hhalf : half (.number s m) = .number s (.nearest (units m.ordinal) 2) := by
      rw [half, if_pos hx]
      rfl
    have hle : nearestOrdinal (units m.ordinal) 2 ≤ m.ordinal :=
      nearestOrdinal_le Nat.two_pos (by omega)
    have hfin : m.ordinal < infinityOrdinal := by simpa [Magnitude.isFinite] using hx
    have hord : (Magnitude.nearest (units m.ordinal) 2).ordinal
        = nearestOrdinal (units m.ordinal) 2 := by
      rw [Magnitude.nearest, Magnitude.ordinal_ofOrdinal, Nat.min_eq_left (by omega)]
    have hfinite : (half (.number s m)).isFinite = true := by
      rw [hhalf, isFinite_number, Magnitude.isFinite, hord]
      exact decide_eq_true (by omega)
    have hcases := half_ordinal m.ordinal
    cases s with
    | false =>
      obtain rfl : (m.ordinal : ℤ) = i' := by simpa using hi
      refine ⟨nearestOrdinal (units m.ordinal) 2, by rw [hhalf, position_positive, hord],
        hfinite, ?_⟩
      simp only [unitsAt_natCast]
      omega
    | true =>
      obtain rfl : -(m.ordinal : ℤ) = i' := by simpa using hi
      refine ⟨-(nearestOrdinal (units m.ordinal) 2 : ℤ), by rw [hhalf, position_negative, hord],
        hfinite, ?_⟩
      simp only [unitsAt_neg, unitsAt_natCast]
      omega

/-! ### The midpoint -/

/-- Values are at least as far apart as their positions. -/
theorem sub_le_unitsAt_sub {i j : ℤ} (h : i ≤ j) : j - i ≤ unitsAt j - unitsAt i := by
  induction j, h using Int.leInduction with
  | base => omega
  | succ j _ ih =>
    have := unitsAt_strictMono (lt_add_one j)
    omega

/-- **The midpoint lies strictly between two finite doubles whenever a double does.** -/
theorem isBetween_midpoint {lower upper x : Binary64} (hl : lower.isFinite = true)
    (hu : upper.isFinite = true) (hlx : lower.lt x = true) (hxu : x.lt upper = true) :
    Primitive.isBetween lower upper (Primitive.midpoint lower upper) = true := by
  obtain ⟨l, k, hlp, hxp, hlk⟩ := lt_iff.mp hlx
  obtain ⟨-, u, -, hup, -⟩ := lt_iff.mp hxu
  have hku := (lt_iff_of_position hxp hup).mp hxu
  obtain ⟨a, hap, hafin, ha⟩ := position_half hl hlp
  obtain ⟨b, hbp, hbfin, hb⟩ := position_half hu hup
  have hsum : (Primitive.midpoint lower upper).position
      = some (clampAt (roundAt (unitsAt a + unitsAt b))) := by
    rw [Primitive.midpoint, position_add hafin hbfin, exactUnits_eq hap, exactUnits_eq hbp]
  -- the neighbours of the two ends, and how their values compare
  have h1 := sub_le_unitsAt_sub (show l ≤ l + 1 by omega)
  have h2 := sub_le_unitsAt_sub (show l + 1 ≤ u - 1 by omega)
  have h3 := sub_le_unitsAt_sub (show u - 1 ≤ u by omega)
  have hupper : roundAt (unitsAt a + unitsAt b) ≤ u - 1 := by
    apply roundAt_le_of_le_middle <;> rw [Int.sub_add_cancel] <;> omega
  have hlower : l + 1 ≤ roundAt (unitsAt a + unitsAt b) := by
    apply le_roundAt_of_middle_le <;> rw [Int.add_sub_cancel] <;> omega
  have hlb := position_bounds hlp
  have hub := position_bounds hup
  have hclamp : clampAt (roundAt (unitsAt a + unitsAt b)) = roundAt (unitsAt a + unitsAt b) := by
    unfold clampAt
    omega
  rw [hclamp] at hsum
  rw [Primitive.isBetween, Bool.and_eq_true]
  exact ⟨(lt_iff_of_position hlp hsum).mpr (by omega), (lt_iff_of_position hsum hup).mpr (by omega)⟩

end Specimen.Binary64

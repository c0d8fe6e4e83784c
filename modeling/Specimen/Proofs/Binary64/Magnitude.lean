import Specimen.Binary64.Rounding
import Mathlib.Order.Monotone.Basic
import Mathlib.Tactic.Ring
import Mathlib.Tactic.Linarith

/-!
# Magnitudes in order

The magnitudes of doubles are listed by their ordinals.  Their values grow with the
ordinals, each by the unit in the last place, and rounding a quotient picks the
ordinal whose value is nearest to it.  Nothing here mentions signs or infinity: the
list of values goes on for ever, and infinity is put in by a bound on the ordinals.

## Main statements

* `units_succ` — the distance from one magnitude to the next.
* `units_lt_units`, `units_le_units` — values are ordered like ordinals.
* `exists_units_eq` — the multiples of a power of two that are magnitudes.
* `units_floorOrdinal_le`, `lt_units_floorOrdinal_succ` — `floorOrdinal q` is the last
  ordinal whose value is at most `q`.
* `le_nearestOrdinal`, `nearestOrdinal_le` — rounding never crosses a magnitude.
* `nearestOrdinal_le_of_lt_middle`, `nearestOrdinal_of_eq_middle`,
  `lt_nearestOrdinal_of_middle_lt` — the three cases around a middle.
* `nearestOrdinal_congr` — rounding looks at the quotient only.
-/

namespace Specimen.Binary64

/-! ### Values of ordinals -/

theorem binade_pos : 0 < binade := Nat.two_pow_pos 52

/-- Up to the second normal binade an ordinal is its own value. -/
theorem units_eq_self {k : ℕ} (h : k < 2 * binade) : units k = k := by
  have hdiv : k / binade < 2 := (Nat.div_lt_iff_lt_mul binade_pos).mpr h
  have hscale : scale k = 0 := by unfold scale; omega
  simp [units, hscale]

/-- The value of an ordinal that is given by its binade and its place in it. -/
theorem units_binade_add (e : ℕ) {m : ℕ} (hlow : binade ≤ m) (hhigh : m < 2 * binade) :
    units (e * binade + m) = m * 2 ^ e := by
  have hdiv : (e * binade + m) / binade = e + 1 := by
    rw [Nat.add_comm, Nat.add_mul_div_right _ _ binade_pos]
    have : m / binade = 1 := by
      rw [Nat.div_eq_iff binade_pos]
      omega
    omega
  have hscale : scale (e * binade + m) = e := by unfold scale; omega
  rw [units, hscale, Nat.add_sub_cancel_left]

/-- Every ordinal beyond the subnormals has a binade and a place in it. -/
theorem exists_binade_add {k : ℕ} (h : binade ≤ k) :
    ∃ m, k = scale k * binade + m ∧ binade ≤ m ∧ m < 2 * binade := by
  have hpos := binade_pos
  have hdiv : 1 ≤ k / binade := (Nat.one_le_div_iff hpos).mpr h
  have hsplit : k / binade * binade + k % binade = k := Nat.div_add_mod' k binade
  have hmod : k % binade < binade := Nat.mod_lt k hpos
  have hscale : k / binade = scale k + 1 := by unfold scale; omega
  rw [hscale, Nat.add_mul, Nat.one_mul] at hsplit
  exact ⟨binade + k % binade, by omega, by omega, by omega⟩

theorem scale_eq_zero {k : ℕ} (h : k < 2 * binade) : scale k = 0 := by
  have hdiv : k / binade < 2 := (Nat.div_lt_iff_lt_mul binade_pos).mpr h
  unfold scale
  omega

/-- The next magnitude is one unit in the last place away. -/
theorem units_succ (k : ℕ) : units (k + 1) = units k + 2 ^ scale k := by
  rcases Nat.lt_or_ge (k + 1) (2 * binade) with hk | hk
  · rw [units_eq_self hk, units_eq_self (by omega), scale_eq_zero (by omega), Nat.pow_zero]
  · have hpos := binade_pos
    obtain ⟨m, hkm, hlow, hhigh⟩ := exists_binade_add (show binade ≤ k by omega)
    have hk0 : units k = m * 2 ^ scale k := by
      conv_lhs => rw [hkm]
      exact units_binade_add _ hlow hhigh
    rw [hk0]
    rcases Nat.lt_or_ge (m + 1) (2 * binade) with hm | hm
    · -- the next magnitude lies in the same binade
      rw [show k + 1 = scale k * binade + (m + 1) by omega,
        units_binade_add _ (by omega) hm, Nat.succ_mul]
    · -- the next magnitude starts the next binade, whose values are twice as far apart
      have hm' : m + 1 = 2 * binade := by omega
      rw [show k + 1 = (scale k + 1) * binade + binade by rw [Nat.succ_mul]; omega,
        units_binade_add _ le_rfl (by omega), Nat.pow_succ, ← Nat.succ_mul, Nat.succ_eq_add_one,
        hm']
      ring

theorem units_strictMono : StrictMono units :=
  strictMono_nat_of_lt_succ fun k => by
    rw [units_succ]
    exact Nat.lt_add_of_pos_right (Nat.two_pow_pos _)

theorem units_lt_units {j k : ℕ} : units j < units k ↔ j < k := units_strictMono.lt_iff_lt

theorem units_le_units {j k : ℕ} : units j ≤ units k ↔ j ≤ k := units_strictMono.le_iff_le

@[simp] theorem units_zero : units 0 = 0 := rfl

@[simp] theorem units_one : units 1 = 1 := units_eq_self (by decide)

theorem units_eq_zero {k : ℕ} : units k = 0 ↔ k = 0 := by
  rw [← units_zero]
  exact units_strictMono.injective.eq_iff

/-- One binade further up, everything is twice as large. -/
theorem units_add_binade {k : ℕ} (h : binade ≤ k) : units (k + binade) = 2 * units k := by
  obtain ⟨m, hkm, hlow, hhigh⟩ := exists_binade_add h
  have hk0 : units k = m * 2 ^ scale k := by
    conv_lhs => rw [hkm]
    exact units_binade_add _ hlow hhigh
  rw [hk0, show k + binade = (scale k + 1) * binade + m by rw [Nat.succ_mul]; omega,
    units_binade_add _ hlow hhigh, Nat.pow_succ]
  ring

/-- A whole number of at most 53 bits keeps its value when it is doubled any number of
times; the place of its leading bit gives the exponent. -/
theorem exists_units_eq {w : ℕ} (p : ℕ) (hpos : 0 < w) (hlt : w < 2 ^ 53) :
    ∃ k, units k = w * 2 ^ (p + 52) ∧ k / binade = p + w.log2 + 1 := by
  have hlog : w.log2 ≤ 52 := Nat.lt_succ_iff.mp ((Nat.log2_lt (by omega)).mpr hlt)
  have hlow : 2 ^ w.log2 ≤ w := Nat.log2_self_le (by omega)
  have hhigh : w < 2 ^ (w.log2 + 1) := Nat.lt_log2_self
  -- the significand with its leading bit in the place of the implicit one
  have hmlow : binade ≤ w * 2 ^ (52 - w.log2) := by
    calc binade = 2 ^ w.log2 * 2 ^ (52 - w.log2) := by
          rw [← Nat.pow_add, Nat.add_sub_cancel' hlog, binade]
      _ ≤ w * 2 ^ (52 - w.log2) := Nat.mul_le_mul_right _ hlow
  have hmhigh : w * 2 ^ (52 - w.log2) < 2 * binade := by
    calc w * 2 ^ (52 - w.log2)
        < 2 ^ (w.log2 + 1) * 2 ^ (52 - w.log2) := Nat.mul_lt_mul_of_pos_right hhigh
          (Nat.two_pow_pos _)
      _ = 2 * 2 ^ (w.log2 + (52 - w.log2)) := by rw [Nat.pow_succ, Nat.pow_add]; ring
      _ = 2 * binade := by rw [Nat.add_sub_cancel' hlog, binade]
  refine ⟨(p + w.log2) * binade + w * 2 ^ (52 - w.log2), ?_, ?_⟩
  · rw [units_binade_add _ hmlow hmhigh, Nat.mul_assoc, ← Nat.pow_add]
    congr 2
    omega
  · rw [Nat.add_comm, Nat.add_mul_div_right _ _ binade_pos]
    have : w * 2 ^ (52 - w.log2) / binade = 1 := by
      rw [Nat.div_eq_iff binade_pos]
      omega
    omega

/-- Below a magnitude the steps are no wider than above it. -/
theorem units_pred_add_le {k : ℕ} (hk : 0 < k) : units k ≤ units (k - 1) + 2 ^ scale k := by
  have hstep : units (k - 1 + 1) = units (k - 1) + 2 ^ scale (k - 1) := units_succ (k - 1)
  have hscale : scale (k - 1) ≤ scale k :=
    Nat.sub_le_sub_right (Nat.div_le_div_right (Nat.sub_le k 1)) 1
  have hpow : 2 ^ scale (k - 1) ≤ 2 ^ scale k := Nat.pow_le_pow_right Nat.two_pos hscale
  rw [Nat.sub_add_cancel hk] at hstep
  omega

/-! ### The last magnitude below a number of units -/

/-- A number of units beyond the first two binades, cut to 53 bits. -/
private theorem floor_parts {q : ℕ} (h : 2 * binade ≤ q) :
    binade ≤ q / 2 ^ (q.log2 - 52) ∧ q / 2 ^ (q.log2 - 52) < 2 * binade := by
  have hq : q ≠ 0 := by have := binade_pos; omega
  have hlog : 53 ≤ q.log2 := (Nat.le_log2 hq).mpr (by simpa [binade] using h)
  have hle : 2 ^ q.log2 ≤ q := Nat.log2_self_le hq
  have hlt : q < 2 ^ (q.log2 + 1) := Nat.lt_log2_self
  constructor
  · rw [Nat.le_div_iff_mul_le (Nat.two_pow_pos _), binade, ← Nat.pow_add,
      show 52 + (q.log2 - 52) = q.log2 by omega]
    exact hle
  · rw [Nat.div_lt_iff_lt_mul (Nat.two_pow_pos _), binade, ← Nat.pow_succ', ← Nat.pow_add,
      show 52 + 1 + (q.log2 - 52) = q.log2 + 1 by omega]
    exact hlt

theorem floorOrdinal_eq_self {q : ℕ} (h : q < 2 * binade) : floorOrdinal q = q := by
  have hlog : q.log2 ≤ 52 := by
    rcases Nat.eq_zero_or_pos q with rfl | hq
    · simp
    · have : q.log2 < 53 := (Nat.log2_lt (by omega)).mpr (by simpa [binade] using h)
      omega
  simp [floorOrdinal, show q.log2 - 52 = 0 by omega]

theorem units_floorOrdinal_le (q : ℕ) : units (floorOrdinal q) ≤ q := by
  rcases Nat.lt_or_ge q (2 * binade) with h | h
  · rw [floorOrdinal_eq_self h, units_eq_self h]
  · obtain ⟨hlow, hhigh⟩ := floor_parts h
    rw [floorOrdinal, units_binade_add _ hlow hhigh]
    exact Nat.div_mul_le_self _ _

theorem lt_units_floorOrdinal_succ (q : ℕ) : q < units (floorOrdinal q + 1) := by
  rw [units_succ]
  rcases Nat.lt_or_ge q (2 * binade) with h | h
  · rw [floorOrdinal_eq_self h, units_eq_self h]
    exact Nat.lt_add_of_pos_right (Nat.two_pow_pos _)
  · obtain ⟨hlow, hhigh⟩ := floor_parts h
    have hscale : scale (floorOrdinal q) = q.log2 - 52 := by
      have hdiv : q / 2 ^ (q.log2 - 52) / binade = 1 := by
        rw [Nat.div_eq_iff binade_pos]
        omega
      rw [scale, floorOrdinal, Nat.add_comm, Nat.add_mul_div_right _ _ binade_pos, hdiv]
      omega
    rw [hscale, floorOrdinal, units_binade_add _ hlow hhigh]
    exact Nat.lt_div_mul_add (Nat.two_pow_pos _)

/-! ### Rounding -/

section Nearest

variable {num den : ℕ}

/-- A quotient lies between the values of its floor and of the next ordinal. -/
private theorem floor_bounds (num : ℕ) {den : ℕ} (hden : 0 < den) :
    den * units (floorOrdinal (num / den)) ≤ num ∧
      num < den * units (floorOrdinal (num / den) + 1) := by
  constructor
  · calc den * units (floorOrdinal (num / den)) ≤ den * (num / den) :=
          Nat.mul_le_mul_left _ (units_floorOrdinal_le _)
      _ ≤ num := Nat.mul_div_le _ _
  · rw [Nat.mul_comm]
    exact (Nat.div_lt_iff_lt_mul hden).mp (lt_units_floorOrdinal_succ _)

/-- The nearest ordinal is the floor or the next one, told apart by the middle between
them. -/
private theorem nearestOrdinal_cases (num den : ℕ) :
    let below := floorOrdinal (num / den)
    let middle := den * (units below + units (below + 1))
    (2 * num < middle ∧ nearestOrdinal num den = below) ∨
      (middle < 2 * num ∧ nearestOrdinal num den = below + 1) ∨
      (2 * num = middle ∧ nearestOrdinal num den = below + below % 2) := by
  dsimp only [nearestOrdinal]
  split
  · next h => exact Or.inl ⟨h, rfl⟩
  · split
    · next h => exact Or.inr (Or.inl ⟨h, rfl⟩)
    · exact Or.inr (Or.inr ⟨by omega, rfl⟩)

/-- A quotient that reaches a magnitude does not round below it. -/
theorem le_nearestOrdinal {j : ℕ} (hden : 0 < den) (h : den * units j ≤ num) :
    j ≤ nearestOrdinal num den := by
  have hj : j ≤ floorOrdinal (num / den) := by
    have hlt : units j < units (floorOrdinal (num / den) + 1) :=
      Nat.lt_of_mul_lt_mul_left (lt_of_le_of_lt h (floor_bounds num hden).2)
    have := units_lt_units.mp hlt
    omega
  rcases nearestOrdinal_cases num den with ⟨-, h⟩ | ⟨-, h⟩ | ⟨-, h⟩ <;> omega

/-- A quotient that does not exceed a magnitude does not round above it. -/
theorem nearestOrdinal_le {j : ℕ} (hden : 0 < den) (h : num ≤ den * units j) :
    nearestOrdinal num den ≤ j := by
  obtain ⟨hlow, -⟩ := floor_bounds num hden
  have hj : floorOrdinal (num / den) ≤ j :=
    units_le_units.mp (Nat.le_of_mul_le_mul_left (le_trans hlow h) hden)
  rcases Nat.lt_or_ge (floorOrdinal (num / den)) j with hlt | hge
  · rcases nearestOrdinal_cases num den with ⟨-, h⟩ | ⟨-, h⟩ | ⟨-, h⟩ <;> omega
  · -- the quotient is the magnitude itself, so it stays below the middle
    obtain rfl : floorOrdinal (num / den) = j := by omega
    have hmid : 2 * num < den * (units (floorOrdinal (num / den))
        + units (floorOrdinal (num / den) + 1)) := by
      rw [Nat.mul_add]
      have := (floor_bounds num hden).2
      omega
    rcases nearestOrdinal_cases num den with ⟨-, h⟩ | ⟨h, -⟩ | ⟨h, -⟩ <;> omega

/-- Doubles are exact: the value of an ordinal rounds to the ordinal. -/
theorem nearestOrdinal_units (k : ℕ) : nearestOrdinal (units k) 1 = k :=
  le_antisymm (nearestOrdinal_le Nat.one_pos (by rw [Nat.one_mul]))
    (le_nearestOrdinal Nat.one_pos (by rw [Nat.one_mul]))

/-- The floor of a quotient is known from two magnitudes around it. -/
private theorem floor_eq {j : ℕ} (hden : 0 < den) (hlow : den * units j ≤ num)
    (hhigh : num < den * units (j + 1)) : floorOrdinal (num / den) = j := by
  obtain ⟨hlow', hhigh'⟩ := floor_bounds num hden
  have h1 := units_lt_units.mp (Nat.lt_of_mul_lt_mul_left (lt_of_le_of_lt hlow hhigh'))
  have h2 := units_lt_units.mp (Nat.lt_of_mul_lt_mul_left (lt_of_le_of_lt hlow' hhigh))
  omega

/-- Below the middle of two neighbours a quotient does not round to the upper one. -/
theorem nearestOrdinal_le_of_lt_middle {j : ℕ} (hden : 0 < den)
    (h : 2 * num < den * (units j + units (j + 1))) : nearestOrdinal num den ≤ j := by
  rcases Nat.le_total num (den * units j) with hle | hge
  · exact nearestOrdinal_le hden hle
  · have hstep : den * units j ≤ den * units (j + 1) :=
      Nat.mul_le_mul_left _ (units_le_units.mpr (Nat.le_succ j))
    have hfloor := floor_eq hden hge (by rw [Nat.mul_add] at h; omega)
    have hcases := nearestOrdinal_cases num den
    rw [hfloor] at hcases
    rcases hcases with ⟨-, h'⟩ | ⟨h', -⟩ | ⟨h', -⟩ <;> omega

/-- Above the middle of two neighbours a quotient does not round to the lower one. -/
theorem lt_nearestOrdinal_of_middle_lt {j : ℕ} (hden : 0 < den)
    (h : den * (units j + units (j + 1)) < 2 * num) : j < nearestOrdinal num den := by
  rcases Nat.le_total (den * units (j + 1)) num with hle | hge
  · exact le_nearestOrdinal hden hle
  · have hlow : den * units j ≤ num := by rw [Nat.mul_add] at h; omega
    rcases Nat.lt_or_ge num (den * units (j + 1)) with hlt | hge'
    · have hfloor := floor_eq hden hlow hlt
      have hcases := nearestOrdinal_cases num den
      rw [hfloor] at hcases
      rcases hcases with ⟨h', -⟩ | ⟨-, h'⟩ | ⟨h', -⟩ <;> omega
    · exact le_nearestOrdinal hden hge'

/-- In the middle of two neighbours a quotient rounds to the even one. -/
theorem nearestOrdinal_of_eq_middle {j : ℕ} (hden : 0 < den)
    (h : 2 * num = den * (units j + units (j + 1))) : nearestOrdinal num den = j + j % 2 := by
  have hstep : den * units j < den * units (j + 1) :=
    Nat.mul_lt_mul_of_pos_left (units_lt_units.mpr (Nat.lt_succ_self j)) hden
  have hfloor : floorOrdinal (num / den) = j := by
    refine floor_eq hden ?_ ?_ <;> rw [Nat.mul_add] at h <;> omega
  have hcases := nearestOrdinal_cases num den
  rw [hfloor] at hcases
  rcases hcases with ⟨h', -⟩ | ⟨h', -⟩ | ⟨-, h'⟩ <;> omega

/-- Rounding looks at the quotient only: a common factor does not matter. -/
theorem nearestOrdinal_mul_right (num den : ℕ) {k : ℕ} (hk : 0 < k) :
    nearestOrdinal (num * k) (den * k) = nearestOrdinal num den := by
  have hbelow : ∀ a b : ℕ, 2 * (num * k) < den * k * (a + b) ↔ 2 * num < den * (a + b) := by
    intro a b
    rw [← Nat.mul_assoc, Nat.mul_right_comm den k, Nat.mul_lt_mul_right hk]
  have habove : ∀ a b : ℕ, den * k * (a + b) < 2 * (num * k) ↔ den * (a + b) < 2 * num := by
    intro a b
    rw [← Nat.mul_assoc, Nat.mul_right_comm den k, Nat.mul_lt_mul_right hk]
  simp only [nearestOrdinal, Nat.mul_div_mul_right _ _ hk, hbelow, habove]

/-- Equal quotients round to the same ordinal. -/
theorem nearestOrdinal_congr {num' den' : ℕ} (hden : 0 < den) (hden' : 0 < den')
    (h : num * den' = num' * den) : nearestOrdinal num den = nearestOrdinal num' den' := by
  rw [← nearestOrdinal_mul_right num den hden', h, Nat.mul_comm den den',
    nearestOrdinal_mul_right num' den' hden]

end Nearest

end Specimen.Binary64

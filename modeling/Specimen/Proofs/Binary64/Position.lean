import Specimen.Proofs.Binary64.Magnitude
import Mathlib.Order.SuccPred.IntervalSucc
import Mathlib.Data.Int.ConditionallyCompleteOrder
import Mathlib.Data.Int.SuccPred
import Mathlib.Algebra.Order.Ring.Int

/-!
# The number line of doubles

Every double but NaN has a position, counted in doubles from zero.  Positions turn
order, neighbours and rounding into statements about integers: the value of a finite
double is a whole number of units that grows with its position, and a sum is the
position nearest to the exact sum, cut off at the infinities.

## Main definitions

* `exactUnits x` — the value of a finite double in units of `2 ^ -1074`.
* `unitsAt i` — the value of the double at the position `i`.
* `roundAt n` — the position nearest to `n` units.

## Main statements

* `exactUnits_eq` — the value of a double is that of its position.
* `le_roundAt`, `roundAt_le`, `roundAt_le_of_le_middle` — rounding to positions.
* `position_add`, `position_nextUp`, `position_nextDown` — where results stand.
-/

namespace Specimen.Binary64

/-! ### Values at positions -/

/-- The value of the double at a position, in units of `2 ^ -1074`. -/
def unitsAt (i : ℤ) : ℤ := i.sign * units i.natAbs

@[simp] theorem unitsAt_natCast (k : ℕ) : unitsAt k = units k := by
  rcases Nat.eq_zero_or_pos k with rfl | hk
  · rfl
  · rw [unitsAt, Int.sign_natCast_of_ne_zero (by omega), Int.natAbs_natCast, Int.one_mul]

@[simp] theorem unitsAt_zero : unitsAt 0 = 0 := rfl

theorem unitsAt_one : unitsAt 1 = 1 := by
  rw [← Nat.cast_one, unitsAt_natCast, units_one]

theorem unitsAt_neg (i : ℤ) : unitsAt (-i) = -unitsAt i := by
  simp [unitsAt]

theorem unitsAt_strictMono : StrictMono unitsAt := by
  refine strictMono_int_of_lt_succ fun i => ?_
  rcases Int.le_total 0 i with hi | hi
  · obtain ⟨k, rfl⟩ := Int.eq_ofNat_of_zero_le hi
    rw [unitsAt_natCast, ← Nat.cast_succ, unitsAt_natCast]
    exact_mod_cast units_strictMono (Nat.lt_succ_self k)
  · rcases Int.lt_or_eq_of_le hi with hneg | rfl
    · -- below zero the order is turned around
      obtain ⟨k, hk⟩ := Int.eq_ofNat_of_zero_le (show 0 ≤ -(i + 1) by omega)
      obtain rfl : i = -((k + 1 : ℕ) : ℤ) := by push_cast; omega
      rw [show -((k + 1 : ℕ) : ℤ) + 1 = -(k : ℤ) by push_cast; ring, unitsAt_neg, unitsAt_neg,
        unitsAt_natCast, unitsAt_natCast]
      have := units_strictMono (Nat.lt_add_one k)
      omega
    · have h0 : unitsAt 0 = 0 := unitsAt_zero
      rw [h0, Int.zero_add, unitsAt_one]
      exact Int.one_pos

theorem unitsAt_lt_unitsAt {i j : ℤ} : unitsAt i < unitsAt j ↔ i < j :=
  unitsAt_strictMono.lt_iff_lt

theorem unitsAt_le_unitsAt {i j : ℤ} : unitsAt i ≤ unitsAt j ↔ i ≤ j :=
  unitsAt_strictMono.le_iff_le

/-! ### Rounding to a position -/

/-- The position nearest to a number of units; of two that are equally near, the even
one. -/
def roundAt (n : ℤ) : ℤ := n.sign * nearestOrdinal n.natAbs 1

@[simp] theorem roundAt_natCast (n : ℕ) : roundAt n = nearestOrdinal n 1 := by
  rcases Nat.eq_zero_or_pos n with rfl | hn
  · rfl
  · rw [roundAt, Int.sign_natCast_of_ne_zero (by omega), Int.natAbs_natCast, Int.one_mul]

theorem roundAt_neg (n : ℤ) : roundAt (-n) = -roundAt n := by
  simp [roundAt]

/-- What does not exceed the value at a position does not round beyond it. -/
theorem roundAt_le {i n : ℤ} (h : n ≤ unitsAt i) : roundAt n ≤ i := by
  -- of the four combinations of signs only the two with equal signs are about rounding
  obtain ⟨a, rfl | rfl⟩ := Int.eq_nat_or_neg n <;> obtain ⟨k, rfl | rfl⟩ := Int.eq_nat_or_neg i
  · rw [unitsAt_natCast] at h
    rw [roundAt_natCast]
    exact_mod_cast nearestOrdinal_le Nat.one_pos (by rw [Nat.one_mul]; exact_mod_cast h)
  · rw [unitsAt_neg, unitsAt_natCast] at h
    obtain rfl : k = 0 := units_eq_zero.mp (by omega)
    rw [units_zero] at h
    obtain rfl : a = 0 := by omega
    exact le_rfl
  · rw [roundAt_neg, roundAt_natCast]
    omega
  · rw [unitsAt_neg, unitsAt_natCast] at h
    rw [roundAt_neg, roundAt_natCast]
    have := le_nearestOrdinal Nat.one_pos (show 1 * units k ≤ a by omega)
    omega

/-- What reaches the value at a position does not round below it. -/
theorem le_roundAt {i n : ℤ} (h : unitsAt i ≤ n) : i ≤ roundAt n := by
  -- seen from the other side of zero this is the bound above
  have := roundAt_le (i := -i) (n := -n) (by rw [unitsAt_neg]; omega)
  rw [roundAt_neg] at this
  omega

/-- Up to the middle between two neighbours nothing rounds to the upper one, provided
that the lower one is even when the middle is met. -/
theorem roundAt_le_of_le_middle {i n : ℤ} (h : 2 * n ≤ unitsAt i + unitsAt (i + 1))
    (heven : 2 * n = unitsAt i + unitsAt (i + 1) → i % 2 = 0) : roundAt n ≤ i := by
  rcases Int.le_total 0 i with hi | hi
  · obtain ⟨k, rfl⟩ := Int.eq_ofNat_of_zero_le hi
    rcases Int.lt_or_le n 0 with hn | hn
    · exact roundAt_le (by rw [unitsAt_natCast]; omega)
    · obtain ⟨a, rfl⟩ := Int.eq_ofNat_of_zero_le hn
      rw [unitsAt_natCast, ← Nat.cast_succ, unitsAt_natCast] at h heven
      rw [roundAt_natCast]
      rcases Int.lt_or_eq_of_le h with hlt | heq
      · exact_mod_cast nearestOrdinal_le_of_lt_middle Nat.one_pos
          (by rw [Nat.one_mul]; exact_mod_cast hlt)
      · have hround := nearestOrdinal_of_eq_middle Nat.one_pos
          (by rw [Nat.one_mul]; exact_mod_cast heq)
        have := heven heq
        omega
  · rcases Int.lt_or_eq_of_le hi with hneg | rfl
    · -- on the negative side the upper neighbour has the smaller magnitude
      obtain ⟨k, hk⟩ := Int.eq_ofNat_of_zero_le (show 0 ≤ -(i + 1) by omega)
      obtain rfl : i = -((k + 1 : ℕ) : ℤ) := by push_cast; omega
      rw [show -((k + 1 : ℕ) : ℤ) + 1 = -(k : ℤ) by push_cast; ring, unitsAt_neg, unitsAt_neg,
        unitsAt_natCast, unitsAt_natCast] at h heven
      obtain ⟨a, ha⟩ := Int.eq_ofNat_of_zero_le (show 0 ≤ -n by omega)
      obtain rfl : n = -(a : ℤ) := by omega
      rw [roundAt_neg, roundAt_natCast]
      rcases Int.lt_or_eq_of_le h with hlt | heq
      · have := lt_nearestOrdinal_of_middle_lt Nat.one_pos
          (show 1 * (units k + units (k + 1)) < 2 * a by omega)
        omega
      · have hround := nearestOrdinal_of_eq_middle Nat.one_pos
          (show 2 * a = 1 * (units k + units (k + 1)) by omega)
        have := heven heq
        omega
    · rw [Int.zero_add, unitsAt_zero, unitsAt_one] at h
      exact roundAt_le (by rw [unitsAt_zero]; omega)

/-- From the middle between two neighbours on nothing rounds to the lower one, provided
that the upper one is even when the middle is met. -/
theorem le_roundAt_of_middle_le {i n : ℤ} (h : unitsAt (i - 1) + unitsAt i ≤ 2 * n)
    (heven : 2 * n = unitsAt (i - 1) + unitsAt i → i % 2 = 0) : i ≤ roundAt n := by
  have hneg : unitsAt (-i) + unitsAt (-i + 1) = -(unitsAt (i - 1) + unitsAt i) := by
    rw [show -i + 1 = -(i - 1) by ring, unitsAt_neg, unitsAt_neg]
    ring
  have := roundAt_le_of_le_middle (i := -i) (n := -n) (by omega)
    (fun h' => by have := heven (by omega); omega)
  rw [roundAt_neg] at this
  omega

/-! ### Positions of doubles -/

theorem infinityOrdinal_pos : 0 < infinityOrdinal := by
  simp [infinityOrdinal]

/-- The value of a finite double, in units of `2 ^ -1074`. -/
def exactUnits : Binary64 → ℤ
  | .nan => 0
  | .number negative m => m.signed negative

theorem exactUnits_eq {x : Binary64} {i : ℤ} (h : x.position = some i) :
    x.exactUnits = unitsAt i := by
  match x with
  | .number true m =>
    obtain rfl : -(m.ordinal : ℤ) = i := by simpa using h
    simp [unitsAt_neg, exactUnits, Magnitude.signed, Magnitude.value]
  | .number false m =>
    obtain rfl : (m.ordinal : ℤ) = i := by simpa using h
    simp [exactUnits, Magnitude.signed, Magnitude.value]

/-- No position lies beyond the infinities. -/
theorem position_bounds {x : Binary64} {i : ℤ} (h : x.position = some i) :
    -(infinityOrdinal : ℤ) ≤ i ∧ i ≤ infinityOrdinal := by
  match x with
  | .number true m =>
    obtain rfl : -(m.ordinal : ℤ) = i := by simpa using h
    have := m.ordinal_le
    omega
  | .number false m =>
    obtain rfl : (m.ordinal : ℤ) = i := by simpa using h
    have := m.ordinal_le
    omega

/-- A double is finite when it stands strictly between the infinities. -/
theorem isFinite_iff {x : Binary64} :
    x.isFinite = true ↔
      ∃ i, x.position = some i ∧ -(infinityOrdinal : ℤ) < i ∧ i < infinityOrdinal := by
  match x with
  | .nan => simp
  | .number true m =>
    simp only [isFinite_number, Magnitude.isFinite, decide_eq_true_eq, position_negative,
      Option.some.injEq]
    constructor
    · intro h
      exact ⟨_, rfl, by omega, by omega⟩
    · rintro ⟨i, rfl, h, -⟩
      omega
  | .number false m =>
    simp only [isFinite_number, Magnitude.isFinite, decide_eq_true_eq, position_positive,
      Option.some.injEq]
    constructor
    · intro h
      exact ⟨_, rfl, by omega, by omega⟩
    · rintro ⟨i, rfl, -, h⟩
      omega

theorem lt_iff {x y : Binary64} :
    x.lt y = true ↔ ∃ i j, x.position = some i ∧ y.position = some j ∧ i < j := by
  unfold lt
  cases x.position <;> cases y.position <;> simp

theorem lt_iff_of_position {x y : Binary64} {i j : ℤ} (hx : x.position = some i)
    (hy : y.position = some j) : x.lt y = true ↔ i < j := by
  rw [lt_iff]
  constructor
  · rintro ⟨i', j', hi, hj, h⟩
    rw [hx] at hi
    rw [hy] at hj
    cases hi
    cases hj
    exact h
  · intro h
    exact ⟨i, j, hx, hy, h⟩

/-- Of two finite doubles the first is at least the second, or else it is smaller. -/
theorem ge_eq_false_iff {x y : Binary64} (hx : x.isFinite = true) (hy : y.isFinite = true) :
    x.ge y = false ↔ x.lt y = true := by
  obtain ⟨i, hi, -, -⟩ := isFinite_iff.mp hx
  obtain ⟨j, hj, -, -⟩ := isFinite_iff.mp hy
  rw [ge, lt, hi, hj]
  simp

/-- A double strictly between two finite ones is finite. -/
theorem isFinite_of_between {x y z : Binary64} (hx : x.isFinite = true) (hz : z.isFinite = true)
    (hxy : x.lt y = true) (hyz : y.lt z = true) : y.isFinite = true := by
  obtain ⟨i, hi, hilow, -⟩ := isFinite_iff.mp hx
  obtain ⟨k, hk, -, hkhigh⟩ := isFinite_iff.mp hz
  obtain ⟨-, j, -, hj, -⟩ := lt_iff.mp hxy
  have hij := (lt_iff_of_position hi hj).mp hxy
  have hjk := (lt_iff_of_position hj hk).mp hyz
  exact isFinite_iff.mpr ⟨j, hj, by omega, by omega⟩

/-! ### Signs, neighbours and sums -/

theorem position_negate (x : Binary64) : x.negate.position = x.position.map (-·) := by
  match x with
  | .nan => rfl
  | .number true m => simp [negate]
  | .number false m => simp [negate]

@[simp] theorem negate_negate (x : Binary64) : x.negate.negate = x := by
  cases x <;> simp [negate]

@[simp] theorem isFinite_negate (x : Binary64) : x.negate.isFinite = x.isFinite := by
  cases x <;> rfl

theorem exactUnits_negate (x : Binary64) : x.negate.exactUnits = -x.exactUnits := by
  match x with
  | .nan => rfl
  | .number true m => simp [negate, exactUnits, Magnitude.signed]
  | .number false m => simp [negate, exactUnits, Magnitude.signed]

theorem lt_negate (x y : Binary64) : y.negate.lt x.negate = x.lt y := by
  unfold lt
  rw [position_negate, position_negate]
  cases x.position <;> cases y.position <;> simp

/-- The next double up stands one place further, up to infinity. -/
theorem position_nextUp {x : Binary64} {i : ℤ} (h : x.position = some i) :
    x.nextUp.position = some (min (i + 1) infinityOrdinal) := by
  have hpos := infinityOrdinal_pos
  match x with
  | .number false m =>
    obtain rfl : (m.ordinal : ℤ) = i := by simpa using h
    simp [nextUp, Magnitude.succ]
  | .number true m =>
    obtain rfl : -(m.ordinal : ℤ) = i := by simpa using h
    have hle := m.ordinal_le
    rw [nextUp]
    split
    · next h0 =>
      -- negative zero is passed over
      simp [Magnitude.succ, h0]
    · next h0 =>
      rw [position_negative, Magnitude.pred, Magnitude.ordinal_ofOrdinal,
        Nat.min_eq_left (by omega)]
      congr 1
      omega

/-- The next double down stands one place before, down to infinity. -/
theorem position_nextDown {x : Binary64} {i : ℤ} (h : x.position = some i) :
    x.nextDown.position = some (max (i - 1) (-(infinityOrdinal : ℤ))) := by
  have hneg : x.negate.position = some (-i) := by rw [position_negate, h]; rfl
  rw [nextDown, position_negate, position_nextUp hneg, Option.map_some]
  congr 1
  omega

theorem nextDown_negate (x : Binary64) : x.negate.nextDown = x.nextUp.negate := by
  rw [nextDown, negate_negate]

/-- There is a finite double below a double that stands beyond the least finite one. -/
theorem isFinite_nextDown_iff {x : Binary64} :
    x.nextDown.isFinite = true ↔ ∃ i, x.position = some i ∧ -(infinityOrdinal : ℤ) + 1 < i := by
  cases hx : x.position with
  | none =>
    match x with
    | .nan => simp [nextDown, negate, nextUp]
    | .number true m => simp at hx
    | .number false m => simp at hx
  | some i =>
    have hbounds := position_bounds hx
    have hpos := infinityOrdinal_pos
    rw [isFinite_iff, position_nextDown hx]
    constructor
    · rintro ⟨j, hj, hlow, -⟩
      cases hj
      exact ⟨i, rfl, by omega⟩
    · rintro ⟨j, hj, hlow⟩
      cases hj
      exact ⟨_, rfl, by omega, by omega⟩

/-- The double before is smaller, unless there is none. -/
theorem nextDown_lt {x : Binary64} (h : x.nextDown.isFinite = true) : x.nextDown.lt x = true := by
  obtain ⟨i, hi, hlow⟩ := isFinite_nextDown_iff.mp h
  exact lt_iff.mpr ⟨_, i, position_nextDown hi, hi, by omega⟩

/-- Where a finite double lies below, the one before is finite. -/
theorem isFinite_nextDown_of_lt {x y : Binary64} (hx : x.isFinite = true) (h : x.lt y = true) :
    y.nextDown.isFinite = true := by
  obtain ⟨i, hi, hlow, -⟩ := isFinite_iff.mp hx
  obtain ⟨-, j, -, hj, -⟩ := lt_iff.mp h
  have hij := (lt_iff_of_position hi hj).mp h
  exact isFinite_nextDown_iff.mpr ⟨j, hj, by omega⟩

/-- The double after is greater, unless there is none. -/
theorem lt_nextUp {x : Binary64} (h : x.nextUp.isFinite = true) : x.lt x.nextUp = true := by
  rw [← isFinite_negate, ← nextDown_negate] at h
  rw [← lt_negate, ← nextDown_negate]
  exact nextDown_lt h

theorem isFinite_nextUp_of_lt {x y : Binary64} (hx : x.isFinite = true) (h : y.lt x = true) :
    y.nextUp.isFinite = true := by
  rw [← isFinite_negate, ← nextDown_negate]
  exact isFinite_nextDown_of_lt (by rw [isFinite_negate]; exact hx) (by rw [lt_negate]; exact h)

theorem lt_trans {x y z : Binary64} (hxy : x.lt y = true) (hyz : y.lt z = true) :
    x.lt z = true := by
  obtain ⟨i, j, hi, hj, hij⟩ := lt_iff.mp hxy
  obtain ⟨-, k, -, hk, -⟩ := lt_iff.mp hyz
  have hjk := (lt_iff_of_position hj hk).mp hyz
  exact (lt_iff_of_position hi hk).mpr (hij.trans hjk)

/-- The place of a number of units that is rounded and cut off at the infinities. -/
def clampAt (i : ℤ) : ℤ := max (-(infinityOrdinal : ℤ)) (min i infinityOrdinal)

theorem position_ofUnits (n : ℤ) :
    (ofUnits (n < 0) n.natAbs 1).position = some (clampAt (roundAt n)) := by
  have hpos := infinityOrdinal_pos
  obtain ⟨a, rfl | rfl⟩ := Int.eq_nat_or_neg n
  · rw [ofUnits, decide_eq_false (by omega), position_positive, Magnitude.nearest,
      Magnitude.ordinal_ofOrdinal, roundAt_natCast, Int.natAbs_natCast, clampAt]
    congr 1
    omega
  · rw [roundAt_neg, roundAt_natCast, Int.natAbs_neg, Int.natAbs_natCast, ofUnits,
      Magnitude.nearest, clampAt]
    rcases Nat.eq_zero_or_pos a with rfl | ha
    · -- the opposite of zero is written without a sign
      have hzero : nearestOrdinal 0 1 = 0 := nearestOrdinal_units 0
      simp [hzero]
    · rw [decide_eq_true (by omega), position_negative, Magnitude.ordinal_ofOrdinal]
      congr 1
      omega

/-- A sum of finite doubles stands at the position nearest to the exact sum. -/
theorem position_add {x y : Binary64} (hx : x.isFinite = true) (hy : y.isFinite = true) :
    (x.add y).position = some (clampAt (roundAt (x.exactUnits + y.exactUnits))) := by
  match x, y with
  | .number s a, .number t b =>
    rw [isFinite_number] at hx hy
    rw [add, if_pos hx, if_pos hy]
    dsimp only [exactUnits]
    split
    · next hsum =>
      rw [hsum]
      have hpos := infinityOrdinal_pos
      cases s <;> cases t <;> simp [Magnitude.zero, roundAt, clampAt]
    · exact position_ofUnits _

/-- Taking away from the opposite number is adding, seen from the other side. -/
theorem position_negate_sub (x y : Binary64) :
    (x.negate.sub y).position = (x.add y).position.map (-·) := by
  match x, y with
  | .nan, _ => rfl
  | .number s a, .nan => rfl
  | .number s a, .number t b =>
    cases ha : a.isFinite with
    | true =>
      cases hb : b.isFinite with
      | true =>
        have hx : (Binary64.number s a).isFinite = true := ha
        have hy : (Binary64.number t b).isFinite = true := hb
        have hx' : (Binary64.number s a).negate.isFinite = true := by rw [isFinite_negate]; exact hx
        have hy' : (Binary64.number t b).negate.isFinite = true := by rw [isFinite_negate]; exact hy
        rw [sub, position_add hx' hy', position_add hx hy, exactUnits_negate, exactUnits_negate,
          ← Int.neg_add, roundAt_neg, Option.map_some]
        congr 1
        unfold clampAt
        omega
      | false => cases t <;> simp [sub, negate, add, ha, hb]
    | false =>
      -- with an infinity only the signs are looked at
      cases s <;> cases t <;> cases hb : b.isFinite <;> simp [sub, negate, add, ha, hb]

/-- A sum that does not exceed the finite doubles is finite. -/
theorem isFinite_add {x y : Binary64} (hx : x.isFinite = true) (hy : y.isFinite = true)
    (hlow : unitsAt (-(infinityOrdinal : ℤ) + 1) ≤ x.exactUnits + y.exactUnits)
    (hhigh : x.exactUnits + y.exactUnits ≤ unitsAt ((infinityOrdinal : ℤ) - 1)) :
    (x.add y).isFinite = true := by
  have hpos := infinityOrdinal_pos
  have hle := roundAt_le hhigh
  have hge := le_roundAt hlow
  refine isFinite_iff.mpr ⟨_, position_add hx hy, ?_, ?_⟩ <;> unfold clampAt <;> omega

end Specimen.Binary64

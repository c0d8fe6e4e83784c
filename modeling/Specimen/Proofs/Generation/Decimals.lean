import Specimen.Generation.Generator
import Specimen.Proofs.Binary64.Midpoint
import Specimen.Proofs.Generation.Runs
import Specimen.Proofs.Generation.Window

/-!
# Generated decimals

Which doubles a range asks for, and that generation keeps to them however its sums and
products are rounded.  A bound that absorbs the offset gives way to the double next to
it, so a one-sided range fails only at the ends of the finite doubles; no offset is wide
enough to cross the last step there.  Between two bounds the midpoint is the last resort,
and it lies between the bounds whenever any double does.

## Main definitions

* `Generator.DecimalIn window range x` — the range with its window contains `x`.
* `Generator.decimalFault range` — why no decimal can be generated, if so.
* `Spec.Range.HasFiniteBounds range` — the bounds of the range are finite.

## Main statements

* `Generator.decimal_in` — what is generated lies in the range.
* `Generator.decimal_endsIn` — whether generation fails is settled before it draws.
* `Generator.decimalFault_eq_none_iff` — it succeeds when a double lies in the range.
-/

namespace Specimen

open Binary64

namespace Primitive

open Specimen.Random (Source Draw)

/-! ### One bound -/

/-- The last step of the finite doubles is wider than any window. -/
theorem units_widthOrdinal_le (window : UInt32) :
    units (infinityOrdinal - 2) + units (widthOrdinal window) ≤ units (infinityOrdinal - 1) := by
  have hstep : units (infinityOrdinal - 2 + 1)
      = units (infinityOrdinal - 2) + 2 ^ scale (infinityOrdinal - 2) := units_succ _
  have hpred : infinityOrdinal - 2 + 1 = infinityOrdinal - 1 := by
    simp [infinityOrdinal]
  obtain ⟨r, hr, hscale⟩ : ∃ r, 32 + 53 ≤ r ∧ scale (infinityOrdinal - 2) = r + 1021 := by
    refine ⟨1024, by omega, ?_⟩
    simp [scale, binade, infinityOrdinal]
  have hle : width window * 2 ^ 53 ≤ 2 ^ r := by
    calc width window * 2 ^ 53 ≤ 2 ^ 32 * 2 ^ 53 := Nat.mul_le_mul_right _ (width_lt window).le
      _ = 2 ^ (32 + 53) := (Nat.pow_add ..).symm
      _ ≤ 2 ^ r := Nat.pow_le_pow_right Nat.two_pos hr
  rw [hpred, two_pow_split hscale, ← stepBelowOne] at hstep
  rw [hstep, units_widthOrdinal, unitsPerOne_eq, ← Nat.mul_assoc]
  exact Nat.add_le_add_left (Nat.mul_le_mul_right _ hle) _

/-- Below the infinities, taking an offset from a bound leaves a finite double. -/
theorem isFinite_sub_offset {window : UInt32} {upper offset : Binary64}
    (hupper : upper.nextDown.isFinite = true) (hfin : offset.isFinite = true)
    (hlow : 0 ≤ offset.exactUnits) (hhigh : offset.exactUnits ≤ units (widthOrdinal window))
    (hlt : (upper.sub offset).lt upper = true) : (upper.sub offset).isFinite = true := by
  obtain ⟨u, hu, hulow⟩ := isFinite_nextDown_iff.mp hupper
  have hbounds := position_bounds hu
  have hpos := infinityOrdinal_pos
  rcases Int.lt_or_eq_of_le hbounds.2 with hlast | rfl
  · have hwide := units_widthOrdinal_le window
    refine isFinite_add (isFinite_iff.mpr ⟨u, hu, by omega, hlast⟩)
      (by rw [isFinite_negate]; exact hfin) ?_ ?_
    · -- the bound is beyond the first finite double, and the first step is wide enough
      have hsecond : unitsAt (-((infinityOrdinal - 2 : ℕ) : ℤ)) ≤ unitsAt u :=
        unitsAt_le_unitsAt.mpr (by omega)
      have hfirst :
          unitsAt (-(infinityOrdinal : ℤ) + 1) = -(units (infinityOrdinal - 1) : ℤ) := by
        rw [show -(infinityOrdinal : ℤ) + 1 = -((infinityOrdinal - 1 : ℕ) : ℤ) by omega,
          unitsAt_neg, unitsAt_natCast]
      rw [unitsAt_neg, unitsAt_natCast] at hsecond
      rw [exactUnits_negate, exactUnits_eq hu, hfirst]
      omega
    · have hlast' : unitsAt u ≤ unitsAt ((infinityOrdinal : ℤ) - 1) :=
        unitsAt_le_unitsAt.mpr (by omega)
      rw [exactUnits_negate, exactUnits_eq hu]
      omega
  · -- infinity absorbs every offset
    match upper, offset with
    | .number true m, _ =>
      rw [position_negative] at hu
      have := Option.some.inj hu
      omega
    | .number false m, .number t a =>
      have hm : m.isFinite = false := by
        rw [position_positive] at hu
        have := Option.some.inj hu
        rw [Magnitude.isFinite]
        exact decide_eq_false (by omega)
      rw [isFinite_number] at hfin
      rw [sub, negate, add, if_neg (by rw [hm]; exact Bool.false_ne_true), hfin, Bool.true_or,
        if_pos rfl] at hlt
      exact absurd ((lt_iff_of_position hu hu).mp hlt) (Int.lt_irrefl _)
    | .number false m, .nan => simp at hfin
    | .nan, _ => simp at hu

theorem isFinite_add_offset {window : UInt32} {lower offset : Binary64}
    (hlower : lower.nextUp.isFinite = true) (hfin : offset.isFinite = true)
    (hlow : 0 ≤ offset.exactUnits) (hhigh : offset.exactUnits ≤ units (widthOrdinal window))
    (hlt : lower.lt (lower.add offset) = true) : (lower.add offset).isFinite = true := by
  have hneg := position_negate_sub lower offset
  have hsub : (lower.negate.sub offset).isFinite = true := by
    refine isFinite_sub_offset ?_ hfin hlow hhigh ?_
    · rw [nextDown_negate, isFinite_negate]
      exact hlower
    · obtain ⟨i, j, hi, hj, hij⟩ := lt_iff.mp hlt
      refine lt_iff.mpr ⟨-j, -i, ?_, ?_, by omega⟩
      · rw [hneg, hj]
        rfl
      · rw [position_negate, hi]
        rfl
  obtain ⟨i, hi, hilow, hihigh⟩ := isFinite_iff.mp hsub
  rw [hneg] at hi
  obtain ⟨j, hj, rfl⟩ := Option.map_eq_some_iff.mp hi
  exact isFinite_iff.mpr ⟨j, hj, by omega, by omega⟩

/-- Whether there is a finite double below the bound decides about the step below it. -/
theorem isFinite_stepBelow {upper x : Binary64}
    (hx : upper.nextDown.isFinite = true → x.lt upper = true → x.isFinite = true) :
    (stepBelow upper x).isFinite = upper.nextDown.isFinite := by
  unfold stepBelow
  split
  · next hlt =>
    rw [Bool.eq_iff_iff]
    exact ⟨fun h => isFinite_nextDown_of_lt h hlt, fun h => hx h hlt⟩
  · rfl

theorem stepBelow_lt {upper x : Binary64} (h : (stepBelow upper x).isFinite = true) :
    (stepBelow upper x).lt upper = true := by
  unfold stepBelow at h ⊢
  split
  · next hlt => exact hlt
  · next hlt =>
    rw [if_neg hlt] at h
    exact nextDown_lt h

/-- Upwards everything is as it is downwards. -/
theorem stepAbove_eq (lower x : Binary64) :
    stepAbove lower x = (stepBelow lower.negate x.negate).negate := by
  unfold stepAbove stepBelow
  rw [lt_negate]
  split
  · rw [negate_negate]
  · rw [nextDown_negate, negate_negate]

theorem isFinite_stepAbove {lower x : Binary64}
    (hx : lower.nextUp.isFinite = true → lower.lt x = true → x.isFinite = true) :
    (stepAbove lower x).isFinite = lower.nextUp.isFinite := by
  rw [stepAbove_eq, isFinite_negate, isFinite_stepBelow, nextDown_negate, isFinite_negate]
  rw [nextDown_negate, isFinite_negate, isFinite_negate, lt_negate]
  exact hx

theorem lt_stepAbove {lower x : Binary64} (h : (stepAbove lower x).isFinite = true) :
    lower.lt (stepAbove lower x) = true := by
  rw [stepAbove_eq, isFinite_negate] at h
  rw [stepAbove_eq, ← lt_negate, negate_negate]
  exact stepBelow_lt h

variable {σ : Type} [Source σ]

/-- A decimal below a bound fails exactly where no finite double is left. -/
theorem decimalBelow_endsIn (upper : Binary64) (window : UInt32) :
    (decimalBelow upper window : Generation σ Binary64).EndsIn
      (if upper.nextDown.isFinite then none else some (.decimalOverflow upper)) := by
  refine Generation.EndsIn.draw_bind (positiveOffset_always window) fun offset hoffset => ?_
  obtain ⟨hfin, hlow, hhigh⟩ := hoffset
  dsimp only
  rw [isFinite_stepBelow fun hupper hlt => isFinite_sub_offset hupper hfin hlow hhigh hlt]
  split
  · exact Generation.endsIn_pure _
  · exact Generation.endsIn_throw _

/-- A decimal above a bound fails exactly where no finite double is left. -/
theorem decimalAbove_endsIn (lower : Binary64) (window : UInt32) :
    (decimalAbove lower window : Generation σ Binary64).EndsIn
      (if lower.nextUp.isFinite then none else some (.decimalOverflow lower)) := by
  refine Generation.EndsIn.draw_bind (positiveOffset_always window) fun offset hoffset => ?_
  obtain ⟨hfin, hlow, hhigh⟩ := hoffset
  dsimp only
  rw [isFinite_stepAbove fun hlower hlt => isFinite_add_offset hlower hfin hlow hhigh hlt]
  split
  · exact Generation.endsIn_pure _
  · exact Generation.endsIn_throw _

/-! ### Two bounds -/

/-- A random point counts only when it lies between the bounds. -/
theorem firstBetween_always (lower upper : Binary64) (tries : ℕ) :
    (firstBetween lower upper tries : Draw σ (Option Binary64)).Always
      fun r => ∀ x, r = some x → isBetween lower upper x = true := by
  induction tries with
  | zero => exact Draw.Always.pure (fun x hx => by cases hx)
  | succ tries ih =>
    refine Draw.Always.bind (P := fun _ => True) (fun _ => trivial) fun t _ => ?_
    dsimp only
    split
    · next hbetween =>
      refine Draw.Always.pure fun x hx => ?_
      cases hx
      exact hbetween
    · exact ih

end Primitive

namespace Generator

open Primitive

/-- The doubles that a range asks for.  All of them are finite, and the bounds themselves
are left out. -/
def DecimalIn (window : UInt32) (range : Spec.Range Binary64) (x : Binary64) : Prop :=
  x.isFinite = true ∧
    match range with
    | .any => 0 ≤ x.toRat ∧ x.toRat < width window
    | .below upper => x.lt upper = true
    | .above lower => lower.lt x = true
    | .between lower upper => lower.lt x = true ∧ x.lt upper = true

/-- Why no decimal can be generated: no finite double lies beyond the bound, the bounds
are not two finite doubles in order, or they are next to each other. -/
def decimalFault : Spec.Range Binary64 → Option GenerationError
  | .any => none
  | .below upper => if upper.nextDown.isFinite then none else some (.decimalOverflow upper)
  | .above lower => if lower.nextUp.isFinite then none else some (.decimalOverflow lower)
  | .between lower upper =>
    if lower.lt upper && lower.isFinite && upper.isFinite then
      if isBetween lower upper (midpoint lower upper) then none
      else some (.emptyDecimalRange lower upper)
    else some (.boundOrder lower upper)

section Runs

variable {σ : Type} [Random.Source σ]

/-- Whether a decimal is generated does not depend on what is drawn. -/
theorem decimal_endsIn (window : UInt32) (range : Spec.Range Binary64) :
    (decimal window range : Generation σ Binary64).EndsIn (decimalFault range) := by
  cases range with
  | any =>
    simp only [decimal, decimalFault]
    exact Generation.endsIn_draw _
  | below upper => exact decimalBelow_endsIn upper window
  | above lower => exact decimalAbove_endsIn lower window
  | between lower upper =>
    simp only [decimal, decimalBetween, decimalFault]
    split
    · next hbounds =>
      simp only [Bool.and_eq_true] at hbounds
      obtain ⟨⟨-, hl⟩, hu⟩ := hbounds
      refine Generation.EndsIn.draw_bind (firstBetween_always lower upper _) fun r hr => ?_
      cases r with
      | some x =>
        -- a point that was found shows that the midpoint would have done as well
        have hx := hr x rfl
        rw [isBetween, Bool.and_eq_true] at hx
        dsimp only
        rw [if_pos (isBetween_midpoint hl hu hx.1 hx.2)]
        exact Generation.endsIn_pure x
      | none =>
        dsimp only
        split
        · exact Generation.endsIn_pure _
        · exact Generation.endsIn_throw _
    · exact Generation.endsIn_throw _

/-- **A generated decimal is finite and lies in its range.** -/
theorem decimal_in {window : UInt32} {range : Spec.Range Binary64} {x : Binary64} {s t : σ}
    (h : decimal window range s = .ok x t) : DecimalIn window range x := by
  cases range with
  | any =>
    obtain ⟨i, hi, hlt⟩ := Generation.of_draw_eq_ok (decimalWithin_always window) h
    have hwidth := widthOrdinal_lt window
    have hunits : units i < width window * unitsPerOne := by
      rw [← units_widthOrdinal]
      exact units_lt_units.mpr hlt
    have hpos : (0 : ℚ) < unitsPerOne := by exact_mod_cast unitsPerOne_pos
    refine ⟨isFinite_iff.mpr ⟨i, hi, by omega, by omega⟩, ?_, ?_⟩
    · rw [toRat, exactUnits_eq hi, unitsAt_natCast]
      exact div_nonneg (Nat.cast_nonneg' _) hpos.le
    · rw [toRat, exactUnits_eq hi, unitsAt_natCast, div_lt_iff₀ hpos]
      exact_mod_cast hunits
  | below upper =>
    obtain ⟨offset, u, -, hx⟩ := Generation.bind_eq_ok.mp h
    split at hx
    · next hfin =>
      cases hx
      exact ⟨hfin, stepBelow_lt hfin⟩
    · cases hx
  | above lower =>
    obtain ⟨offset, u, -, hx⟩ := Generation.bind_eq_ok.mp h
    split at hx
    · next hfin =>
      cases hx
      exact ⟨hfin, lt_stepAbove hfin⟩
    · cases hx
  | between lower upper =>
    have hin : ∀ y, lower.isFinite = true → upper.isFinite = true →
        isBetween lower upper y = true → DecimalIn window (.between lower upper) y := by
      intro y hl hu hy
      rw [isBetween, Bool.and_eq_true] at hy
      exact ⟨isFinite_of_between hl hu hy.1 hy.2, hy⟩
    simp only [decimal, decimalBetween] at h
    split at h
    · next hbounds =>
      simp only [Bool.and_eq_true] at hbounds
      obtain ⟨⟨-, hl⟩, hu⟩ := hbounds
      obtain ⟨r, u, hdraw, hx⟩ := Generation.bind_eq_ok.mp h
      have hr := Generation.of_draw_eq_ok (firstBetween_always lower upper _) hdraw
      cases r with
      | some y =>
        cases hx
        exact hin x hl hu (hr x rfl)
      | none =>
        dsimp only at hx
        split at hx
        · next hmid =>
          cases hx
          exact hin _ hl hu hmid
        · cases hx
    · cases h

end Runs

end Generator

/-- The bounds of the range are finite. -/
def Spec.Range.HasFiniteBounds : Spec.Range Binary64 → Prop
  | .any => True
  | .below upper => upper.isFinite = true
  | .above lower => lower.isFinite = true
  | .between lower upper => lower.isFinite = true ∧ upper.isFinite = true

/-- **A decimal can be generated exactly when a double lies in the range**, provided that
the bounds are finite. -/
theorem Generator.decimalFault_eq_none_iff (window : UInt32) {range : Spec.Range Binary64}
    (h : range.HasFiniteBounds) :
    decimalFault range = none ↔ ∃ x, DecimalIn window range x := by
  cases range with
  | any =>
    have hposition : Binary64.zero.position = some ((0 : ℕ) : ℤ) := by
      rw [Binary64.zero, position_positive, Magnitude.zero, Magnitude.ordinal_ofOrdinal,
        Nat.zero_min]
    have hzero : Binary64.zero.toRat = 0 := by
      rw [toRat, exactUnits_eq hposition, unitsAt_natCast, units_zero, Nat.cast_zero, Int.cast_zero,
        zero_div]
    have hwidth : (0 : ℚ) < Primitive.width window := by exact_mod_cast Primitive.width_pos window
    refine ⟨fun _ => ⟨.zero, ?_, ?_, ?_⟩, fun _ => rfl⟩
    · simp [Binary64.zero, Magnitude.isFinite, Magnitude.zero, infinityOrdinal_pos]
    · rw [hzero]
    · rw [hzero]
      exact hwidth
  | below upper =>
    simp only [decimalFault, ite_eq_left_iff, reduceCtorEq, imp_false, not_not]
    constructor
    · intro hfin
      exact ⟨_, hfin, nextDown_lt hfin⟩
    · rintro ⟨x, hfin, hlt⟩
      exact isFinite_nextDown_of_lt hfin hlt
  | above lower =>
    simp only [decimalFault, ite_eq_left_iff, reduceCtorEq, imp_false, not_not]
    constructor
    · intro hfin
      exact ⟨_, hfin, lt_nextUp hfin⟩
    · rintro ⟨x, hfin, hlt⟩
      exact isFinite_nextUp_of_lt hfin hlt
  | between lower upper =>
    obtain ⟨hl, hu⟩ := h
    constructor
    · intro hnone
      simp only [decimalFault, ite_eq_iff, reduceCtorEq, and_false, or_false, and_true] at hnone
      have hmid := hnone.2
      rw [Primitive.isBetween, Bool.and_eq_true] at hmid
      exact ⟨_, isFinite_of_between hl hu hmid.1 hmid.2, hmid⟩
    · rintro ⟨x, -, hlx, hxu⟩
      rw [decimalFault, lt_trans hlx hxu, hl, hu, Bool.and_self, Bool.and_self, if_pos rfl,
        if_pos (isBetween_midpoint hl hu hlx hxu)]

end Specimen

import Specimen.Generation.Generator
import Specimen.Proofs.Generation.Runs
import Specimen.Proofs.Generation.Window

/-!
# Generated integers

Which integers a range asks for, and that generation keeps to them.  The window of a
one-sided range is cut off at the ends of the signed words; cutting only takes integers
away that no word holds, so a range is refused exactly when no word lies in it.

## Main definitions

* `Generator.IntegerIn window range n` — the range with its window contains `n`.
* `Generator.integerFault window range` — why no integer can be generated, if so.

## Main statements

* `Generator.integer_in` — what is generated lies in the range.
* `Generator.integer_endsIn` — whether generation fails is settled before it draws.
* `Generator.integerFault_eq_none_iff` — it succeeds when a signed word lies in the range.
-/

namespace Specimen

namespace Primitive

/-- Saturation goes to the nearest number that a signed word holds. -/
theorem toInt_saturate (n : ℤ) :
    (saturate n).toInt = max (-2 ^ 63) (min n (2 ^ 63 - 1)) := by
  unfold saturate
  split
  · rw [Int64.toInt_minValue]
    omega
  · split
    · rw [Int64.toInt_maxValue]
      omega
    · rw [Int64.toInt_ofInt_of_le (by omega) (by omega)]
      omega

variable {σ : Type} [Random.Source σ]

/-- Consecutive integers that a signed word holds are drawn as they are. -/
theorem integerFrom_always {first : ℤ} {count : ℕ} (hpos : 0 < count) (hlow : -2 ^ 63 ≤ first)
    (hhigh : first + count ≤ 2 ^ 63) :
    (integerFrom first count : Random.Draw σ Int64).Always
      fun n => first ≤ n.toInt ∧ n.toInt < first + count := by
  refine (Random.uniform64_lt hpos).bind fun k hk => Random.Draw.Always.pure ?_
  rw [Int64.toInt_ofInt_of_le (by omega) (by omega)]
  omega

end Primitive

namespace Generator

open Primitive

/-- The integers that a range asks for.  A range without two bounds is filled up with the
window; the bounds themselves are left out. -/
def IntegerIn (window : UInt32) (range : Spec.Range Int64) (n : ℤ) : Prop :=
  match range with
  | .any => 0 ≤ n ∧ n < width window
  | .below upper => upper.toInt - width window ≤ n ∧ n < upper.toInt
  | .above lower => lower.toInt < n ∧ n ≤ lower.toInt + width window
  | .between lower upper => lower.toInt < n ∧ n < upper.toInt

/-- Why no integer can be generated: the end of the range of signed words leaves nothing
of the window, or the bounds leave nothing between them. -/
def integerFault (window : UInt32) : Spec.Range Int64 → Option GenerationError
  | .any => none
  | .below upper =>
    let lower := saturate (upper.toInt - width window)
    if upper ≤ lower then some (.emptyRange lower upper) else none
  | .above lower =>
    let upper := saturate (lower.toInt + width window)
    if upper ≤ lower then some (.emptyRange lower upper) else none
  | .between lower upper =>
    if upper.toInt - lower.toInt < 2 then some (.emptyRange lower upper) else none

section Runs

variable {σ : Type} [Random.Source σ]

/-- Whether an integer is generated does not depend on what is drawn. -/
theorem integer_endsIn (window : UInt32) (range : Spec.Range Int64) :
    (integer window range : Generation σ Int64).EndsIn (integerFault window range) := by
  cases range with
  | any =>
    simp only [integer, integerFault]
    exact Generation.endsIn_draw _
  | below upper =>
    simp only [integer, integerBelow, integerFault]
    split
    · exact Generation.endsIn_throw _
    · exact Generation.endsIn_draw _
  | above lower =>
    simp only [integer, integerAbove, integerFault]
    split
    · exact Generation.endsIn_throw _
    · exact Generation.endsIn_draw _
  | between lower upper =>
    simp only [integer, integerBetween, integerFault]
    split
    · exact Generation.endsIn_throw _
    · exact Generation.endsIn_draw _

/-- **A generated integer lies in its range**, also where the window is cut off. -/
theorem integer_in {window : UInt32} {range : Spec.Range Int64} {n : Int64} {s t : σ}
    (h : integer window range s = .ok n t) : IntegerIn window range n.toInt := by
  have hwidth := width_pos window
  have hwidth' := width_lt window
  cases range with
  | any =>
    have hn := Generation.of_draw_eq_ok
      (integerFrom_always hwidth (by omega) (by omega)) h
    dsimp only [IntegerIn]
    omega
  | below upper =>
    simp only [integer, integerBelow] at h
    split at h
    · cases h
    · next hle =>
      rw [Int64.le_iff_toInt_le] at hle
      -- cut off or not, the window starts no lower than asked for
      have hlow := toInt_saturate (upper.toInt - width window)
      have hmin := upper.le_toInt
      have hmax := upper.toInt_lt
      have hn := Generation.of_draw_eq_ok
        (integerFrom_always (by omega) (by omega) (by omega)) h
      dsimp only [IntegerIn]
      omega
  | above lower =>
    simp only [integer, integerAbove] at h
    split at h
    · cases h
    · next hle =>
      rw [Int64.le_iff_toInt_le] at hle
      have hhigh := toInt_saturate (lower.toInt + width window)
      have hmin := lower.le_toInt
      have hmax := lower.toInt_lt
      have hn := Generation.of_draw_eq_ok
        (integerFrom_always (by omega) (by omega) (by omega)) h
      dsimp only [IntegerIn]
      omega
  | between lower upper =>
    simp only [integer, integerBetween] at h
    split at h
    · cases h
    · next hlt =>
      have hmin := lower.le_toInt
      have hmax := upper.toInt_lt
      have hn := Generation.of_draw_eq_ok
        (integerFrom_always (by omega) (by omega) (by omega)) h
      dsimp only [IntegerIn]
      omega

end Runs

/-- **An integer can be generated exactly when a signed word lies in the range.** -/
theorem integerFault_eq_none_iff (window : UInt32) (range : Spec.Range Int64) :
    integerFault window range = none ↔ ∃ n : Int64, IntegerIn window range n.toInt := by
  have hwidth := width_pos window
  have hwidth' := width_lt window
  -- an integer within the limits is the value of a word
  have hword : ∀ n : ℤ, -2 ^ 63 ≤ n → n < 2 ^ 63 → IntegerIn window range n →
      ∃ m : Int64, IntegerIn window range m.toInt := by
    intro n hlow hhigh hn
    exact ⟨.ofInt n, by rwa [Int64.toInt_ofInt_of_le hlow hhigh]⟩
  cases range with
  | any => exact ⟨fun _ => hword 0 (by omega) (by omega) ⟨le_rfl, by omega⟩, fun _ => rfl⟩
  | below upper =>
    have hlow := toInt_saturate (upper.toInt - width window)
    have hmin := upper.le_toInt
    have hmax := upper.toInt_lt
    simp only [integerFault, ite_eq_right_iff, reduceCtorEq, imp_false, Int64.le_iff_toInt_le]
    constructor
    · intro hle
      exact hword (upper.toInt - 1) (by omega) (by omega) ⟨by omega, by omega⟩
    · rintro ⟨n, hge, hlt⟩
      have := n.le_toInt
      omega
  | above lower =>
    have hhigh := toInt_saturate (lower.toInt + width window)
    have hmin := lower.le_toInt
    have hmax := lower.toInt_lt
    simp only [integerFault, ite_eq_right_iff, reduceCtorEq, imp_false, Int64.le_iff_toInt_le]
    constructor
    · intro hle
      exact hword (lower.toInt + 1) (by omega) (by omega) ⟨by omega, by omega⟩
    · rintro ⟨n, hgt, hle⟩
      have := n.toInt_lt
      omega
  | between lower upper =>
    have hmin := lower.le_toInt
    have hmax := upper.toInt_lt
    simp only [integerFault, ite_eq_right_iff, reduceCtorEq, imp_false]
    constructor
    · intro hlt
      exact hword (lower.toInt + 1) (by omega) (by omega) ⟨by omega, by omega⟩
    · rintro ⟨n, hgt, hlt⟩
      omega

end Generator

end Specimen

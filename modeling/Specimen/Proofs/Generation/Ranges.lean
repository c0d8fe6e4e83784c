import Mathlib.Order.Interval.Set.Basic
import Specimen.Proofs.Generation.Integers
import Specimen.Proofs.Random.Support

/-!
# The ranges of the integer generators

Each generator of integers is settled before it draws: it is refused, or it draws from
a run of consecutive integers that the signed words hold.  Since the sampler leaves no
number out, the values of the generator are then exactly that run, and what is left to
see is which run it is when the window meets the end of the signed words.

## Main definitions

* `Generation.support x` — the values that `x` ends with on some stream of words.
* `Primitive.Draws x first count` — the generator draws one of `count` integers.
* `Primitive.HasRange x S fault` — the generator gives the integers in `S` and no others.

## Main statements

* `Primitive.image_support_integerFrom` — every one of the consecutive integers is drawn.
* `Primitive.integer_ranges` — the ranges of the four generators.
-/

namespace Specimen

namespace Generation

variable {α : Type}

/-- The values that a generation ends with on some stream of words. -/
def support (x : Generation (Stream' UInt64) α) : Set α := {a | ∃ s t, x s = .ok a t}

theorem support_draw (x : Random.Draw (Stream' UInt64) α) : (draw x).support = x.support := by
  ext a
  constructor
  · rintro ⟨s, t, h⟩
    cases h
    exact ⟨s, rfl⟩
  · rintro ⟨s, rfl⟩
    exact ⟨s, _, draw_apply x s⟩

theorem support_throw (e : GenerationError) :
    (throw e : Generation (Stream' UInt64) α).support = ∅ := by
  refine Set.eq_empty_iff_forall_notMem.mpr ?_
  rintro a ⟨s, t, h⟩
  cases h

end Generation

namespace Primitive

open Specimen.Random (Source Draw)

/-- Every one of the consecutive integers is drawn, and nothing else. -/
theorem image_support_integerFrom {first : ℤ} {count : ℕ} (hpos : 0 < count)
    (hlow : -2 ^ 63 ≤ first) (hhigh : first + count ≤ 2 ^ 63) :
    Int64.toInt '' (integerFrom first count : Draw (Stream' UInt64) Int64).support
      = Set.Ico first (first + count) := by
  have hsupport : (integerFrom first count : Draw (Stream' UInt64) Int64).support
      = (fun k : ℕ => Int64.ofInt (first + k)) '' Set.Iio count := by
    rw [← Random.support_uniform64 hpos (by omega), ← Draw.support_map]
    rfl
  have hword : ∀ k ∈ Set.Iio count, (Int64.ofInt (first + k)).toInt = first + k := by
    intro k hk
    rw [Set.mem_Iio] at hk
    exact Int64.toInt_ofInt_of_le (by omega) (by omega)
  rw [hsupport, Set.image_image, Set.image_congr hword]
  ext m
  constructor
  · rintro ⟨k, hk, rfl⟩
    rw [Set.mem_Iio] at hk
    change first + (k : ℤ) ∈ Set.Ico first (first + count)
    rw [Set.mem_Ico]
    omega
  · rintro ⟨hge, hlt⟩
    refine ⟨(m - first).toNat, ?_, ?_⟩
    · rw [Set.mem_Iio]
      omega
    · dsimp only
      omega

/-- A generator of integers, for whatever source. -/
abbrev IntegerGenerator := (σ : Type) → [Source σ] → Generation σ Int64

/-- The generator draws one of `count` consecutive integers from `first` on.  There is at
least one of them, and the signed words hold them all. -/
structure Draws (x : IntegerGenerator) (first : ℤ) (count : ℕ) : Prop where
  pos : 0 < count
  low : -2 ^ 63 ≤ first
  high : first + count ≤ 2 ^ 63
  eq : ∀ (σ : Type) [Source σ], x σ = .draw (integerFrom first count)

/-- The generator gives the integers in `S` and no others, and is refused with `fault` when
there are none. -/
structure HasRange (x : IntegerGenerator) (S : Set ℤ) (fault : Option GenerationError) :
    Prop where
  /-- Streams of words lead to all the integers in `S`. -/
  support_eq : Int64.toInt '' (x (Stream' UInt64)).support = S
  /-- No source leads to another integer. -/
  mem : ∀ (σ : Type) [Source σ] (s t : σ) (n : Int64), x σ s = .ok n t → n.toInt ∈ S
  /-- No word of any source matters for whether the generator is refused. -/
  endsIn : ∀ (σ : Type) [Source σ], (x σ).EndsIn fault
  fault_eq_none_iff : fault = none ↔ S.Nonempty
  /-- Unless it is refused, the sampler is asked for `S`. -/
  draws : fault = none → ∃ first count, Draws x first count ∧ S = Set.Ico first (first + count)

theorem HasRange.of_draws {x : IntegerGenerator} {first : ℤ} {count : ℕ} {S : Set ℤ}
    (h : Draws x first count) (hS : S = Set.Ico first (first + count)) : HasRange x S none where
  support_eq := by
    rw [h.eq, Generation.support_draw, hS]
    exact image_support_integerFrom h.pos h.low h.high
  mem σ _ s t n hrun := by
    rw [h.eq] at hrun
    rw [hS]
    exact Generation.of_draw_eq_ok (integerFrom_always h.pos h.low h.high) hrun
  endsIn σ _ := by
    rw [h.eq]
    exact Generation.endsIn_draw _
  fault_eq_none_iff := by
    have := h.pos
    rw [hS, Set.nonempty_Ico]
    exact iff_of_true rfl (by omega)
  draws _ := ⟨first, count, h, hS⟩

theorem HasRange.of_throw {x : IntegerGenerator} {e : GenerationError} {S : Set ℤ}
    (h : ∀ (σ : Type) [Source σ], x σ = throw e) (hS : S = ∅) : HasRange x S (some e) where
  support_eq := by rw [h, Generation.support_throw, Set.image_empty, hS]
  mem σ _ s t n hrun := by
    rw [h] at hrun
    cases hrun
  endsIn σ _ := by
    rw [h]
    exact Generation.endsIn_throw e
  fault_eq_none_iff := by
    rw [hS]
    exact iff_of_false (Option.some_ne_none e) Set.not_nonempty_empty
  draws hnone := absurd hnone (Option.some_ne_none e)

/-- A test that refuses the generator exactly when it has nothing to draw from. -/
theorem HasRange.of_ite {x : IntegerGenerator} {p : Prop} [Decidable p] {e : GenerationError}
    {first : ℤ} {count : ℕ} {S : Set ℤ}
    (hx : ∀ (σ : Type) [Source σ], x σ = if p then throw e else .draw (integerFrom first count))
    (hempty : p → S = ∅)
    (hdraws : ¬ p → 0 < count ∧ -2 ^ 63 ≤ first ∧ first + count ≤ 2 ^ 63 ∧
      S = Set.Ico first (first + count)) :
    HasRange x S (if p then some e else none) := by
  by_cases hp : p
  · simp only [if_pos hp] at hx ⊢
    exact .of_throw hx (hempty hp)
  · simp only [if_neg hp] at hx ⊢
    obtain ⟨hpos, hlow, hhigh, hS⟩ := hdraws hp
    exact .of_draws ⟨hpos, hlow, hhigh, hx⟩ hS

/-! ### The four generators -/

section Generators

variable (window : UInt32) (lower upper : Int64)

/-- The window below a bound, cut off at the least word. -/
theorem toInt_saturate_sub :
    (saturate (upper.toInt - width window)).toInt
      = max (-2 ^ 63) (upper.toInt - width window) := by
  have hmax := upper.toInt_lt
  rw [toInt_saturate, min_eq_left (by omega)]

/-- The window above a bound, cut off at the greatest word. -/
theorem toInt_saturate_add :
    (saturate (lower.toInt + width window)).toInt
      = min (2 ^ 63 - 1) (lower.toInt + width window) := by
  have hmin := lower.le_toInt
  rw [toInt_saturate, max_eq_right (by omega), min_comm]

theorem integerWithin_range :
    HasRange (fun _ _ => .draw (integerWithin window)) (Set.Ico 0 (width window)) none := by
  have hpos := width_pos window
  have hlt := width_lt window
  have hdraws : Draws (fun _ _ => .draw (integerWithin window)) 0 (width window) :=
    ⟨hpos, by omega, by omega, fun _ _ => rfl⟩
  exact .of_draws hdraws (by rw [zero_add])

theorem integerBelow_range :
    HasRange (fun _ _ => integerBelow upper window)
      (Set.Ico (max (-2 ^ 63) (upper.toInt - width window)) upper.toInt)
      (Generator.integerFault window (.below upper)) := by
  have hmax := upper.toInt_lt
  have hmin := (saturate (upper.toInt - width window)).le_toInt
  rw [← toInt_saturate_sub]
  refine .of_ite (fun _ _ => rfl) (fun hle => ?_) (fun hle => ?_)
  · exact Set.Ico_eq_empty_of_le (Int64.le_iff_toInt_le.mp hle)
  · rw [Int64.le_iff_toInt_le] at hle
    refine ⟨by omega, by omega, by omega, ?_⟩
    rw [Int.toNat_of_nonneg (by omega), add_sub_cancel]

theorem integerAbove_range :
    HasRange (fun _ _ => integerAbove lower window)
      (Set.Ioc lower.toInt (min (2 ^ 63 - 1) (lower.toInt + width window)))
      (Generator.integerFault window (.above lower)) := by
  have hmin := lower.le_toInt
  have hmax := (saturate (lower.toInt + width window)).toInt_lt
  rw [← toInt_saturate_add]
  refine .of_ite (fun _ _ => rfl) (fun hle => ?_) (fun hle => ?_)
  · exact Set.Ioc_eq_empty_of_le (Int64.le_iff_toInt_le.mp hle)
  · rw [Int64.le_iff_toInt_le] at hle
    refine ⟨by omega, by omega, by omega, ?_⟩
    ext n
    rw [Set.mem_Ioc, Set.mem_Ico]
    omega

theorem integerBetween_range :
    HasRange (fun _ _ => integerBetween lower upper) (Set.Ioo lower.toInt upper.toInt)
      (if upper.toInt - lower.toInt < 2 then some (.emptyRange lower upper) else none) := by
  have hmin := lower.le_toInt
  have hmax := upper.toInt_lt
  refine .of_ite (fun _ _ => rfl) (fun hlt => ?_) (fun hlt => ?_)
  · ext n
    rw [Set.mem_Ioo, Set.mem_empty_iff_false, iff_false]
    omega
  · refine ⟨by omega, by omega, by omega, ?_⟩
    ext n
    rw [Set.mem_Ioo, Set.mem_Ico]
    omega

/-- Only below the least word nothing is left of the window. -/
theorem integerFault_below :
    Generator.integerFault window (.below upper)
      = if upper = Int64.minValue then some (.emptyRange Int64.minValue Int64.minValue)
        else none := by
  have hpos := width_pos window
  have hmin := upper.le_toInt
  have hlow := toInt_saturate_sub window upper
  have hend : upper ≤ saturate (upper.toInt - width window) ↔ upper = Int64.minValue := by
    rw [Int64.le_iff_toInt_le, hlow, ← Int64.toInt_inj, Int64.toInt_minValue]
    omega
  rw [Generator.integerFault]
  by_cases heq : upper = Int64.minValue
  · have hsat : saturate (upper.toInt - width window) = Int64.minValue := by
      rw [← Int64.toInt_inj, hlow, heq, Int64.toInt_minValue]
      omega
    rw [if_pos heq, hsat, heq]
    exact if_pos Int64.le_rfl
  · rw [if_neg heq]
    exact if_neg (mt hend.mp heq)

/-- Only above the greatest word nothing is left of the window. -/
theorem integerFault_above :
    Generator.integerFault window (.above lower)
      = if lower = Int64.maxValue then some (.emptyRange Int64.maxValue Int64.maxValue)
        else none := by
  have hpos := width_pos window
  have hmax := lower.toInt_lt
  have hhigh := toInt_saturate_add window lower
  have hend : saturate (lower.toInt + width window) ≤ lower ↔ lower = Int64.maxValue := by
    rw [Int64.le_iff_toInt_le, hhigh, ← Int64.toInt_inj, Int64.toInt_maxValue]
    omega
  rw [Generator.integerFault]
  by_cases heq : lower = Int64.maxValue
  · have hsat : saturate (lower.toInt + width window) = Int64.maxValue := by
      rw [← Int64.toInt_inj, hhigh, heq, Int64.toInt_maxValue]
      omega
    rw [if_pos heq, hsat, heq]
    exact if_pos Int64.le_rfl
  · rw [if_neg heq]
    exact if_neg (mt hend.mp heq)

/-- Where a word lies above the bound, the next integer is a word. -/
theorem toInt_add_one {n : Int64} (h : n.toInt + 1 < 2 ^ 63) : (n + 1).toInt = n.toInt + 1 := by
  have hmin := n.le_toInt
  rw [Int64.toInt_add, Int64.toInt_one]
  exact Int.bmod_eq_of_le (by omega) (by omega)

end Generators

/-- **The generators of integers have exactly their ranges.**  Without bounds the range is
the window from zero on; with one bound it is the window next to the bound, cut off at
the last word, so that the generator is refused only at that word; with two bounds it is
what lies between them, and the generator is refused when nothing does.  The first integer
above a bound is a word wherever one is drawn. -/
theorem integer_ranges (window : UInt32) :
    HasRange (fun _ _ => .draw (integerWithin window)) (Set.Ico 0 (width window)) none ∧
    (∀ upper : Int64, HasRange (fun _ _ => integerBelow upper window)
      (Set.Ico (max (-2 ^ 63) (upper.toInt - width window)) upper.toInt)
      (if upper = Int64.minValue then some (.emptyRange Int64.minValue Int64.minValue)
        else none)) ∧
    (∀ lower : Int64, HasRange (fun _ _ => integerAbove lower window)
        (Set.Ioc lower.toInt (min (2 ^ 63 - 1) (lower.toInt + width window)))
        (if lower = Int64.maxValue then some (.emptyRange Int64.maxValue Int64.maxValue)
          else none) ∧
      (lower ≠ Int64.maxValue → (lower + 1).toInt = lower.toInt + 1)) ∧
    (∀ lower upper : Int64, HasRange (fun _ _ => integerBetween lower upper)
        (Set.Ioo lower.toInt upper.toInt)
        (if upper.toInt - lower.toInt < 2 then some (.emptyRange lower upper) else none) ∧
      (2 ≤ upper.toInt - lower.toInt → (lower + 1).toInt = lower.toInt + 1)) := by
  refine ⟨integerWithin_range window, fun upper => ?_, fun lower => ⟨?_, fun hne => ?_⟩,
    fun lower upper => ⟨integerBetween_range lower upper, fun hgap => ?_⟩⟩
  · rw [← integerFault_below window]
    exact integerBelow_range window upper
  · rw [← integerFault_above window]
    exact integerAbove_range window lower
  · have hmax := lower.toInt_lt
    rw [Ne, ← Int64.toInt_inj, Int64.toInt_maxValue] at hne
    exact toInt_add_one (by omega)
  · have hmax := upper.toInt_lt
    exact toInt_add_one (by omega)

/-- Next to the last words, one integer is left of a window of any width. -/
theorem integer_ranges_last_words :
    Int64.toInt '' (integerBelow (-9223372036854775807) 1000 :
        Generation (Stream' UInt64) Int64).support = Set.Ico (-2 ^ 63) (-2 ^ 63 + 1) ∧
      Int64.toInt '' (integerAbove 9223372036854775806 1000 :
        Generation (Stream' UInt64) Int64).support = Set.Ioc (2 ^ 63 - 2) (2 ^ 63 - 1) ∧
      (9223372036854775806 + 1 : Int64).toInt = 2 ^ 63 - 1 ∧
      ((9223372036854775804 : Int64) + 1).toInt = 2 ^ 63 - 3 :=
  have h := integer_ranges 1000
  ⟨(h.2.1 (-9223372036854775807)).support_eq,
    (h.2.2.1 9223372036854775806).1.support_eq,
    (h.2.2.1 9223372036854775806).2 (by decide),
    (h.2.2.2 9223372036854775804 9223372036854775807).2 (by decide)⟩

end Primitive

end Specimen

import Mathlib.Data.Stream.Init
import Specimen.Proofs.Random.Uniform

/-!
# What can be drawn

A stream of words is a random source that makes no promise about its words, so the
values that some stream leads to are the values that are possible at all.  `Always`
bounds them from outside; here it is shown that the sampler leaves none of them out.
The products of consecutive words are `n` apart, which is at most a whole unit, so
every number below `n` is the whole part of one of them.

## Main definitions

* `Random.Draw.support x` — the values that `x` makes from some stream of words.

## Main statements

* `Random.support_uniform64` — every number below `n` is drawn from some stream.
-/

namespace Specimen.Random

/-- A stream of words; a draw of 32 bits takes the low half of a word. -/
instance : Source (Stream' UInt64) where
  next32 s := (s.head.toUInt32, s.tail)
  next64 s := (s.head, s.tail)

/-- The values that streams of words lead to. -/
def Draw.support {α : Type} (x : Draw (Stream' UInt64) α) : Set α := Set.range fun s => (x s).1

theorem Draw.Always.support_subset {α : Type} {x : Draw (Stream' UInt64) α} {P : α → Prop}
    (hx : x.Always P) : x.support ⊆ {a | P a} := by
  rintro a ⟨s, rfl⟩
  exact hx s

@[simp] theorem Draw.support_map {α β : Type} (f : α → β) (x : Draw (Stream' UInt64) α) :
    (f <$> x).support = f '' x.support := (Set.range_comp f fun s => (x s).1)

/-! ### The sampler -/

/-- Every number below `n` is the whole part of a fraction of `n`: the fraction is the
first one that is not below it. -/
theorem exists_mul_div_eq {B n k : ℕ} (hk : k < n) (hn : n ≤ B) : ∃ w < B, w * n / B = k := by
  have hsplit := Nat.div_add_mod (k * B + (n - 1)) n
  have hmod := Nat.mod_lt (k * B + (n - 1)) (Nat.zero_lt_of_lt hk)
  generalize (k * B + (n - 1)) / n = w at hsplit
  rw [Nat.mul_comm n w] at hsplit
  -- the product stands less than `n` above `k` wholes
  have hlow : k * B ≤ w * n := by omega
  have hhigh : w * n < k * B + B := by omega
  refine ⟨w, ?_, ?_⟩
  · have hlast : k * B + B ≤ B * n := by
      calc k * B + B = B * (k + 1) := by ring
        _ ≤ B * n := Nat.mul_le_mul_left B hk
    by_contra hw
    have := Nat.mul_le_mul_right n (not_lt.mp hw)
    omega
  · rw [Nat.div_eq_iff (by omega)]
    omega

/-- A second word of zero carries nothing into the whole part. -/
theorem uniform64_cons_zero (n : ℕ) (w : UInt64) (s : Stream' UInt64) :
    (uniform64 n (Stream'.cons w (Stream'.cons 0 s))).1 = w.toNat * n / 2 ^ 64 := by
  have hbehind : ¬ 2 ^ 64 ≤ w.toNat * n % 2 ^ 64 + 0 * n / 2 ^ 64 := by
    rw [Nat.zero_mul, Nat.zero_div, Nat.add_zero, not_le]
    exact Nat.mod_lt _ (by norm_num)
  by_cases hcarry : 2 ^ 64 - n < w.toNat * n % 2 ^ 64
  · have hrun : uniform64 n (Stream'.cons w (Stream'.cons 0 s)) =
        (if 2 ^ 64 ≤ w.toNat * n % 2 ^ 64 + 0 * n / 2 ^ 64 then w.toNat * n / 2 ^ 64 + 1
          else w.toNat * n / 2 ^ 64, s) := congrFun (if_pos hcarry) _
    rw [hrun, if_neg hbehind]
  · have hrun : uniform64 n (Stream'.cons w (Stream'.cons 0 s)) =
        (w.toNat * n / 2 ^ 64, Stream'.cons 0 s) := congrFun (if_neg hcarry) _
    rw [hrun]

/-- **The sampler draws every number below its limit**, up to the limit of the words. -/
theorem support_uniform64 {n : ℕ} (hpos : 0 < n) (hle : n ≤ 2 ^ 64) :
    (uniform64 n : Draw (Stream' UInt64) ℕ).support = Set.Iio n := by
  refine Set.Subset.antisymm (uniform64_lt hpos).support_subset fun k hk => ?_
  obtain ⟨w, hw, hwhole⟩ := exists_mul_div_eq hk hle
  refine ⟨Stream'.cons (.ofNat w) (Stream'.cons 0 (Stream'.const 0)), ?_⟩
  change (uniform64 n _).1 = k
  rw [uniform64_cons_zero, UInt64.toNat_ofNat_of_lt' hw, hwhole]

end Specimen.Random

import Specimen.Random.Source
import Mathlib.Tactic.Ring
import Mathlib.Tactic.Linarith

/-!
# Ranges of draws

What holds of every value of a draw, whatever state the source is in.  The main
point is the sampler: a word multiplied by `n` has its whole part below `n`, and the
carry of the second word never lifts it to `n`.

## Main definitions

* `Random.Draw.Always x P` — every value of the draw `x` has the property `P`.

## Main statements

* `Random.Draw.Always.bind`, `Random.Draw.Always.times` — draws compose.
* `Random.uniform32_lt`, `Random.uniform64_lt` — a number below `n` is below `n`.
-/

namespace Specimen.Random

/-- Every value of the draw has the property. -/
def Draw.Always {σ α : Type} (x : Draw σ α) (P : α → Prop) : Prop := ∀ s, P (x s).1

namespace Draw.Always

variable {σ α β : Type} {P : α → Prop} {Q : β → Prop}

theorem pure {a : α} (h : P a) : Draw.Always (Pure.pure a : Draw σ α) P := fun _ => h

theorem bind {x : Draw σ α} {f : α → Draw σ β} (hx : x.Always P)
    (hf : ∀ a, P a → (f a).Always Q) : Draw.Always (x >>= f) Q :=
  fun s => hf (x s).1 (hx s) (x s).2

/-- As many values as there are turns, each with the property of one turn. -/
theorem times {x : Draw σ α} (hx : x.Always P) (n : Nat) :
    Draw.Always (times n x) fun items => items.length = n ∧ ∀ a ∈ items, P a := by
  induction n with
  | zero => exact pure ⟨rfl, fun a ha => absurd ha List.not_mem_nil⟩
  | succ n ih =>
    refine hx.bind fun first hfirst => ih.bind fun others hothers => pure ⟨?_, ?_⟩
    · rw [List.length_cons, hothers.1]
    · intro a ha
      rcases List.mem_cons.mp ha with rfl | ha
      · exact hfirst
      · exact hothers.2 a ha

end Draw.Always

/-! ### Numbers below a limit -/

/-- The whole part of a fraction of `n` lies below `n`. -/
theorem mul_div_lt {B w n : Nat} (hw : w < B) (hn : 0 < n) : w * n / B < n := by
  rw [Nat.div_lt_iff_lt_mul (by omega), Nat.mul_comm n B]
  exact Nat.mul_lt_mul_of_pos_right hw hn

/-- Where the part behind the point leaves room for a carry, the whole part is not the
last number below `n`. -/
theorem mul_div_succ_lt {B w n : Nat} (hw : w < B) (hcarry : B - n < w * n % B) :
    w * n / B + 1 < n := by
  have hsplit : B * (w * n / B) + w * n % B = w * n := Nat.div_add_mod _ _
  have hmul : w * n + n ≤ B * n := by
    calc w * n + n = (w + 1) * n := by ring
      _ ≤ B * n := Nat.mul_le_mul_right n hw
  by_contra hlast
  -- otherwise the part behind the point is too small for a carry
  have hwhole : B * n ≤ B * (w * n / B) + B := by
    calc B * n ≤ B * (w * n / B + 1) := Nat.mul_le_mul_left B (not_lt.mp hlast)
      _ = B * (w * n / B) + B := by ring
  omega

theorem uniform_lt {σ : Type} {bits n : Nat} {word : Draw σ Nat}
    (hword : word.Always (· < 2 ^ bits)) (hn : 0 < n) : (uniform bits word n).Always (· < n) := by
  refine hword.bind fun w hw => ?_
  dsimp only
  split
  · next hcarry =>
    refine hword.bind fun more _ => ?_
    split
    · exact Draw.Always.pure (mul_div_succ_lt hw hcarry)
    · exact Draw.Always.pure (mul_div_lt hw hn)
  · exact Draw.Always.pure (mul_div_lt hw hn)

variable {σ : Type} [Source σ]

theorem word32_lt : Draw.Always (UInt32.toNat <$> word32 : Draw σ Nat) (· < 2 ^ 32) :=
  fun s => UInt32.toNat_lt (word32 s).1

theorem word64_lt : Draw.Always (UInt64.toNat <$> word64 : Draw σ Nat) (· < 2 ^ 64) :=
  fun s => UInt64.toNat_lt (word64 s).1

theorem uniform32_lt {n : Nat} (hn : 0 < n) : (uniform32 n : Draw σ Nat).Always (· < n) :=
  uniform_lt word32_lt hn

theorem uniform64_lt {n : Nat} (hn : 0 < n) : (uniform64 n : Draw σ Nat).Always (· < n) :=
  uniform_lt word64_lt hn

end Specimen.Random

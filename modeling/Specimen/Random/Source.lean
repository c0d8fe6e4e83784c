/-!
# Random sources

A random source hands out words of 32 or 64 bits and moves on.  Nothing else is
asked of it, so what is said of generation holds for every source, however its words
come about.

## Main definitions

* `Random.Source σ` — the states of type `σ` hand out words.
* `Random.Draw σ α` — a value made from the words of a source.
* `Random.times n x` — the values of `n` runs, one after another.
* `Random.uniform bits word n` — one of the numbers below `n`, all equally likely up
  to the resolution of the words.
-/

namespace Specimen.Random

attribute [local instance (high)] instPowNat

/-- A source of random words. -/
class Source (σ : Type) where
  /-- The next word of 32 bits. -/
  next32 : σ → UInt32 × σ
  /-- The next word of 64 bits. -/
  next64 : σ → UInt64 × σ

/-- A value made from the words of a source. -/
abbrev Draw (σ : Type) := StateM σ

variable {σ : Type} [Source σ]

/-- The next word of 32 bits. -/
def word32 : Draw σ UInt32 := Source.next32

/-- The next word of 64 bits. -/
def word64 : Draw σ UInt64 := Source.next64

/-- The values of `n` runs, one after another. -/
def times {m : Type → Type} [Monad m] {α : Type} : Nat → m α → m (List α)
  | 0, _ => pure []
  | n + 1, x => do
    let first ← x
    let others ← times n x
    return first :: others

/-! ### Numbers below a limit -/

/-- One of the numbers below `n`, from words of the given number of bits.  The word is
taken as a fraction of one and multiplied by `n`; where the digits behind the point
leave room for a carry into the whole part, a second word settles it. -/
def uniform (bits : Nat) (word : Draw σ Nat) (n : Nat) : Draw σ Nat := do
  let product := (← word) * n
  let whole := product / 2 ^ bits
  let behind := product % 2 ^ bits
  if 2 ^ bits - n < behind then
    let more := (← word) * n
    return if 2 ^ bits ≤ behind + more / 2 ^ bits then whole + 1 else whole
  else
    return whole

/-- One of the numbers below `n`, from words of 32 bits. -/
def uniform32 (n : Nat) : Draw σ Nat := uniform 32 (UInt32.toNat <$> word32) n

/-- One of the numbers below `n`, from words of 64 bits. -/
def uniform64 (n : Nat) : Draw σ Nat := uniform 64 (UInt64.toNat <$> word64) n

end Specimen.Random

import Specimen.Random.Source

/-!
# Scripted sources

A scripted source hands out a list of given words and, when they are used up, the
words of a SplitMix64 sequence.  It makes rare draws reproducible.

## Main definitions

* `Script` — the words still to come, and the state of the sequence behind them.
* `Script.mix` — the word of a SplitMix64 state.
-/

namespace Specimen.Random

/-- A source that follows a script. -/
structure Script where
  /-- The words still to come. -/
  words : List UInt64
  /-- The state of the sequence that follows them. -/
  tail : UInt64
  /-- The number of words taken. -/
  position : Nat

namespace Script

/-- The script at its start. -/
def ofWords (words : List UInt64) (tail : UInt64) : Script := ⟨words, tail, 0⟩

/-- The distance between two states of the sequence. -/
def increment : UInt64 := 0x9E3779B97F4A7C15

/-- The word of a state: its bits mixed twice by shifts and multiplications. -/
def mix (s : UInt64) : UInt64 :=
  let z := (s ^^^ (s >>> 30)) * 0xBF58476D1CE4E5B9
  let z := (z ^^^ (z >>> 27)) * 0x94D049BB133111EB
  z ^^^ (z >>> 31)

/-- The next word: the script's, or else the sequence's. -/
def next (s : Script) : UInt64 × Script :=
  match s.words with
  | word :: words => (word, { s with words, position := s.position + 1 })
  | [] =>
    let tail := s.tail + increment
    (mix tail, { s with tail, position := s.position + 1 })

/-- A draw of 32 bits takes the low half of a word. -/
instance : Source Script where
  next32 s := let (word, s) := s.next; (word.toUInt32, s)
  next64 := next

end Script

end Specimen.Random

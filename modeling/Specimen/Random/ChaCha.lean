import Specimen.Random.Source

/-!
# The ChaCha8 source

The key stream of the ChaCha cipher with eight rounds is a random source.  The key is
expanded from a seed of 64 bits, the nonce is zero, and the words of the blocks form
one continuous stream: a draw of 64 bits takes the next two words, low half first,
wherever they lie.

## Main definitions

* `ChaCha.block key counter` — one block of sixteen words.
* `ChaCha.ofSeed seed` — the source with the given seed, at its start.
* `ChaCha.position` — how many words have been taken.
-/

namespace Specimen.Random

/-- The sixteen words of a block. -/
abbrev ChaCha.Block := Vector UInt32 16

/-- A position in the key stream. -/
structure ChaCha where
  key : Vector UInt32 8
  /-- The number of the block to compute next. -/
  counter : UInt64
  /-- The words of the current block that have not been taken. -/
  pending : List UInt32
  /-- The number of words taken. -/
  position : Nat

namespace ChaCha

/-- The word with its bits rotated to the left. -/
def rotateLeft (x : UInt32) (k : UInt32) : UInt32 := (x <<< k) ||| (x >>> (32 - k))

/-- The word with its bits rotated to the right. -/
def rotateRight (x : UInt32) (k : UInt32) : UInt32 := (x >>> k) ||| (x <<< (32 - k))

/-- The quarter round on the words at four places. -/
def quarterRound (i j k l : Fin 16) (block : Block) : Block :=
  let a := block[i] + block[j]
  let d := rotateLeft (block[l] ^^^ a) 16
  let c := block[k] + d
  let b := rotateLeft (block[j] ^^^ c) 12
  let a := a + b
  let d := rotateLeft (d ^^^ a) 8
  let c := c + d
  let b := rotateLeft (b ^^^ c) 7
  (((block.set i a).set j b).set k c).set l d

/-- A round on the columns and a round on the diagonals. -/
def doubleRound (block : Block) : Block :=
  let block := quarterRound 0 4 8 12 block
  let block := quarterRound 1 5 9 13 block
  let block := quarterRound 2 6 10 14 block
  let block := quarterRound 3 7 11 15 block
  let block := quarterRound 0 5 10 15 block
  let block := quarterRound 1 6 11 12 block
  let block := quarterRound 2 7 8 13 block
  quarterRound 3 4 9 14 block

/-- The state that a block starts from: the constants, the key, the counter with its
low half first, and a nonce of zero. -/
def initial (key : Vector UInt32 8) (counter : UInt64) : Block :=
  #v[0x61707865, 0x3320646e, 0x79622d32, 0x6b206574,
     key[0], key[1], key[2], key[3], key[4], key[5], key[6], key[7],
     counter.toUInt32, (counter >>> 32).toUInt32, 0, 0]

/-- One block of the key stream: eight rounds, then the initial state added. -/
def block (key : Vector UInt32 8) (counter : UInt64) : Block :=
  let start := initial key counter
  let mixed := doubleRound (doubleRound (doubleRound (doubleRound start)))
  start.zipWith (· + ·) mixed

/-! ### Seeds -/

/-- The next state of the congruential generator that expands seeds. -/
def nextSeed (s : UInt64) : UInt64 := s * 6364136223846793005 + 11634580027462260723

/-- The key word of a state: its upper bits, rotated by the topmost ones. -/
def keyWord (s : UInt64) : UInt32 :=
  rotateRight (((s >>> 18) ^^^ s) >>> 27).toUInt32 (s >>> 59).toUInt32

/-- The state of the expansion after a number of steps. -/
def seedAfter (seed : UInt64) : Nat → UInt64
  | 0 => seed
  | n + 1 => nextSeed (seedAfter seed n)

/-- The source with the given seed, at its start. -/
def ofSeed (seed : UInt64) : ChaCha where
  key := .ofFn fun i => keyWord (seedAfter seed (i + 1))
  counter := 0
  pending := []
  position := 0

/-! ### Drawing -/

/-- The next word of the stream; a new block is computed when the last one is used up. -/
def next (s : ChaCha) : UInt32 × ChaCha :=
  match s.pending with
  | word :: pending => (word, { s with pending, position := s.position + 1 })
  | [] =>
    let words := block s.key s.counter
    (words[0], { s with
      counter := s.counter + 1, pending := words.toList.tail, position := s.position + 1 })

instance : Source ChaCha where
  next32 := next
  next64 s :=
    let (low, s) := s.next
    let (high, s) := s.next
    (low.toUInt64 ||| (high.toUInt64 <<< 32), s)

end ChaCha

end Specimen.Random

/-!
# Double-precision numbers

A double is given by its sign and by the *ordinal* of its magnitude: the
magnitudes are listed from zero upwards, so that zero is number `0`, the smallest
subnormal is number `1`, and infinity is number `infinityOrdinal`.  The ordinal is
the bit pattern without its sign, which makes order and neighbourhood statements
about natural numbers.

Every finite magnitude is a whole number of *units* of `2 ^ -1074`, the smallest
subnormal, so its value is a natural number too.

## Main definitions

* `Magnitude` — the ordinal of a magnitude, at most that of infinity.
* `units k` — the value of the `k`-th magnitude, counted in units of `2 ^ -1074`.
* `Binary64` — NaN, or a sign and a magnitude.
* `Binary64.position x` — where `x` stands on the number line, if it is a number.
* `Binary64.lt` — the order of the numbers, which NaN is not part of.
* `Binary64.nextUp`, `Binary64.nextDown` — the adjacent doubles.
* `Binary64.ofBits`, `Binary64.toBits` — the interchange format.
-/

namespace Specimen

-- powers are the core library's here, whichever other instances are in scope
attribute [local instance (high)] instPowNat

namespace Binary64

/-- The number of magnitudes that share one exponent. -/
def binade : Nat := 2 ^ (52 : Nat)

/-- The ordinal of infinity: the bit pattern with every exponent bit set. -/
def infinityOrdinal : Nat := 0x7FF0000000000000

/-- How often the `k`-th magnitude's significand is doubled to reach its value.
The subnormals and the first normal binade need no doubling. -/
def scale (k : Nat) : Nat := k / binade - 1

/-- The value of the `k`-th magnitude in units of `2 ^ -1074`.  At the ordinal of
infinity this is the value that the next binade would start with. -/
def units (k : Nat) : Nat := (k - scale k * binade) * 2 ^ scale k

/-- One unit is `2 ^ -1074`, so the number one is this many units. -/
def unitsPerOne : Nat := 2 ^ (1074 : Nat)

/-- A magnitude: zero, a positive double or infinity, named by its ordinal. -/
structure Magnitude where
  /-- The position in the list of magnitudes, from zero upwards. -/
  ordinal : Nat
  /-- No magnitude lies beyond infinity. -/
  ordinal_le : ordinal ≤ infinityOrdinal
deriving DecidableEq

namespace Magnitude

/-- The magnitude with the given ordinal, or infinity when there is none. -/
def ofOrdinal (k : Nat) : Magnitude :=
  ⟨min k infinityOrdinal, Nat.min_le_right _ _⟩

@[simp] theorem ordinal_ofOrdinal (k : Nat) : (ofOrdinal k).ordinal = min k infinityOrdinal := rfl

@[simp] theorem ofOrdinal_ordinal (m : Magnitude) : ofOrdinal m.ordinal = m := by
  cases m with
  | mk k h => simp [ofOrdinal, Nat.min_eq_left h]

/-- The magnitude zero. -/
def zero : Magnitude := ofOrdinal 0

/-- The magnitude of infinity. -/
def infinity : Magnitude := ofOrdinal infinityOrdinal

/-- The exact value in units of `2 ^ -1074`; it has a meaning below infinity. -/
def value (m : Magnitude) : Nat := units m.ordinal

/-- The magnitude lies below infinity. -/
def isFinite (m : Magnitude) : Bool := m.ordinal < infinityOrdinal

/-- The next magnitude; infinity stays. -/
def succ (m : Magnitude) : Magnitude := ofOrdinal (m.ordinal + 1)

/-- The magnitude before; zero stays. -/
def pred (m : Magnitude) : Magnitude := ofOrdinal (m.ordinal - 1)

end Magnitude

end Binary64

open Binary64 (Magnitude)

/-- A double: NaN, or a sign and a magnitude.  Both zeros are there, and all NaNs
are one. -/
inductive Binary64 where
  | nan
  | number (negative : Bool) (magnitude : Magnitude)
deriving DecidableEq

namespace Binary64

/-- Positive zero. -/
def zero : Binary64 := .number false .zero

/-- The double is neither NaN nor an infinity. -/
def isFinite : Binary64 → Bool
  | .nan => false
  | .number _ m => m.isFinite

@[simp] theorem isFinite_nan : isFinite .nan = false := rfl
@[simp] theorem isFinite_number (negative : Bool) (m : Magnitude) :
    isFinite (.number negative m) = m.isFinite := rfl

/-- The double with the other sign. -/
def negate : Binary64 → Binary64
  | .nan => .nan
  | .number negative m => .number (!negative) m

/-! ### Order -/

/-- The place on the number line, counted in doubles from zero.  Both zeros stand
at zero, and NaN has no place. -/
def position : Binary64 → Option Int
  | .nan => none
  | .number true m => some (-(m.ordinal : Int))
  | .number false m => some m.ordinal

@[simp] theorem position_nan : position .nan = none := rfl
@[simp] theorem position_negative (m : Magnitude) :
    position (.number true m) = some (-(m.ordinal : Int)) := rfl
@[simp] theorem position_positive (m : Magnitude) :
    position (.number false m) = some (m.ordinal : Int) := rfl

/-- The first number is smaller.  No comparison with NaN holds. -/
def lt (x y : Binary64) : Bool :=
  match x.position, y.position with
  | some i, some j => i < j
  | _, _ => false

/-- The first number is at least the second.  No comparison with NaN holds. -/
def ge (x y : Binary64) : Bool :=
  match x.position, y.position with
  | some i, some j => j ≤ i
  | _, _ => false

/-! ### Neighbours -/

/-- The least double above; positive infinity and NaN stay.  Both zeros have the
smallest subnormal above them, and the smallest negative one has negative zero. -/
def nextUp : Binary64 → Binary64
  | .nan => .nan
  | .number false m => .number false m.succ
  | .number true m => if m.ordinal = 0 then .number false m.succ else .number true m.pred

/-- The greatest double below, by symmetry. -/
def nextDown (x : Binary64) : Binary64 := x.negate.nextUp.negate

/-! ### The interchange format -/

/-- The double with the given bits: a sign bit above the ordinal of the magnitude.
Every pattern beyond infinity's is a NaN. -/
def ofBits (bits : UInt64) : Binary64 :=
  if h : bits.toNat % 2 ^ (63 : Nat) ≤ infinityOrdinal then
    .number (2 ^ (63 : Nat) ≤ bits.toNat) ⟨bits.toNat % 2 ^ (63 : Nat), h⟩
  else .nan

/-- The bits of a double; NaN is written with only its quiet bit set. -/
def toBits : Binary64 → UInt64
  | .nan => 0x7FF8000000000000
  | .number negative m => .ofNat (m.ordinal + if negative then 2 ^ (63 : Nat) else 0)

end Binary64

end Specimen

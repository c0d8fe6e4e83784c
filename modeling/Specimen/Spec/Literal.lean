import Specimen.Binary64.Decimal

/-!
# Number literals

A number literal is an optional minus sign and digits with at most one point among
them.  Digits must follow the point, but need not precede it.  A literal is kept as
written, so that messages show it and integers are told from decimals by their text.

## Main definitions

* `Literal` — a literal by its parts, with its written form `Literal.chars`.
* `Literal.ofChars?` — the literal with the given written form.
* `Literal.natural?`, `Literal.integer?`, `Literal.binary64?` — the number a literal
  stands for, in the three ranges that specs use.
-/

namespace Specimen.Spec

open Binary64 (Decimal)
attribute [local instance (high)] instPowNat

/-- A number literal as written. -/
structure Literal where
  negative : Bool
  /-- The digits in front of the point. -/
  whole : List Char
  /-- The digits behind the point, if there is a point. -/
  fraction : Option (List Char)
deriving DecidableEq

namespace Literal

/-- The parts are made of digits, and a literal does not end without one. -/
def WellFormed (l : Literal) : Prop :=
  l.whole.all Char.isDigit ∧
    match l.fraction with
    | none => l.whole ≠ []
    | some digits => digits ≠ [] ∧ digits.all Char.isDigit

/-- The written form. -/
def chars (l : Literal) : List Char :=
  (if l.negative then ['-'] else []) ++ l.whole ++
    match l.fraction with
    | none => []
    | some digits => '.' :: digits

/-- The written form. -/
def text (l : Literal) : String := String.ofList l.chars

/-- The literal without a sign that the text is the written form of. -/
def ofUnsigned? (negative : Bool) (cs : List Char) : Option Literal :=
  let whole := cs.takeWhile Char.isDigit
  match cs.dropWhile Char.isDigit with
  | [] => if whole.isEmpty then none else some ⟨negative, whole, none⟩
  | '.' :: digits =>
    if digits.isEmpty then none
    else if digits.all Char.isDigit then some ⟨negative, whole, some digits⟩
    else none
  | _ => none

/-- The literal that the text is the written form of. -/
def ofChars? : List Char → Option Literal
  | '-' :: cs => ofUnsigned? true cs
  | cs => ofUnsigned? false cs

/-! ### Values -/

/-- The digits read as one number, without sign and point. -/
def coefficient (l : Literal) : Nat :=
  Nat.ofDigitChars 10 (l.whole ++ l.fraction.getD []) 0

/-- The exact magnitude of the literal. -/
def decimal (l : Literal) : Decimal :=
  ⟨l.coefficient, -((l.fraction.getD []).length : Int)⟩

/-- The signed integer that a literal without a point denotes. -/
def signed (l : Literal) : Int :=
  if l.negative then -(l.coefficient : Int) else l.coefficient

/-- The natural number of a literal without sign and point, below `2 ^ 64`. -/
def natural? (l : Literal) : Option Nat :=
  if l.negative ∨ l.fraction.isSome ∨ 2 ^ (64 : Nat) ≤ l.coefficient then none
  else some l.coefficient

/-- The integer of a literal without a point, if it fits into a signed word. -/
def integer? (l : Literal) : Option Int64 :=
  if l.fraction.isSome ∨ l.signed < -2 ^ (63 : Nat) ∨ 2 ^ (63 : Nat) ≤ l.signed then none
  else some (.ofInt l.signed)

/-- The double nearest to the literal, if it is finite. -/
def binary64? (l : Literal) : Option Binary64 :=
  let x := Binary64.ofDecimal l.negative l.decimal
  if x.isFinite then some x else none

end Literal

end Specimen.Spec

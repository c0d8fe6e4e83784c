import Specimen.Binary64.Rounding
import Specimen.Record

/-!
# JSON values

JSON values in memory.  A number is an integer of at most 64 bits or a finite
double, and the two kinds stay apart: `1` and `1.0` are different numbers.  The
members of an object form a record, so they are in name order and no name occurs
twice.

## Main definitions

* `Json.Number` — an integer in range, or a finite double.
* `Json` — a JSON value.
* `Json.Number.ofInt`, `Json.Number.ofBinary64?` — the number closest to the given one.
-/

namespace Specimen

attribute [local instance (high)] instPowNat

/-- A JSON number. -/
inductive Json.Number where
  /-- An integer that fits into 64 bits, signed or not. -/
  | integer (n : Int) (fits : -2 ^ (63 : Nat) ≤ n ∧ n < 2 ^ (64 : Nat))
  /-- A finite double. -/
  | real (x : Binary64) (finite : x.isFinite = true)
deriving DecidableEq

/-- A JSON value. -/
inductive Json where
  | null
  | bool (b : Bool)
  | number (n : Json.Number)
  | string (s : String)
  | array (items : List Json)
  | object (members : List (String × Json))

namespace Json

instance : Inhabited Json := ⟨.null⟩

namespace Number

/-- The finite double as a number. -/
def ofBinary64? (x : Binary64) : Option Number :=
  if h : x.isFinite = true then some (.real x h) else none

/-- The number that an integer denotes: itself if it fits, otherwise the nearest
double, which has to be finite. -/
def ofInt? (n : Int) : Option Number :=
  if h : -2 ^ (63 : Nat) ≤ n ∧ n < 2 ^ (64 : Nat) then some (.integer n h)
  else ofBinary64? (.ofInt n)

/-- A signed word always fits. -/
def ofInt64 (n : Int64) : Number :=
  .integer n.toInt ⟨n.le_toInt, Int.lt_trans n.toInt_lt (by decide)⟩

/-- An unsigned word always fits. -/
def ofUInt64 (n : UInt64) : Number :=
  .integer n.toNat ⟨by omega, by have := n.toNat_lt; omega⟩

end Number

/-- The natural number as a JSON number, if it fits. -/
def ofNat? (n : Nat) : Option Json := (Number.ofInt? n).map .number

/-- The member of an object with the given name. -/
def get? (name : String) : Json → Option Json
  | .object members => Record.get? name members
  | _ => none

end Json

end Specimen

import Specimen.Binary64.Decimal
import Specimen.Date.Text
import Specimen.Record

/-!
# TOML values

The values of a TOML document.  The document itself is a table.

## Main definitions

* `Toml.DateTime` — a date, a time of day, or both, perhaps with an offset.
* `Toml` — a value.
-/

namespace Specimen

namespace Toml

/-- A time of day. -/
structure Time where
  hour : Nat
  minute : Nat
  second : Nat
  nanosecond : Nat
deriving DecidableEq

/-- The distance from universal time. -/
inductive Offset where
  /-- Universal time itself. -/
  | utc
  /-- A distance in minutes. -/
  | minutes (negative : Bool) (n : Nat)
deriving DecidableEq

/-- A calendar day without the limits of `Date`. -/
structure Day where
  year : Nat
  month : Nat
  day : Nat
deriving DecidableEq

/-- A date, a time of day, or both. -/
structure DateTime where
  date : Option Day
  time : Option Time
  offset : Option Offset
deriving DecidableEq

/-- The written form of a day. -/
def Day.chars (d : Day) : List Char :=
  Date.padded 4 d.year ++ '-' :: Date.padded 2 d.month ++ '-' :: Date.padded 2 d.day

/-- The written form of a time of day; a fraction is written as far as needed. -/
def Time.chars (t : Time) : List Char :=
  let behind := Binary64.Decimal.trimZeros (Date.padded 9 t.nanosecond)
  Date.padded 2 t.hour ++ ':' :: Date.padded 2 t.minute ++ ':' :: Date.padded 2 t.second
    ++ if behind.isEmpty then [] else '.' :: behind

/-- The written form of an offset. -/
def Offset.chars : Offset → List Char
  | .utc => ['Z']
  | .minutes negative n =>
    (if negative ∧ n ≠ 0 then '-' else '+') :: Date.padded 2 (n / 60)
      ++ ':' :: Date.padded 2 (n % 60)

/-- The written form of a date, a time of day, or both. -/
def DateTime.text (d : DateTime) : String :=
  let date := (d.date.map Day.chars).getD []
  let time := (d.time.map Time.chars).getD []
  let offset := (d.offset.map Offset.chars).getD []
  String.ofList (date ++ (if d.date.isSome ∧ d.time.isSome then ['T'] else []) ++ time ++ offset)

end Toml

/-- A TOML value. -/
inductive Toml where
  | string (s : String)
  | integer (n : Int64)
  | float (x : Binary64)
  | boolean (b : Bool)
  | dateTime (d : Toml.DateTime)
  | array (items : List Toml)
  | table (entries : List (String × Toml))

instance : Inhabited Toml := ⟨.table []⟩

end Specimen

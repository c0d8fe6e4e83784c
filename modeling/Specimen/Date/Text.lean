import Specimen.Date.Basic
import Specimen.Text.Blank

/-!
# Dates in text

Dates are written `YYYY-MM-DD`.  Reading is more liberal than writing: white space
may stand in front of each number, months and days may have one digit, and a year
may have a sign, in which case it may have any number of digits.

## Main definitions

* `Date.text` — the written form.
* `Date.Spacing` — where else white space may stand.
* `Date.read? spacing cs` — the date that a whole text denotes.
* `Date.ofText?` — the rule for recognising dates among other texts: ten bytes that
  read as a date.
-/

namespace Specimen.Date

/-! ### Writing -/

/-- A number with leading zeros up to the given width. -/
def padded (width n : Nat) : List Char :=
  (Nat.toDigits 10 n).leftpad width '0'

/-- A year has at least four digits, and a sign when it lies outside `0` to `9999`. -/
def yearText (year : Int) : List Char :=
  if 0 ≤ year ∧ year ≤ 9999 then padded 4 year.natAbs
  else (if year < 0 then '-' else '+') :: padded 4 year.natAbs

/-- The written form of a date. -/
def chars (d : Date) : List Char :=
  yearText d.year ++ '-' :: padded 2 d.month ++ '-' :: padded 2 d.day

/-- The written form of a date. -/
def text (d : Date) : String := String.ofList d.chars

/-! ### Reading -/

/-- Where white space may stand, beyond the places in front of the numbers. -/
inductive Spacing where
  /-- Nowhere else. -/
  | tight
  /-- In front of the hyphens and at the end. -/
  | loose
deriving DecidableEq

/-- Skips the white space that is allowed in front of a hyphen or at the end. -/
def Spacing.skip : Spacing → List Char → List Char
  | .tight, cs => cs
  | .loose, cs => Text.skipBlanks cs

/-- Reads the leading digits of a text, at least one and at most the given number. -/
def readDigits (most : Nat) (cs : List Char) : Option (Nat × List Char) :=
  let digits := (cs.takeWhile Char.isDigit).take most
  if digits.isEmpty then none
  else some (Nat.ofDigitChars 10 digits 0, cs.drop digits.length)

/-- Reads a year: without a sign up to four digits, with one as many as there are. -/
def readYear (cs : List Char) : Option (Int × List Char) :=
  match Text.skipBlanks cs with
  | '-' :: rest => (readDigits rest.length rest).map fun (n, rest) => (-(n : Int), rest)
  | '+' :: rest => (readDigits rest.length rest).map fun (n, rest) => ((n : Int), rest)
  | rest => (readDigits 4 rest).map fun (n, rest) => ((n : Int), rest)

/-- Reads a month or a day of one or two digits. -/
def readPart (cs : List Char) : Option (Nat × List Char) :=
  readDigits 2 (Text.skipBlanks cs)

/-- Reads a hyphen. -/
def readHyphen (spacing : Spacing) (cs : List Char) : Option (List Char) :=
  match spacing.skip cs with
  | '-' :: rest => some rest
  | _ => none

/-- The date that the whole text denotes. -/
def read? (spacing : Spacing) (cs : List Char) : Option Date := do
  let (year, cs) ← readYear cs
  let cs ← readHyphen spacing cs
  let (month, cs) ← readPart cs
  let cs ← readHyphen spacing cs
  let (day, cs) ← readPart cs
  if (spacing.skip cs).isEmpty then of? year month day else none

/-- The date that a text is recognised as.  Only texts of exactly ten bytes are
candidates. -/
def ofText? (s : String) : Option Date :=
  if s.utf8ByteSize = 10 then read? .tight s.toList else none

end Specimen.Date

import Specimen.Json.Reader
import Specimen.Toml.Basic

/-!
# TOML scalars

Strings, keys, numbers, truth values and times: the parts of a TOML document that do
not contain others.  Each reader takes a text and answers the value and the text
behind it.

## Main definitions

* `skipBlanks`, `skipTrivia`, `endLine` — what may stand between values.
* `readString`, `readKey` — quoted texts, and keys with dots.
* `readInteger`, `readFloat`, `readDateTime` — values that start with a digit or a sign.
* `readScalar` — any of these.
-/

namespace Specimen.Toml

open Binary64 (Decimal Magnitude)
attribute [local instance (high)] instPowNat

/-- White space inside a line. -/
def isBlank (c : Char) : Bool := c == ' ' || c == '\t'

/-- What is left once leading white space is dropped. -/
def skipBlanks (cs : List Char) : List Char := cs.dropWhile isBlank

/-- Control characters other than the tab occur nowhere. -/
def isPrintable (c : Char) : Bool := c == '\t' || (0x20 ≤ c.toNat && c.toNat != 0x7F)

/-- What is left behind a line break, if one comes next. -/
def lineBreak? : List Char → Option (List Char)
  | '\n' :: rest => some rest
  | '\r' :: '\n' :: rest => some rest
  | _ => none

/-- What is left behind the end of a line, which may hold a comment. -/
def endLine (cs : List Char) : Option (List Char) :=
  let rest := match skipBlanks cs with
    | '#' :: rest => rest.dropWhile isPrintable
    | rest => rest
  if rest.isEmpty then some [] else lineBreak? rest

/-- Skips white space, line breaks and comments.  A comment ends with its line. -/
def skipTrivia (inComment : Bool) : List Char → Option (List Char)
  | [] => if inComment then none else some []
  | '\n' :: rest => skipTrivia false rest
  | '\r' :: '\n' :: rest => skipTrivia false rest
  | c :: rest =>
    if inComment then if isPrintable c then skipTrivia true rest else none
    else if isBlank c then skipTrivia false rest
    else if c = '#' then skipTrivia true rest
    else some (c :: rest)

/-! ### Strings -/

/-- The character that a letter behind a backslash stands for. -/
def escape? : Char → Option Char
  | '"' => some '"'
  | '\\' => some '\\'
  | 'b' => some '\x08'
  | 'f' => some '\x0c'
  | 'n' => some '\n'
  | 'r' => some '\r'
  | 't' => some '\t'
  | _ => none

/-- The character with the code point that hexadecimal digits denote. -/
def codePoint? (digits : List Char) : Option Char := do
  let values ← digits.mapM Json.hexDigit?
  let n := values.foldl (fun n d => 16 * n + d) 0
  if n < 0xD800 ∨ 0xE000 ≤ n ∧ n < 0x110000 then some (Char.ofNat n) else none

/-- Puts a character in front of what has been read. -/
def push (c : Char) : Option (List Char × List Char) → Option (List Char × List Char) :=
  Option.map fun (cs, rest) => (c :: cs, rest)

/-- A text in double quotes, up to its closing quote. -/
def readBasic : List Char → Option (List Char × List Char)
  | [] => none
  | '"' :: rest => some ([], rest)
  | '\\' :: 'u' :: a :: b :: c :: d :: rest => do
    push (← codePoint? [a, b, c, d]) (readBasic rest)
  | '\\' :: 'U' :: a :: b :: c :: d :: e :: f :: g :: h :: rest => do
    push (← codePoint? [a, b, c, d, e, f, g, h]) (readBasic rest)
  | '\\' :: c :: rest => do push (← escape? c) (readBasic rest)
  | c :: rest => if isPrintable c && c != '\\' then push c (readBasic rest) else none

/-- A backslash ends the line: nothing but white space comes before the line break. -/
def endsLine (cs : List Char) : Bool := (lineBreak? (skipBlanks cs)).isSome

/-- A text in three double quotes, up to its closing quotes; up to two more quotes may
stand in front of them.  A backslash at the end of a line joins it with the next line
that is not blank. -/
def readMultiBasic (joining : Bool) : List Char → Option (List Char × List Char)
  | [] => none
  | '"' :: '"' :: '"' :: '"' :: '"' :: rest => some (['"', '"'], rest)
  | '"' :: '"' :: '"' :: '"' :: rest => some (['"'], rest)
  | '"' :: '"' :: '"' :: rest => some ([], rest)
  | '\n' :: rest =>
    if joining then readMultiBasic true rest else push '\n' (readMultiBasic false rest)
  | '\r' :: '\n' :: rest =>
    if joining then readMultiBasic true rest else push '\n' (readMultiBasic false rest)
  | '\\' :: 'u' :: a :: b :: c :: d :: rest => do
    push (← codePoint? [a, b, c, d]) (readMultiBasic false rest)
  | '\\' :: 'U' :: a :: b :: c :: d :: e :: f :: g :: h :: rest => do
    push (← codePoint? [a, b, c, d, e, f, g, h]) (readMultiBasic false rest)
  | '\\' :: c :: rest =>
    if endsLine (c :: rest) then readMultiBasic true (c :: rest)
    else do push (← escape? c) (readMultiBasic false rest)
  | c :: rest =>
    if joining && isBlank c then readMultiBasic true rest
    else if isPrintable c && c != '\\' then push c (readMultiBasic false rest)
    else none

/-- A text in single quotes, up to its closing quote. -/
def readLiteral : List Char → Option (List Char × List Char)
  | [] => none
  | '\'' :: rest => some ([], rest)
  | c :: rest => if isPrintable c then push c (readLiteral rest) else none

/-- A text in three single quotes, up to its closing quotes. -/
def readMultiLiteral : List Char → Option (List Char × List Char)
  | [] => none
  | '\'' :: '\'' :: '\'' :: '\'' :: '\'' :: rest => some (['\'', '\''], rest)
  | '\'' :: '\'' :: '\'' :: '\'' :: rest => some (['\''], rest)
  | '\'' :: '\'' :: '\'' :: rest => some ([], rest)
  | '\n' :: rest => push '\n' (readMultiLiteral rest)
  | '\r' :: '\n' :: rest => push '\n' (readMultiLiteral rest)
  | c :: rest => if isPrintable c then push c (readMultiLiteral rest) else none

/-- A line break right behind the opening quotes does not count. -/
def skipFirstBreak (cs : List Char) : List Char := (lineBreak? cs).getD cs

/-- A text in quotes of any form. -/
def readString : List Char → Option (List Char × List Char)
  | '"' :: '"' :: '"' :: rest => readMultiBasic false (skipFirstBreak rest)
  | '"' :: rest => readBasic rest
  | '\'' :: '\'' :: '\'' :: rest => readMultiLiteral (skipFirstBreak rest)
  | '\'' :: rest => readLiteral rest
  | _ => none

/-! ### Keys -/

/-- The characters of a key without quotes. -/
def isKeyChar (c : Char) : Bool := c.isAlphanum || c == '_' || c == '-'

/-- One part of a key. -/
def readPart : List Char → Option (String × List Char)
  | '"' :: rest => (readBasic rest).map fun (cs, rest) => (String.ofList cs, rest)
  | '\'' :: rest => (readLiteral rest).map fun (cs, rest) => (String.ofList cs, rest)
  | cs =>
    let part := cs.takeWhile isKeyChar
    if part.isEmpty then none else some (String.ofList part, cs.dropWhile isKeyChar)

/-- The parts of a key, of which there may be only so many, with the white space behind
them. -/
def readKey : Nat → List Char → Option (List String × List Char)
  | 0, _ => none
  | parts + 1, cs => do
    let (part, rest) ← readPart (skipBlanks cs)
    match skipBlanks rest with
    | '.' :: rest =>
      let (others, rest) ← readKey parts rest
      return (part :: others, rest)
    | rest => return ([part], rest)

/-! ### Numbers -/

/-- Digits of the given class, with single underscores between them. -/
def digitRun (isDigit : Char → Bool) : List Char → List Char × List Char
  | [] => ([], [])
  | c :: rest =>
    if isDigit c then
      let (digits, rest) := digitRun isDigit rest
      (c :: digits, rest)
    else if c = '_' then
      match rest with
      | d :: _ => if isDigit d then digitRun isDigit rest else ([], c :: rest)
      | [] => ([], [c])
    else ([], c :: rest)

/-- At least one digit of the given class. -/
def readRun (isDigit : Char → Bool) : List Char → Option (List Char × List Char)
  | c :: rest => if isDigit c then some (digitRun isDigit (c :: rest)) else none
  | [] => none

/-- A sign, if there is one. -/
def readSign : List Char → Bool × List Char
  | '-' :: rest => (true, rest)
  | '+' :: rest => (false, rest)
  | rest => (false, rest)

/-- A whole number; more than one digit must not start with zero. -/
def readWhole : List Char → Option (List Char × List Char)
  | '0' :: rest => some (['0'], rest)
  | rest => readRun Char.isDigit rest

/-- The value of digits in a base. -/
def valueOf (base : Nat) (digits : List Char) : Nat :=
  digits.foldl (fun n c => base * n + (Json.hexDigit? c).getD 0) 0

/-- An integer that fits into a signed word. -/
def integerOf? (n : Int) : Option Toml :=
  if -2 ^ (63 : Nat) ≤ n ∧ n < 2 ^ (63 : Nat) then some (.integer (.ofInt n)) else none

/-- An integer, in decimal or behind `0x`, `0o` or `0b` in another base. -/
def readInteger : List Char → Option (Toml × List Char)
  | '0' :: 'x' :: rest => do
    let (digits, rest) ← readRun (fun c => (Json.hexDigit? c).isSome) rest
    return (← integerOf? (valueOf 16 digits), rest)
  | '0' :: 'o' :: rest => do
    let (digits, rest) ← readRun (fun c => '0' ≤ c && c ≤ '7') rest
    return (← integerOf? (valueOf 8 digits), rest)
  | '0' :: 'b' :: rest => do
    let (digits, rest) ← readRun (fun c => c == '0' || c == '1') rest
    return (← integerOf? (valueOf 2 digits), rest)
  | cs => do
    let (negative, rest) := readSign cs
    let (digits, rest) ← readWhole rest
    let n : Int := valueOf 10 digits
    return (← integerOf? (if negative then -n else n), rest)

/-- The digits behind a point. -/
def readFraction : List Char → Option (List Char × List Char)
  | '.' :: rest => readRun Char.isDigit rest
  | _ => none

/-- An exponent. -/
def readExponent : List Char → Option (Int × List Char)
  | c :: rest =>
    if c = 'e' ∨ c = 'E' then do
      let (negative, rest) := readSign rest
      let (digits, rest) ← readRun Char.isDigit rest
      let n : Int := valueOf 10 digits
      return (if negative then -n else n, rest)
    else none
  | [] => none

/-- A float with a fraction, an exponent, or both.  Positive numbers must not be too
large for a double. -/
def readDecimal (cs : List Char) : Option (Toml × List Char) := do
  let (negative, rest) := readSign cs
  let (whole, rest) ← readWhole rest
  let (fraction, rest) := (readFraction rest).getD ([], rest)
  let (exponent, behind) := (readExponent rest).getD (0, rest)
  if fraction.isEmpty && behind.length == rest.length then none
  let m := Magnitude.ofScientific ⟨valueOf 10 (whole ++ fraction), exponent - fraction.length⟩
  if m.isFinite || negative then return (.float (.number negative m), behind) else none

/-- A float that is no number or not finite. -/
def readSpecial (cs : List Char) : Option (Toml × List Char) :=
  match readSign cs with
  | (negative, 'i' :: 'n' :: 'f' :: rest) => some (.float (.number negative .infinity), rest)
  | (_, 'n' :: 'a' :: 'n' :: rest) => some (.float .nan, rest)
  | _ => none

/-! ### Times -/

/-- A number of exactly the given count of digits. -/
def readFixed (count : Nat) (cs : List Char) : Option (Nat × List Char) :=
  let digits := cs.take count
  if digits.length = count ∧ digits.all Char.isDigit then
    some (valueOf 10 digits, cs.drop count)
  else none

/-- The text behind the given character, if it comes next. -/
def expect (c : Char) : List Char → Option (List Char)
  | d :: rest => if c = d then some rest else none
  | [] => none

/-- A number of two digits up to the given one. -/
def readUpTo (most : Nat) (cs : List Char) : Option (Nat × List Char) := do
  let (n, rest) ← readFixed 2 cs
  if n ≤ most then some (n, rest) else none

/-- A calendar day. -/
def readDay (cs : List Char) : Option (Day × List Char) := do
  let (year, rest) ← readFixed 4 cs
  let rest ← expect '-' rest
  let (month, rest) ← readFixed 2 rest
  let rest ← expect '-' rest
  let (day, rest) ← readFixed 2 rest
  if 1 ≤ day ∧ day ≤ Calendar.daysInMonth year month then some (⟨year, month, day⟩, rest)
  else none

/-- The nanoseconds of a fraction of a second; further digits are dropped. -/
def readNanoseconds : List Char → Option (Nat × List Char)
  | '.' :: rest =>
    let digits := rest.takeWhile Char.isDigit
    if digits.isEmpty then none
    else some (valueOf 10 ((digits ++ List.replicate 9 '0').take 9), rest.dropWhile Char.isDigit)
  | rest => some (0, rest)

/-- A time of day.  A minute may have a leap second. -/
def readTime (cs : List Char) : Option (Time × List Char) := do
  let (hour, rest) ← readUpTo 23 cs
  let rest ← expect ':' rest
  let (minute, rest) ← readUpTo 59 rest
  let rest ← expect ':' rest
  let (second, rest) ← readUpTo 60 rest
  let (nanosecond, rest) ← readNanoseconds rest
  return (⟨hour, minute, second, nanosecond⟩, rest)

/-- An offset, if there is one. -/
def readOffset (cs : List Char) : Option (Option Offset × List Char) :=
  match cs with
  | c :: rest =>
    if c = 'Z' ∨ c = 'z' then some (some .utc, rest)
    else if c = '+' ∨ c = '-' then do
      let (hour, rest) ← readUpTo 23 rest
      let rest ← expect ':' rest
      let (minute, rest) ← readUpTo 59 rest
      return (some (.minutes (c == '-') (60 * hour + minute)), rest)
    else some (none, cs)
  | [] => some (none, [])

/-- A time of day with its offset, behind a date. -/
def readTimeOfDay : List Char → Option ((Time × Option Offset) × List Char)
  | c :: rest =>
    if c = 'T' ∨ c = 't' ∨ c = ' ' then do
      let (time, rest) ← readTime rest
      let (offset, rest) ← readOffset rest
      return ((time, offset), rest)
    else none
  | [] => none

/-- A date, a date with a time of day, or a time of day. -/
def readDateTime (cs : List Char) : Option (Toml × List Char) :=
  match readDay cs with
  | some (day, rest) =>
    match readTimeOfDay rest with
    | some ((time, offset), rest) => some (.dateTime ⟨some day, some time, offset⟩, rest)
    | none => some (.dateTime ⟨some day, none, none⟩, rest)
  | none => (readTime cs).map fun (time, rest) => (.dateTime ⟨none, some time, none⟩, rest)

/-! ### Any scalar -/

/-- A value that does not contain others. -/
def readScalar : List Char → Option (Toml × List Char)
  | 't' :: 'r' :: 'u' :: 'e' :: rest => some (.boolean true, rest)
  | 'f' :: 'a' :: 'l' :: 's' :: 'e' :: rest => some (.boolean false, rest)
  | '"' :: rest =>
    (readString ('"' :: rest)).map fun (cs, rest) => (.string (String.ofList cs), rest)
  | '\'' :: rest =>
    (readString ('\'' :: rest)).map fun (cs, rest) => (.string (String.ofList cs), rest)
  | cs => readDateTime cs <|> readDecimal cs <|> readSpecial cs <|> readInteger cs

end Specimen.Toml

import Specimen.Binary64.Decimal
import Specimen.Json.Basic
import Specimen.Text.Numeral

/-!
# Writing JSON text

JSON values are written without spaces and in ASCII: every other character is
escaped, as a surrogate pair when it lies beyond the basic plane.

## Main definitions

* `Json.quote s` — a string between quotes.
* `Json.render` — the text of a value.
-/

namespace Specimen.Json

/-- Four hexadecimal digits behind `\u`. -/
def escapeUnit (unit : Nat) : List Char :=
  '\\' :: 'u' :: (Nat.toDigits 16 unit).leftpad 4 '0'

/-- The written form of a character inside a string. -/
def escapeChar (c : Char) : List Char :=
  if c = '"' then ['\\', '"']
  else if c = '\\' then ['\\', '\\']
  else if 0x20 ≤ c.toNat ∧ c.toNat < 0x7F then [c]
  else if c.toNat < 0x10000 then escapeUnit c.toNat
  else
    let offset := c.toNat - 0x10000
    escapeUnit (0xD800 + offset / 0x400) ++ escapeUnit (0xDC00 + offset % 0x400)

/-- A string between quotes. -/
def quote (s : String) : String :=
  String.ofList ('"' :: s.toList.flatMap escapeChar ++ ['"'])

/-- The text of a number.  A double keeps a point, so that it stays a double. -/
def Number.render : Number → String
  | .integer n _ => String.ofList (Text.numeral n)
  | .real x _ => if x.text.contains '.' then x.text else x.text ++ ".0"

mutual

/-- The text of a value. -/
def render : Json → String
  | .null => "null"
  | .bool true => "true"
  | .bool false => "false"
  | .number n => n.render
  | .string s => quote s
  | .array items => "[" ++ ",".intercalate (renderItems items) ++ "]"
  | .object members => "\x7b" ++ ",".intercalate (renderMembers members) ++ "\x7d"

/-- The texts of the items of an array. -/
def renderItems : List Json → List String
  | [] => []
  | item :: items => item.render :: renderItems items

/-- The texts of the members of an object. -/
def renderMembers : List (String × Json) → List String
  | [] => []
  | (name, value) :: members => (quote name ++ ":" ++ value.render) :: renderMembers members

end

end Specimen.Json

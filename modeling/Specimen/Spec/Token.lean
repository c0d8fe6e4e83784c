import Specimen.Spec.Error
import Specimen.Text.Blank

/-!
# Tokens of spec strings

A spec string is a sequence of words, number literals and the symbols `<`, `>`, `[`
and `]`, with white space anywhere between them.  Words and literals are as long as
they can be.

## Main definitions

* `Token` — a lexical unit, with its written form `Token.text`.
* `Token.scan` — the tokens of a text, or its first lexical fault.
-/

namespace Specimen.Spec

/-- A lexical unit of a spec string. -/
inductive Token where
  | word (name : String)
  | literal (l : Literal)
  | less
  | greater
  | openBracket
  | closeBracket
deriving DecidableEq

namespace Token

/-- The written form. -/
def text : Token → String
  | .word name => name
  | .literal l => l.text
  | .less => "<"
  | .greater => ">"
  | .openBracket => "["
  | .closeBracket => "]"

/-- The token of a single character, if it is one. -/
def symbol? (c : Char) : Option Token :=
  if c = '<' then some .less
  else if c = '>' then some .greater
  else if c = '[' then some .openBracket
  else if c = ']' then some .closeBracket
  else none

/-- A word goes on with ASCII letters, digits and underscores. -/
def isWordChar (c : Char) : Bool := c.isAlphanum || c == '_'

/-- A literal starts with a digit, a point or a minus sign. -/
def startsLiteral (c : Char) : Bool := c.isDigit || c == '.' || c == '-'

/-- A literal goes on with digits and points. -/
def isLiteralChar (c : Char) : Bool := c.isDigit || c == '.'

/-- The tokens of a text.  The first character that starts no token, or the first
literal that is malformed, is the fault of the whole. -/
def scan : List Char → Except GrammarFault (List Token)
  | [] => .ok []
  | c :: cs =>
    if Text.isBlank c then scan cs
    else match symbol? c with
    | some token => (scan cs).map (token :: ·)
    | none =>
      if c.isAlpha then
        let name := c :: cs.takeWhile isWordChar
        (scan (cs.dropWhile isWordChar)).map (.word (String.ofList name) :: ·)
      else if startsLiteral c then
        let literal := c :: cs.takeWhile isLiteralChar
        match Literal.ofChars? literal with
        | some l => (scan (cs.dropWhile isLiteralChar)).map (.literal l :: ·)
        | none => .error (.malformedLiteral (String.ofList literal))
      else .error (.unexpectedCharacter c)
termination_by cs => cs.length
decreasing_by
  all_goals
    simp only [List.length_cons]
    first
    | exact Nat.lt_succ_self _
    | exact Nat.lt_succ_of_le (List.dropWhile_sublist _).length_le

end Token

end Specimen.Spec

/-!
# White space

Spec strings and dates may be spaced out by any character with the Unicode
property `White_Space`.  The class is wider than the blanks of ASCII, and it is
not the class of characters that merely look empty: the zero-width space and the
byte order mark are outside it.

## Main definitions

* `blankRanges` — the code points with the property, as closed ranges.
* `isBlank c` — the character `c` has the property.
* `skipBlanks cs` — the characters from the first one that is not white space on.
-/

namespace Specimen.Text

/-- The code points with the property `White_Space`, as closed ranges. -/
def blankRanges : List (Nat × Nat) :=
  [(0x09, 0x0D), (0x20, 0x20), (0x85, 0x85), (0xA0, 0xA0), (0x1680, 0x1680),
   (0x2000, 0x200A), (0x2028, 0x2029), (0x202F, 0x202F), (0x205F, 0x205F), (0x3000, 0x3000)]

/-- The character has the property `White_Space`. -/
def isBlank (c : Char) : Bool :=
  blankRanges.any fun range => range.1 ≤ c.toNat && c.toNat ≤ range.2

/-- What is left once leading white space is dropped. -/
def skipBlanks (cs : List Char) : List Char :=
  cs.dropWhile isBlank

@[simp] theorem skipBlanks_nil : skipBlanks [] = [] := rfl

/-- White space in front of a text does not show after it is skipped. -/
@[simp] theorem skipBlanks_cons_of_isBlank {c : Char} (h : isBlank c = true) (cs : List Char) :
    skipBlanks (c :: cs) = skipBlanks cs := by
  simp [skipBlanks, h]

/-- A text that starts with another character is left alone. -/
theorem skipBlanks_cons_of_not_isBlank {c : Char} (h : isBlank c = false) (cs : List Char) :
    skipBlanks (c :: cs) = c :: cs := by
  simp [skipBlanks, h]

end Specimen.Text

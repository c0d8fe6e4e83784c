import Specimen.Spec.Rule
import Specimen.Spec.Token

/-!
# The grammar of spec strings

A spec is one of

* a word: `skip`, `boolean`, `date`, `string`, `integer`, `decimal` or `number`, where
  `number` is another word for `decimal`;
* `string[n]` with a length;
* a numeric word with one bound behind it, as in `integer > 5`;
* a numeric word between two bounds, as in `0.5 < decimal < 2`.

Words are case-sensitive, and white space may stand between any two tokens.

## Main definitions

* `Rule.ofTokens` — the rule that a sequence of tokens denotes.
* `Spec.parse` — the rule that a spec string denotes.
* `Rule.suits`, `Spec.check` — whether a rule may be used for a field of a category.
-/

namespace Specimen.Spec

/-- The two kinds of numbers. -/
inductive NumericKind where
  | integer
  | decimal
deriving DecidableEq

/-- The kind of numbers that a word names, if bounds may be put on it. -/
def NumericKind.ofWord (word : String) : Except Fault NumericKind :=
  if word = "integer" then .ok .integer
  else if word = "number" ∨ word = "decimal" then .ok .decimal
  else .error (.grammar (.unboundable word))

/-! ### Bounds -/

/-- An integer bound is written without a point and fits into a signed word. -/
def Literal.integerBound (l : Literal) : Except Fault Int64 :=
  if l.fraction.isSome then .error (.nonIntegerBound l)
  else match l.integer? with
  | some n => .ok n
  | none => .error (.grammar (.integerOutOfRange l))

/-- A decimal bound is not too large for a double. -/
def Literal.decimalBound (l : Literal) : Except Fault Binary64 :=
  l.binary64?.elim (.error (.grammar (.numberOutOfRange l))) .ok

/-! ### Sentences -/

namespace Rule

/-- The rule of a single word. -/
def ofWord (word : String) : Except Fault Rule :=
  if word = "skip" then .ok .skip
  else if word = "boolean" then .ok .boolean
  else if word = "date" then .ok .date
  else if word = "string" then .ok (.string none)
  else if word = "integer" then .ok (.integer .any)
  else if word = "number" ∨ word = "decimal" then .ok (.decimal .any)
  else .error (.grammar (.unknownKind word))

/-- The rule of texts with a given length. -/
def ofLength (l : Literal) : Except Fault Rule :=
  match l.natural? with
  | some n => .ok (.string (some n))
  | none => .error (.grammar (.invalidLength l))

/-- The rule of numbers below a bound. -/
def ofUpper (kind : NumericKind) (upper : Literal) : Except Fault Rule :=
  match kind with
  | .decimal => upper.decimalBound.map fun x => .decimal (.below x)
  | .integer => upper.integerBound.map fun n => .integer (.below n)

/-- The rule of numbers above a bound. -/
def ofLower (kind : NumericKind) (lower : Literal) : Except Fault Rule :=
  match kind with
  | .decimal => lower.decimalBound.map fun x => .decimal (.above x)
  | .integer => lower.integerBound.map fun n => .integer (.above n)

/-- The rule of numbers between two bounds.  Bounds of either kind are first compared
as doubles; integer bounds must also leave an integer between them. -/
def ofBounds (kind : NumericKind) (lower upper : Literal) : Except Fault Rule := do
  let x ← lower.decimalBound
  let y ← upper.decimalBound
  if x.ge y then .error (.boundOrder lower upper)
  else match kind with
  | .decimal => .ok (.decimal (.between x y))
  | .integer => do
    let m ← lower.integerBound
    let n ← upper.integerBound
    if n.toInt - m.toInt < 2 then .error .emptyRange else .ok (.integer (.between m n))

/-- The rule that a sequence of tokens denotes. -/
def ofTokens : List Token → Except Fault Rule
  | [] => .error (.grammar .empty)
  | [.word word] => ofWord word
  | [.word word, .openBracket, .literal length, .closeBracket] =>
    if word = "string" then ofLength length else .error (.grammar .unrecognized)
  | [.word word, .less, .literal upper] => do ofUpper (← NumericKind.ofWord word) upper
  | [.word word, .greater, .literal lower] => do ofLower (← NumericKind.ofWord word) lower
  | [.literal lower, .less, .word word, .less, .literal upper] => do
    ofBounds (← NumericKind.ofWord word) lower upper
  | _ => .error (.grammar .unrecognized)

end Rule

/-- The tokens of a spec string. -/
def scan (spec : String) : Except Error (List Token) :=
  (Token.scan spec.toList).mapError fun fault => ⟨spec, .grammar fault⟩

/-- The rule that a spec string denotes. -/
def parse (spec : String) : Except Error Rule := do
  let tokens ← scan spec
  (Rule.ofTokens tokens).mapError fun fault => ⟨spec, fault⟩

/-! ### Compatibility -/

/-- A rule suits the fields whose values it could have made.  Leaving out suits every
field, an open field takes every rule, and a date may be replaced by a text. -/
def Rule.suits : Rule → Category → Bool
  | .skip, _ => true
  | _, .null => true
  | .boolean, .boolean => true
  | .string _, .string => true
  | .string _, .date => true
  | .integer _, .number => true
  | .decimal _, .number => true
  | .date, .date => true
  | _, _ => false

/-- Refuses a rule that does not suit the category. -/
def check (spec : String) (rule : Rule) (category : Category) : Except Error Unit :=
  if rule.suits category then .ok () else .error ⟨spec, .incompatible category⟩

end Specimen.Spec

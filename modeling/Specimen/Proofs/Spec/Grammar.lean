import Specimen.Proofs.Binary64.Nearest
import Specimen.Proofs.Spec.Scanning

/-!
# The grammar of spec strings

The parser against the grammar that it is written for.  The grammar says which texts are
sentences and what a sentence means; it knows of no scanner, of no patterns of tokens and of
no order of checks.  What the parser accepts is a sentence with its meaning, and every
sentence whose numbers are in range is accepted.  The one exception are integers between two
bounds: the parser compares the bounds as doubles first, and so may refuse large bounds that
are apart.  What is no sentence is refused for its grammar alone.

## Main definitions

* `Literal.IsInteger l n`, `Literal.RoundsTo l x` — the number that a bound stands for.
* `Sentence.Grammatical q` — the length of a text is written with digits alone.
* `Sentence.WrittenAs q spec` — the string is the text of the sentence.
* `Sentence.Means q r` — the rule is the meaning of the sentence.
* `Sentence.rule q` — the rule that the parser gives to a sentence.

## Main statements

* `Literal.roundsTo_iff` — a number is read as the double nearest to it.
* `parse_of_writtenAs` — the parser reads the sentence that is written.
* `parse_eq_ok_iff_of_writtenAs` — it accepts a sentence with its meaning.
* `exists_fault_of_not_writtenAs` — it refuses what is no sentence.
* `parse_accepts_grammar` — the parser accepts the grammar.
-/

namespace Specimen.Spec

open Binary64 (IsNearest Magnitude ofDecimal)

/-! ### Meaning -/

/-- The number is written without a point, and is that of a signed word. -/
def Literal.IsInteger (l : Literal) (n : Int64) : Prop :=
  l.fraction = none ∧ (n.toInt : ℚ) = l.value

/-- The double is the one nearest to the number that is written, and it is finite.  Its sign is the
one that is written, and no magnitude is nearer to the number without its sign; of two that are
equally near, it has the even one.  A number that is nearest to no finite magnitude is rounded to
no double. -/
def Literal.RoundsTo (l : Literal) (x : Binary64) : Prop :=
  ∃ m : Magnitude, m.isFinite = true ∧ IsNearest m.ordinal |l.value| ∧ x = .number l.negative m

/-- **The double that a number is rounded to is the one that the number is read as.** -/
theorem Literal.roundsTo_iff {l : Literal} {x : Binary64} :
    l.RoundsTo x ↔ x = ofDecimal l.negative l.decimal ∧ x.isFinite = true := by
  rw [RoundsTo, ← toRat_decimal, Binary64.Decimal.abs_toRat]
  constructor
  · rintro ⟨m, hfinite, hnearest, rfl⟩
    rw [ofDecimal, (Binary64.Decimal.isNearest_iff hfinite).mp hnearest]
    exact ⟨rfl, hfinite⟩
  · rintro ⟨rfl, hfinite⟩
    exact ⟨l.decimal.magnitude, hfinite, (Binary64.Decimal.isNearest_iff hfinite).mpr rfl, rfl⟩

theorem Literal.RoundsTo.isFinite {l : Literal} {x : Binary64} (h : l.RoundsTo x) :
    x.isFinite = true := (Literal.roundsTo_iff.mp h).2

/-- A decimal bound is read as the double that its number is rounded to. -/
theorem Literal.decimalBound_eq_ok_iff_roundsTo {l : Literal} {x : Binary64} :
    l.decimalBound = .ok x ↔ l.RoundsTo x :=
  Literal.decimalBound_eq_ok_iff.trans Literal.roundsTo_iff.symm

/-- Two integer bounds leave an integer between them. -/
def Range.HasRoom : Range Int64 → Prop
  | .between lower upper => 2 ≤ upper.toInt - lower.toInt
  | _ => True

/-- Two decimal bounds are in order, strictly. -/
def Range.InOrder : Range Binary64 → Prop
  | .between lower upper => lower.lt upper = true
  | _ => True

/-- The length of a text is written with digits alone; the other literals are free. -/
def Sentence.Grammatical : Sentence → Prop
  | .string (some length) => length.negative = false ∧ length.fraction = none
  | _ => True

/-- The string is the text of the sentence, with white space anywhere around its tokens. -/
def Sentence.WrittenAs (q : Sentence) (spec : String) : Prop :=
  q.Grammatical ∧ Token.Spelled q.tokens spec.toList

/-- The rule is the meaning of the sentence: of the kind that its word names, with the
numbers as they are written.  A sentence whose numbers are out of range has no meaning. -/
inductive Sentence.Means : Sentence → Rule → Prop
  | skip : Means .skip .skip
  | boolean : Means .boolean .boolean
  | date : Means .date .date
  | string : Means (.string none) (.string none)
  | sized {l : Literal} {n : ℕ} : (n : ℚ) = l.value → n < 2 ^ 64 →
    Means (.string (some l)) (.string (some n))
  | integer {word : NumberWord} {bounds : Range Literal} {range : Range Int64} :
    word.kind = .integer → bounds.Rel Literal.IsInteger range → range.HasRoom →
    Means (.number word bounds) (.integer range)
  | decimal {word : NumberWord} {bounds : Range Literal} {range : Range Binary64} :
    word.kind = .decimal → bounds.Rel Literal.RoundsTo range → range.InOrder →
    Means (.number word bounds) (.decimal range)

/-- The sentence asks for integers between two bounds. -/
def Sentence.IsIntegerPair (q : Sentence) : Prop :=
  ∃ lower upper, q = .number .integer (.between lower upper)

/-! ### Sentences and the parser -/

/-- The rule that the parser gives to a sentence. -/
def Sentence.rule : Sentence → Except Fault Rule
  | .skip => .ok .skip
  | .boolean => .ok .boolean
  | .date => .ok .date
  | .string none => .ok (.string none)
  | .string (some length) => Rule.ofLength length
  | .number .integer .any => .ok (.integer .any)
  | .number _ .any => .ok (.decimal .any)
  | .number word (.below upper) => Rule.ofUpper word.kind upper
  | .number word (.above lower) => Rule.ofLower word.kind lower
  | .number word (.between lower upper) => Rule.ofBounds word.kind lower upper

theorem NumericKind.ofWord_text (word : NumberWord) :
    NumericKind.ofWord word.text = .ok word.kind := by
  cases word <;> simp [ofWord, NumberWord.text, NumberWord.kind]

theorem Rule.ofTokens_tokens (q : Sentence) : Rule.ofTokens q.tokens = q.rule := by
  match q with
  | .skip | .boolean | .date | .string none =>
    simp [Sentence.tokens, ofTokens, ofWord, Sentence.rule]
  | .string (some length) => simp [Sentence.tokens, ofTokens, Sentence.rule]
  | .number word bounds =>
    have hword : NumericKind.ofWord word.text = .ok word.kind := NumericKind.ofWord_text word
    cases bounds with
    | any => cases word <;> simp [Sentence.tokens, NumberWord.text, ofTokens, ofWord, Sentence.rule]
    | below upper =>
      rw [Sentence.tokens, ofTokens, hword, ok_bind, Sentence.rule]
    | above lower =>
      rw [Sentence.tokens, ofTokens, hword, ok_bind, Sentence.rule]
    | between lower upper =>
      rw [Sentence.tokens, ofTokens, hword, ok_bind, Sentence.rule]

/-- A symbol stands on one side at least of any two neighbours in a sentence. -/
theorem Sentence.separated_tokens (q : Sentence) : Token.Separated q.tokens := by
  match q with
  | .skip | .boolean | .date | .string none | .string (some length) | .number word .any
  | .number word (.below upper) | .number word (.above lower)
  | .number word (.between lower upper) =>
    simp [Token.Separated, tokens, Token.IsSymbol]

/-- **The parser reads the sentence that is written.** -/
theorem parse_of_writtenAs {q : Sentence} {spec : String} (h : q.WrittenAs spec) :
    parse spec = q.rule.mapError fun fault => ⟨spec, fault⟩ := by
  have hscan : Token.scan spec.toList = .ok q.tokens :=
    Token.scan_of_spelled h.2 q.separated_tokens
  rw [parse, scan, hscan, ← Rule.ofTokens_tokens q]
  rfl

/-! ### What the parser makes of a sentence -/

namespace Rule

variable {lower upper : Literal} {r : Rule}

/-- A length is the number that is written, if it fits into a word. -/
theorem ofLength_eq_ok_iff {length : Literal}
    (h : length.negative = false ∧ length.fraction = none) :
    ofLength length = .ok r ↔ ∃ n : ℕ, (n : ℚ) = length.value ∧ n < 2 ^ 64 ∧
      r = .string (some n) := by
  constructor
  · intro hok
    unfold ofLength at hok
    split at hok
    · next n hn =>
      cases hok
      obtain ⟨-, hvalue, hlt⟩ := Literal.natural?_eq_some_iff.mp hn
      exact ⟨n, hvalue, hlt, rfl⟩
    · cases hok
  · rintro ⟨n, hvalue, hlt, rfl⟩
    rw [ofLength, Literal.natural?_eq_some_iff.mpr ⟨h, hvalue, hlt⟩]

theorem ofUpper_integer_eq_ok_iff :
    ofUpper .integer upper = .ok r ↔ ∃ n, upper.IsInteger n ∧ r = .integer (.below n) := by
  simp only [ofUpper, map_eq_ok_iff, Literal.integerBound_eq_ok_iff, Literal.IsInteger]

theorem ofUpper_decimal_eq_ok_iff :
    ofUpper .decimal upper = .ok r ↔ ∃ x, upper.RoundsTo x ∧ r = .decimal (.below x) := by
  simp only [ofUpper, map_eq_ok_iff, Literal.decimalBound_eq_ok_iff_roundsTo]

theorem ofLower_integer_eq_ok_iff :
    ofLower .integer lower = .ok r ↔ ∃ n, lower.IsInteger n ∧ r = .integer (.above n) := by
  simp only [ofLower, map_eq_ok_iff, Literal.integerBound_eq_ok_iff, Literal.IsInteger]

theorem ofLower_decimal_eq_ok_iff :
    ofLower .decimal lower = .ok r ↔ ∃ x, lower.RoundsTo x ∧ r = .decimal (.above x) := by
  simp only [ofLower, map_eq_ok_iff, Literal.decimalBound_eq_ok_iff_roundsTo]

/-- Two bounds of either kind are read as doubles first, and have to be in order. -/
theorem exists_doubles_of_ofBounds {kind : NumericKind} (h : ofBounds kind lower upper = .ok r) :
    ∃ x y, lower.RoundsTo x ∧ upper.RoundsTo y ∧ x.lt y = true := by
  unfold ofBounds at h
  obtain ⟨x, hx, h⟩ := of_bind_ok h
  obtain ⟨y, hy, h⟩ := of_bind_ok h
  replace hx := Literal.decimalBound_eq_ok_iff_roundsTo.mp hx
  replace hy := Literal.decimalBound_eq_ok_iff_roundsTo.mp hy
  split at h
  · cases h
  · next hge =>
    have hlt := (Binary64.ge_eq_false_iff hx.isFinite hy.isFinite).mp (Bool.eq_false_iff.mpr hge)
    exact ⟨x, y, hx, hy, hlt⟩

/-- With the doubles in order, only integer bounds are looked at again. -/
theorem ofBounds_of_doubles {kind : NumericKind} {x y : Binary64} (hx : lower.RoundsTo x)
    (hy : upper.RoundsTo y) (hlt : x.lt y = true) :
    ofBounds kind lower upper = match kind with
      | .decimal => .ok (.decimal (.between x y))
      | .integer => lower.integerBound >>= fun m => upper.integerBound >>= fun n =>
        if n.toInt - m.toInt < 2 then .error .emptyRange else .ok (.integer (.between m n)) := by
  have hge : ¬ x.ge y = true := by
    rw [(Binary64.ge_eq_false_iff hx.isFinite hy.isFinite).mpr hlt]
    exact Bool.false_ne_true
  cases kind <;>
    rw [ofBounds, Literal.decimalBound_eq_ok_iff_roundsTo.mpr hx,
      Literal.decimalBound_eq_ok_iff_roundsTo.mpr hy, ok_bind, ok_bind, if_neg hge]

theorem ofBounds_decimal_eq_ok_iff :
    ofBounds .decimal lower upper = .ok r ↔
      ∃ x y, lower.RoundsTo x ∧ upper.RoundsTo y ∧ x.lt y = true ∧
        r = .decimal (.between x y) := by
  constructor
  · intro h
    obtain ⟨x, y, hx, hy, hlt⟩ := exists_doubles_of_ofBounds h
    rw [ofBounds_of_doubles hx hy hlt] at h
    cases h
    exact ⟨x, y, hx, hy, hlt, rfl⟩
  · rintro ⟨x, y, hx, hy, hlt, rfl⟩
    rw [ofBounds_of_doubles hx hy hlt]

theorem ofBounds_integer_eq_ok_iff :
    ofBounds .integer lower upper = .ok r ↔
      (∃ x y, lower.RoundsTo x ∧ upper.RoundsTo y ∧ x.lt y = true) ∧
        ∃ m n, lower.IsInteger m ∧ upper.IsInteger n ∧ 2 ≤ n.toInt - m.toInt ∧
          r = .integer (.between m n) := by
  constructor
  · intro h
    obtain ⟨x, y, hx, hy, hlt⟩ := exists_doubles_of_ofBounds h
    refine ⟨⟨x, y, hx, hy, hlt⟩, ?_⟩
    rw [ofBounds_of_doubles hx hy hlt] at h
    obtain ⟨m, hm, h⟩ := of_bind_ok h
    obtain ⟨n, hn, h⟩ := of_bind_ok h
    split at h
    · cases h
    · next hroom =>
      cases h
      exact ⟨m, n, Literal.integerBound_eq_ok_iff.mp hm, Literal.integerBound_eq_ok_iff.mp hn,
        not_lt.mp hroom, rfl⟩
  · rintro ⟨⟨x, y, hx, hy, hlt⟩, m, n, hm, hn, hroom, rfl⟩
    rw [ofBounds_of_doubles hx hy hlt]
    dsimp only
    rw [Literal.integerBound_eq_ok_iff.mpr hm, Literal.integerBound_eq_ok_iff.mpr hn, ok_bind,
      ok_bind, if_neg (not_lt.mpr hroom)]

end Rule

namespace Sentence

/-- Integers between two bounds are also in order as doubles; nothing is asked of other
sentences. -/
def DoublesInOrder (q : Sentence) : Prop :=
  ∀ lower upper, q = .number .integer (.between lower upper) →
    ∃ x y, lower.RoundsTo x ∧ upper.RoundsTo y ∧ x.lt y = true

theorem means_of_rule {q : Sentence} {r : Rule} (hq : q.Grammatical) (h : q.rule = .ok r) :
    q.Means r ∧ q.DoublesInOrder := by
  match q with
  | .skip | .boolean | .date | .string none =>
    cases h
    exact ⟨by constructor, nofun⟩
  | .string (some length) =>
    obtain ⟨n, hvalue, hlt, rfl⟩ := (Rule.ofLength_eq_ok_iff hq).mp h
    exact ⟨.sized hvalue hlt, nofun⟩
  | .number .integer .any =>
    cases h
    exact ⟨.integer rfl .any trivial, nofun⟩
  | .number .number .any | .number .decimal .any =>
    cases h
    exact ⟨.decimal rfl .any trivial, nofun⟩
  | .number word (.below upper) =>
    rw [rule] at h
    cases hkind : word.kind with
    | integer =>
      rw [hkind] at h
      obtain ⟨n, hn, rfl⟩ := Rule.ofUpper_integer_eq_ok_iff.mp h
      exact ⟨.integer hkind (.below hn) trivial, nofun⟩
    | decimal =>
      rw [hkind] at h
      obtain ⟨x, hx, rfl⟩ := Rule.ofUpper_decimal_eq_ok_iff.mp h
      exact ⟨.decimal hkind (.below hx) trivial, nofun⟩
  | .number word (.above lower) =>
    rw [rule] at h
    cases hkind : word.kind with
    | integer =>
      rw [hkind] at h
      obtain ⟨n, hn, rfl⟩ := Rule.ofLower_integer_eq_ok_iff.mp h
      exact ⟨.integer hkind (.above hn) trivial, nofun⟩
    | decimal =>
      rw [hkind] at h
      obtain ⟨x, hx, rfl⟩ := Rule.ofLower_decimal_eq_ok_iff.mp h
      exact ⟨.decimal hkind (.above hx) trivial, nofun⟩
  | .number word (.between lower upper) =>
    rw [rule] at h
    have horder : DoublesInOrder (.number word (.between lower upper)) := by
      rintro _ _ hq
      cases hq
      exact Rule.exists_doubles_of_ofBounds h
    refine ⟨?_, horder⟩
    cases hkind : word.kind with
    | integer =>
      rw [hkind] at h
      obtain ⟨-, m, n, hm, hn, hroom, rfl⟩ := Rule.ofBounds_integer_eq_ok_iff.mp h
      exact .integer hkind (.between hm hn) hroom
    | decimal =>
      rw [hkind] at h
      obtain ⟨x, y, hx, hy, hlt, rfl⟩ := Rule.ofBounds_decimal_eq_ok_iff.mp h
      exact .decimal hkind (.between hx hy) hlt

theorem rule_of_means {q : Sentence} {r : Rule} (hq : q.Grammatical) (h : q.Means r)
    (horder : q.DoublesInOrder) : q.rule = .ok r := by
  cases h with
  | skip | boolean | date | string => rfl
  | sized hvalue hlt => exact (Rule.ofLength_eq_ok_iff hq).mpr ⟨_, hvalue, hlt, rfl⟩
  | @integer word _ _ hkind hbounds hroom =>
    obtain rfl : word = .integer := by cases word <;> first | rfl | cases hkind
    cases hbounds with
    | any => rfl
    | below hn => exact Rule.ofUpper_integer_eq_ok_iff.mpr ⟨_, hn, rfl⟩
    | above hn => exact Rule.ofLower_integer_eq_ok_iff.mpr ⟨_, hn, rfl⟩
    | between hm hn =>
      exact Rule.ofBounds_integer_eq_ok_iff.mpr ⟨horder _ _ rfl, _, _, hm, hn, hroom, rfl⟩
  | @decimal word _ _ hkind hbounds hinorder =>
    cases hbounds with
    | any => cases word <;> first | rfl | cases hkind
    | below hx =>
      rw [rule, hkind]
      exact Rule.ofUpper_decimal_eq_ok_iff.mpr ⟨_, hx, rfl⟩
    | above hx =>
      rw [rule, hkind]
      exact Rule.ofLower_decimal_eq_ok_iff.mpr ⟨_, hx, rfl⟩
    | between hx hy =>
      rw [rule, hkind]
      exact Rule.ofBounds_decimal_eq_ok_iff.mpr ⟨_, _, hx, hy, hinorder, rfl⟩

end Sentence

/-- The parser accepts a sentence exactly when it has a meaning, provided that two integer
bounds are in order as doubles too. -/
theorem parse_eq_ok_iff_of_writtenAs {q : Sentence} {spec : String} {r : Rule}
    (h : q.WrittenAs spec) : parse spec = .ok r ↔ q.Means r ∧ q.DoublesInOrder := by
  rw [parse_of_writtenAs h]
  constructor
  · intro hparse
    cases hrule : q.rule with
    | error fault => rw [hrule] at hparse; cases hparse
    | ok r' =>
      rw [hrule] at hparse
      cases hparse
      exact Sentence.means_of_rule h.1 hrule
  · rintro ⟨hmeans, horder⟩
    rw [Sentence.rule_of_means h.1 hmeans horder]
    rfl

/-! ### Texts that are no sentences -/

theorem Sentence.Denotes.grammatical {q : Sentence} {r : Rule} (h : q.Denotes r) :
    q.Grammatical := by
  cases h with
  | sized hlength => exact (Literal.natural?_eq_some_iff.mp hlength).1
  | skip | boolean | date | string | integer | decimal => trivial

/-- What is accepted is a sentence. -/
theorem exists_writtenAs_of_parse {spec : String} {r : Rule} (h : parse spec = .ok r) :
    ∃ q : Sentence, q.WrittenAs spec := by
  obtain ⟨q, -, hspelled, hdenotes⟩ := exists_sentence_of_parse h
  exact ⟨q, hdenotes.grammatical, hspelled⟩

private theorem exists_word_or_fault (word : String) (f : NumericKind → Except Fault Rule) :
    (∃ w : NumberWord, w.text = word) ∨
      ∃ fault, (NumericKind.ofWord word >>= f) = .error (.grammar fault) := by
  cases hkind : NumericKind.ofWord word with
  | ok kind =>
    obtain ⟨w, hw, -⟩ := exists_word_of_ofWord hkind
    exact Or.inl ⟨w, hw⟩
  | error fault =>
    unfold NumericKind.ofWord at hkind
    split_ifs at hkind
    cases hkind
    exact Or.inr ⟨_, rfl⟩

/-- Only sentences are refused for their numbers. -/
theorem exists_sentence_or_fault (ts : List Token) :
    (∃ q : Sentence, q.Grammatical ∧ q.tokens = ts) ∨
      ∃ fault, Rule.ofTokens ts = .error (.grammar fault) := by
  cases hrule : Rule.ofTokens ts with
  | ok r =>
    obtain ⟨q, htokens, hdenotes⟩ := exists_sentence_of_ofTokens hrule
    exact Or.inl ⟨q, hdenotes.grammatical, htokens⟩
  | error fault =>
    unfold Rule.ofTokens at hrule
    split at hrule
    · cases hrule
      exact Or.inr ⟨_, rfl⟩
    · unfold Rule.ofWord at hrule
      split_ifs at hrule
      cases hrule
      exact Or.inr ⟨_, rfl⟩
    · -- a length that is refused is no number, or too large a one
      split at hrule
      · unfold Rule.ofLength at hrule
        split at hrule
        · cases hrule
        · cases hrule
          exact Or.inr ⟨_, rfl⟩
      · cases hrule
        exact Or.inr ⟨_, rfl⟩
    · next word upper =>
      rcases exists_word_or_fault word fun kind => Rule.ofUpper kind upper with ⟨w, rfl⟩ | ⟨f, hf⟩
      · exact Or.inl ⟨.number w (.below upper), trivial, rfl⟩
      · exact Or.inr ⟨f, hrule.symm.trans hf⟩
    · next word lower =>
      rcases exists_word_or_fault word fun kind => Rule.ofLower kind lower with ⟨w, rfl⟩ | ⟨f, hf⟩
      · exact Or.inl ⟨.number w (.above lower), trivial, rfl⟩
      · exact Or.inr ⟨f, hrule.symm.trans hf⟩
    · next lower word upper =>
      rcases exists_word_or_fault word fun kind => Rule.ofBounds kind lower upper with
        ⟨w, rfl⟩ | ⟨f, hf⟩
      · exact Or.inl ⟨.number w (.between lower upper), trivial, rfl⟩
      · exact Or.inr ⟨f, hrule.symm.trans hf⟩
    · cases hrule
      exact Or.inr ⟨_, rfl⟩

/-- What is no sentence is refused for its grammar, whatever numbers it holds. -/
theorem exists_fault_of_not_writtenAs {spec : String} (h : ∀ q : Sentence, ¬ q.WrittenAs spec) :
    ∃ fault, parse spec = .error ⟨spec, .grammar fault⟩ := by
  cases hscan : Token.scan spec.toList with
  | error fault =>
    refine ⟨fault, ?_⟩
    rw [parse, scan, hscan]
    rfl
  | ok ts =>
    have hspelled := Token.spelled_of_scan hscan
    rcases exists_sentence_or_fault ts with ⟨q, hq, rfl⟩ | ⟨fault, hfault⟩
    · exact absurd ⟨hq, hspelled⟩ (h q)
    · refine ⟨fault, ?_⟩
      rw [parse, scan, hscan]
      change (Rule.ofTokens ts).mapError _ = _
      rw [hfault]
      rfl

/-- **The parser accepts its grammar.**  What it accepts is a sentence, written with any
white space around its tokens, and the rule is the meaning of the sentence.  A sentence that
has a meaning is accepted with it, but for integers between two bounds.  What is no sentence
is refused for its grammar alone. -/
theorem parse_accepts_grammar (spec : String) :
    (∀ r, parse spec = .ok r → ∃ q : Sentence, q.WrittenAs spec ∧ q.Means r) ∧
      (∀ (q : Sentence) (r : Rule), q.WrittenAs spec → ¬ q.IsIntegerPair → q.Means r →
        parse spec = .ok r) ∧
      ((∀ q : Sentence, ¬ q.WrittenAs spec) →
        ∃ fault, parse spec = .error ⟨spec, .grammar fault⟩) := by
  refine ⟨fun r hparse => ?_, fun q r hq hpair hmeans => ?_, exists_fault_of_not_writtenAs⟩
  · obtain ⟨q, hq⟩ := exists_writtenAs_of_parse hparse
    exact ⟨q, hq, ((parse_eq_ok_iff_of_writtenAs hq).mp hparse).1⟩
  · have horder : q.DoublesInOrder := fun lower upper h => absurd ⟨lower, upper, h⟩ hpair
    exact (parse_eq_ok_iff_of_writtenAs hq).mpr ⟨hmeans, horder⟩

/-- White space of any kind may stand around tokens, and a length may have leading zeros. -/
example : parse " string[\u00a0007\t]" = .ok (.string (some 7)) := by decide +kernel

end Specimen.Spec

import Specimen.Proofs.Binary64.Text
import Specimen.Proofs.Spec.Grammar

/-!
# Canonical spec strings

The canonical text of a rule is the text of a sentence, and the rule is the meaning of that
sentence.  So the text is accepted again with the same rule, down to the sign of a zero and
the last bit of a double.

One thing has to be carried over from the text that the rule came from: integers between two
bounds are compared as doubles first.  The canonical literals have the values of the literals
that were written, and what they are rounded to stands at the same places.

## Main definitions

* `Literal.ofInt`, `Literal.ofBinary64` — the literals of canonical texts.
* `Rule.sentence` — the sentence of the canonical text.
* `canonicalText spec` — the canonical text of the rule that the string denotes.

## Main statements

* `Rule.sentence_writtenAs` — the canonical text is the text of the sentence.
* `Sentence.Means.canonical` — the rule is its meaning.
* `parse_text_of_parse` — the canonical text parses back to the rule.
-/

namespace Specimen.Spec

open Binary64 (Decimal ofDecimal)

/-! ### Literals -/

namespace Literal

/-- The literal of an integer: its digits, behind a minus sign if it is negative. -/
def ofInt (n : ℤ) : Literal := ⟨decide (n < 0), Nat.toDigits 10 n.natAbs, none⟩

/-- The literal of a decimal in positional notation. -/
def ofPlain (negative : Bool) (d : Decimal) : Literal :=
  ⟨negative, Nat.toDigits 10 (d.numerator / d.denominator),
    if d.behind.isEmpty then none else some d.behind⟩

/-- The literal of a finite double; there is none for NaN, which gets that of zero. -/
def ofBinary64 : Binary64 → Literal
  | .nan => ofInt 0
  | .number negative m => ofPlain negative (Binary64.shortest m)

theorem all_isDigit_toDigits (n : ℕ) : (Nat.toDigits 10 n).all Char.isDigit = true :=
  List.all_eq_true.mpr fun _ hc => Nat.isDigit_of_mem_toDigits (by decide) (by decide) hc

theorem wellFormed_ofInt (n : ℤ) : (ofInt n).WellFormed :=
  ⟨all_isDigit_toDigits _, Nat.toDigits_ne_nil⟩

theorem chars_ofInt (n : ℤ) : (ofInt n).chars = Text.numeral n := by
  by_cases h : n < 0 <;> simp [ofInt, chars, Text.numeral, h]

/-- The literal of a signed word is the text of the word as a bound. -/
theorem text_ofInt (n : Int64) : (ofInt n.toInt).text = Rule.integerText n := by
  rw [text, chars_ofInt, Rule.integerText]

theorem value_ofInt (n : ℤ) : (ofInt n).value = n := by
  have hsigned : (ofInt n).signed = n := by
    rw [signed, coefficient, ofInt, Option.getD_none, List.append_nil,
      Nat.ofDigitChars_ten_toDigits]
    by_cases h : n < 0
    · rw [decide_eq_true h, if_pos rfl]
      omega
    · rw [decide_eq_false h, if_neg Bool.false_ne_true]
      omega
  rw [← coe_signed rfl, hsigned]

theorem wellFormed_ofPlain (negative : Bool) (d : Decimal) : (ofPlain negative d).WellFormed := by
  refine ⟨all_isDigit_toDigits _, ?_⟩
  rw [ofPlain]
  dsimp only
  split
  · next h =>
    split at h
    · exact Nat.toDigits_ne_nil
    · cases h
  · next digits h =>
    split at h
    · cases h
    · next hne =>
      cases h
      refine ⟨by simpa using hne, List.all_eq_true.mpr fun _ hc => ?_⟩
      exact Decimal.isDigit_of_mem_behind hc

theorem chars_ofPlain (negative : Bool) (d : Decimal) :
    (ofPlain negative d).chars = (if negative then ['-'] else []) ++ d.plain := by
  rw [chars, ofPlain, Decimal.plain_eq, List.append_assoc]
  dsimp only
  by_cases h : d.behind.isEmpty = true
  · rw [if_pos h, if_pos h]
  · rw [if_neg h, if_neg h]

theorem value_ofPlain (negative : Bool) (d : Decimal) :
    (ofPlain negative d).value = d.toRat negative := by
  have hfraction : (ofPlain negative d).fraction.getD [] = d.behind := by
    rw [ofPlain]
    dsimp only
    split
    · next h => rw [Option.getD_none, List.isEmpty_iff.mp h]
    · rfl
  have hwhole : Nat.ofDigitChars 10 (ofPlain negative d).whole 0 = d.numerator / d.denominator := by
    rw [ofPlain, Nat.ofDigitChars_ten_toDigits]
  have hsum := d.whole_add_behind
  rw [Decimal.fractionOf] at hsum
  rw [value, hfraction, hwhole, hsum, Decimal.toRat, Decimal.toRat, if_neg Bool.false_ne_true,
    one_mul]
  rfl

theorem wellFormed_ofBinary64 (x : Binary64) : (ofBinary64 x).WellFormed := by
  cases x with
  | nan => exact wellFormed_ofInt 0
  | number negative m => exact wellFormed_ofPlain negative _

/-- The literal of a finite double is its text. -/
theorem text_ofBinary64 {x : Binary64} (h : x.isFinite = true) :
    (ofBinary64 x).text = x.text := by
  cases x with
  | nan => cases h
  | number negative m =>
    rw [Binary64.isFinite_number] at h
    rw [text, ofBinary64, chars_ofPlain, Binary64.text_number h]

/-- **The text of a finite double is read as that double**, with the sign of a zero. -/
theorem roundsTo_ofBinary64 {x : Binary64} (h : x.isFinite = true) : (ofBinary64 x).RoundsTo x := by
  cases x with
  | nan => cases h
  | number negative m =>
    refine roundsTo_iff.mpr ⟨?_, h⟩
    have hvalue := toRat_decimal (ofPlain negative (Binary64.shortest m))
    rw [value_ofPlain] at hvalue
    have hmagnitude : (ofPlain negative (Binary64.shortest m)).decimal.magnitude = m := by
      rw [Decimal.magnitude_congr (Decimal.toRat_congr hvalue), Binary64.magnitude_shortest]
    change _ = Binary64.number negative (ofPlain negative (Binary64.shortest m)).decimal.magnitude
    rw [hmagnitude]

/-- Literals of one value are rounded to one place. -/
theorem RoundsTo.congr {l l' : Literal} {x : Binary64} (h : l.RoundsTo x)
    (hvalue : l.value = l'.value) : ∃ x', l'.RoundsTo x' ∧ x'.position = x.position := by
  obtain ⟨rfl, hfin⟩ := roundsTo_iff.mp h
  have hposition : (ofDecimal l'.negative l'.decimal).position
      = (ofDecimal l.negative l.decimal).position := by
    refine Binary64.position_ofDecimal_congr ?_
    rw [toRat_decimal, toRat_decimal, hvalue]
  refine ⟨_, roundsTo_iff.mpr ⟨rfl, ?_⟩, hposition⟩
  rw [Binary64.isFinite_iff] at hfin ⊢
  rwa [hposition]

end Literal

/-! ### Sentences -/

/-- The range with each of its bounds replaced. -/
def Range.map {α β : Type} (f : α → β) : Range α → Range β
  | .any => .any
  | .below upper => .below (f upper)
  | .above lower => .above (f lower)
  | .between lower upper => .between (f lower) (f upper)

/-- Bounds that are related to others are related to whatever is made of these. -/
theorem Range.Rel.map {α β : Type} {R S : α → β → Prop} {f : β → α} {bounds : Range α}
    {range : Range β} (h : bounds.Rel R range) (hf : ∀ a b, R a b → S (f b) b) :
    (range.map f).Rel S range := by
  cases h with
  | any => exact .any
  | below hb => exact .below (hf _ _ hb)
  | above hb => exact .above (hf _ _ hb)
  | between hb hb' => exact .between (hf _ _ hb) (hf _ _ hb')

/-- The sentence of the canonical text. -/
def Rule.sentence : Rule → Sentence
  | .skip => .skip
  | .boolean => .boolean
  | .date => .date
  | .string length => .string (length.map fun n => Literal.ofInt n)
  | .integer range => .number .integer (range.map fun n => Literal.ofInt n.toInt)
  | .decimal range => .number .decimal (range.map Literal.ofBinary64)

namespace Token

theorem wellFormed_text (word : NumberWord) : (Token.word word.text).WellFormed := by
  cases word with
  | integer => exact ⟨'i', "nteger".toList, rfl, by decide, by decide⟩
  | number => exact ⟨'n', "umber".toList, rfl, by decide, by decide⟩
  | decimal => exact ⟨'d', "ecimal".toList, rfl, by decide, by decide⟩

/-- A symbol in the canonical text of a range stands between two blanks. -/
theorem Spelled.symbol {t : Token} {c : Char} {ts : List Token} {cs : List Char}
    (ht : symbol? c = some t) (h : Spelled ts cs) : Spelled (t :: ts) (' ' :: c :: ' ' :: cs) := by
  obtain ⟨hwf, htext⟩ := of_symbol? ht
  have hrest : Spelled (t :: ts) (t.text.toList ++ ' ' :: cs) := .token hwf (.blank rfl h)
  rw [htext] at hrest
  exact .blank rfl hrest

/-- The canonical text of a range is that of a sentence, if its bounds are written as the
literals of the sentence are. -/
theorem spelled_range {α : Type} (word : NumberWord) {bounds : Range Literal} {range : Range α}
    {bound : α → String}
    (h : bounds.Rel (fun l b => l.WellFormed ∧ l.text = bound b) range) :
    Spelled (Sentence.number word bounds).tokens (range.text word.text bound).toList := by
  have hword := wellFormed_text word
  have hlast : ∀ {l : Literal} {b : α}, l.WellFormed ∧ l.text = bound b →
      Spelled [.literal l] (bound b).toList := by
    rintro l b ⟨hwf, htext⟩
    have := Spelled.token (t := .literal l) hwf .nil
    rwa [text, htext, List.append_nil] at this
  cases h with
  | any =>
    have := Spelled.token hword .nil
    rwa [List.append_nil] at this
  | @below l b hb =>
    have := Spelled.token hword ((hlast hb).symbol (c := '<') rfl)
    simpa [Sentence.tokens, Range.text, text] using this
  | @above l b hb =>
    have := Spelled.token hword ((hlast hb).symbol (c := '>') rfl)
    simpa [Sentence.tokens, Range.text, text] using this
  | @between l l' b b' hb hb' =>
    have hbehind := Spelled.token hword ((hlast hb').symbol (c := '<') rfl)
    have := Spelled.token (t := .literal l) hb.1 (hbehind.symbol (c := '<') rfl)
    simpa [Sentence.tokens, Range.text, text, hb.2] using this

end Token

namespace Sentence

variable {q : Sentence} {r : Rule}

/-- **A rule that a sentence means is the meaning of its canonical sentence.** -/
theorem Means.canonical (h : q.Means r) : r.sentence.Means r := by
  cases h with
  | skip => exact .skip
  | boolean => exact .boolean
  | date => exact .date
  | string => exact .string
  | @sized l n _ hlt =>
    refine .sized ?_ hlt
    rw [Literal.value_ofInt, Int.cast_natCast]
  | integer _ hbounds hroom =>
    refine .integer rfl (hbounds.map fun l n _ => ?_) hroom
    exact ⟨rfl, (Literal.value_ofInt n.toInt).symm⟩
  | decimal _ hbounds horder =>
    exact .decimal rfl (hbounds.map fun _ _ hx => Literal.roundsTo_ofBinary64 hx.isFinite) horder

/-- Integers that are in order as doubles are so when they are written anew. -/
theorem DoublesInOrder.canonical (h : q.Means r) (horder : q.DoublesInOrder) :
    r.sentence.DoublesInOrder := by
  intro lower upper hsentence
  cases h with
  | skip | boolean | date | string | sized | decimal => cases hsentence
  | @integer word _ _ hkind hbounds _ =>
    cases hbounds with
    | any | below | above => cases hsentence
    | @between l l' m n hm hn =>
      cases hsentence
      obtain rfl : word = .integer := by cases word <;> first | rfl | cases hkind
      obtain ⟨x, y, hx, hy, hlt⟩ := horder l l' rfl
      obtain ⟨x', hx', hxpos⟩ := hx.congr (hm.2.symm.trans (Literal.value_ofInt m.toInt).symm)
      obtain ⟨y', hy', hypos⟩ := hy.congr (hn.2.symm.trans (Literal.value_ofInt n.toInt).symm)
      refine ⟨x', y', hx', hy', ?_⟩
      rw [Binary64.lt_iff, hxpos, hypos]
      exact Binary64.lt_iff.mp hlt

end Sentence

/-- The canonical text of a rule is the text of its canonical sentence. -/
theorem Rule.sentence_writtenAs {q : Sentence} {r : Rule} (h : q.Means r) :
    r.sentence.WrittenAs r.text := by
  have hword : ∀ (word : String), (Token.word word).WellFormed →
      Token.Spelled [.word word] word.toList := fun word hwf => by
    have := Token.Spelled.token hwf .nil
    rwa [List.append_nil] at this
  cases h with
  | skip => exact ⟨trivial, hword _ ⟨'s', "kip".toList, rfl, by decide, by decide⟩⟩
  | boolean => exact ⟨trivial, hword _ ⟨'b', "oolean".toList, rfl, by decide, by decide⟩⟩
  | date => exact ⟨trivial, hword _ ⟨'d', "ate".toList, rfl, by decide, by decide⟩⟩
  | string => exact ⟨trivial, hword _ ⟨'s', "tring".toList, rfl, by decide, by decide⟩⟩
  | @sized l n =>
    have hnonneg : decide ((n : ℤ) < 0) = false := decide_eq_false (by omega)
    refine ⟨⟨hnonneg, rfl⟩, ?_⟩
    have hclose := Token.Spelled.token (t := .closeBracket) trivial .nil
    have hlength := Token.Spelled.token (t := .literal _) (Literal.wellFormed_ofInt n) hclose
    have hopen := Token.Spelled.token (t := .openBracket) trivial hlength
    have := Token.Spelled.token (t := .word "string")
      ⟨'s', "tring".toList, rfl, by decide, by decide⟩ hopen
    simpa [text, Token.text, Literal.text, Literal.chars_ofInt, sentence, Sentence.tokens]
      using this
  | integer _ hbounds _ =>
    exact ⟨trivial, Token.spelled_range .integer (hbounds.map fun _ n _ =>
      ⟨Literal.wellFormed_ofInt _, Literal.text_ofInt n⟩)⟩
  | decimal _ hbounds _ =>
    refine ⟨trivial, Token.spelled_range .decimal (hbounds.map fun _ x hx => ?_)⟩
    exact ⟨Literal.wellFormed_ofBinary64 x, Literal.text_ofBinary64 hx.isFinite⟩

/-! ### Canonical texts -/

/-- The canonical text of the rule that a spec string denotes. -/
def canonicalText (spec : String) : Except Error String := (parse spec).map Rule.text

/-- **The canonical text of a rule is parsed as the rule**, and canonicalising it again
changes nothing. -/
theorem parse_text_of_parse {spec : String} {r : Rule} (h : parse spec = .ok r) :
    parse r.text = .ok r ∧ canonicalText r.text = canonicalText spec := by
  obtain ⟨q, hq⟩ := exists_writtenAs_of_parse h
  obtain ⟨hmeans, horder⟩ := (parse_eq_ok_iff_of_writtenAs hq).mp h
  have hparse : parse r.text = .ok r :=
    (parse_eq_ok_iff_of_writtenAs (Rule.sentence_writtenAs hmeans)).mpr
      ⟨hmeans.canonical, horder.canonical hmeans⟩
  exact ⟨hparse, by rw [canonicalText, canonicalText, hparse, h]⟩

/-- The sign of a zero is not lost. -/
theorem parse_text_negative_zero :
    parse "number>-0.0" = .ok (.decimal (.above (ofDecimal true ⟨0, 0⟩))) ∧
      parse (Rule.decimal (.above (ofDecimal true ⟨0, 0⟩))).text
        = .ok (.decimal (.above (ofDecimal true ⟨0, 0⟩))) ∧
      canonicalText (Rule.decimal (.above (ofDecimal true ⟨0, 0⟩))).text
        = canonicalText "number>-0.0" := by
  have hparse : parse "number>-0.0" = .ok (.decimal (.above (ofDecimal true ⟨0, 0⟩))) := by
    decide +kernel
  exact ⟨hparse, parse_text_of_parse hparse⟩

/-- Zeros that say nothing are dropped, and the white space is made even. -/
example : canonicalText "-007<integer  <010" = .ok "-7 < integer < 10" := by decide +kernel

end Specimen.Spec

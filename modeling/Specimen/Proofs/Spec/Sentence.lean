import Specimen.Proofs.Spec.Literal
import Specimen.Spec.Parser

/-!
# Sentences

What a spec string says, apart from how it is parsed: a sentence is a kind of values,
with a length or with bounds that are kept as written.  Whatever the parser accepts is
the text of a sentence, and the rule is what the sentence means.

## Main definitions

* `Token.Spelled tokens cs` — the text is that of the tokens, with white space between.
* `Sentence` — what can be said, with its `tokens`.
* `Range.Rel R` — two ranges have bounds on the same sides, related by `R`.
* `Sentence.Denotes q r` — the rule `r` is the meaning of the sentence `q`.

## Main statements

* `Token.spelled_of_scan` — the tokens of a text spell it.
* `exists_sentence_of_parse` — an accepted text is a sentence, and the rule its meaning.
-/

namespace Specimen.Spec

/-! ### Steps that may fail -/

section

variable {ε α β : Type} {r : Except ε α} {b : β}

theorem of_map_ok {f : α → β} (h : r.map f = .ok b) : ∃ a, r = .ok a ∧ f a = b := by
  cases r with
  | ok a =>
    cases h
    exact ⟨a, rfl, rfl⟩
  | error e => cases h

theorem map_eq_ok_iff {f : α → β} : r.map f = .ok b ↔ ∃ a, r = .ok a ∧ b = f a := by
  constructor
  · intro h
    obtain ⟨a, ha, rfl⟩ := of_map_ok h
    exact ⟨a, ha, rfl⟩
  · rintro ⟨a, rfl, rfl⟩
    rfl

theorem ok_bind (a : α) (f : α → Except ε β) : (Except.ok a >>= f) = f a := rfl

theorem of_bind_ok {f : α → Except ε β} (h : (r >>= f) = .ok b) :
    ∃ a, r = .ok a ∧ f a = .ok b := by
  cases r with
  | ok a => exact ⟨a, rfl, h⟩
  | error e => cases h

end

/-! ### Texts of tokens -/

/-- Words start with a letter, and literals are made of digits. -/
def Token.WellFormed : Token → Prop
  | .word name => ∃ c cs, name.toList = c :: cs ∧ c.isAlpha = true ∧ cs.all isWordChar = true
  | .literal l => l.WellFormed
  | _ => True

/-- The text consists of the written tokens in order, with white space anywhere around
them. -/
inductive Token.Spelled : List Token → List Char → Prop
  | nil : Spelled [] []
  | blank {c : Char} {ts : List Token} {cs : List Char} :
    Text.isBlank c = true → Spelled ts cs → Spelled ts (c :: cs)
  | token {t : Token} {ts : List Token} {cs : List Char} :
    t.WellFormed → Spelled ts cs → Spelled (t :: ts) (t.text.toList ++ cs)

theorem Token.of_symbol? {c : Char} {t : Token} (h : symbol? c = some t) :
    t.WellFormed ∧ t.text.toList = [c] := by
  unfold symbol? at h
  split_ifs at h with hless hgreater hopen hclose <;> cases h
  · exact ⟨trivial, by rw [hless]; rfl⟩
  · exact ⟨trivial, by rw [hgreater]; rfl⟩
  · exact ⟨trivial, by rw [hopen]; rfl⟩
  · exact ⟨trivial, by rw [hclose]; rfl⟩

/-- Scanning loses nothing but white space. -/
theorem Token.spelled_of_scan {cs : List Char} {ts : List Token} (h : scan cs = .ok ts) :
    Spelled ts cs := by
  induction cs using scan.induct generalizing ts with
  | case1 =>
    rw [scan] at h
    cases h
    exact .nil
  | case2 c cs hblank ih =>
    rw [scan, if_pos hblank] at h
    exact .blank hblank (ih h)
  | case3 c cs hblank t hsymbol ih =>
    -- a symbol is a token of one character
    rw [scan, if_neg hblank, hsymbol] at h
    obtain ⟨ts', hrest, rfl⟩ := of_map_ok h
    obtain ⟨hwf, htext⟩ := of_symbol? hsymbol
    have := Spelled.token hwf (ih hrest)
    rwa [htext] at this
  | case4 c cs hblank hsymbol halpha ih =>
    -- a word takes all characters that can go on with it
    rw [scan, if_neg hblank, hsymbol] at h
    dsimp only at h
    rw [if_pos halpha] at h
    obtain ⟨ts', hrest, rfl⟩ := of_map_ok h
    have hname : (Token.word (String.ofList (c :: cs.takeWhile isWordChar))).text.toList
        = c :: cs.takeWhile isWordChar := String.toList_ofList
    have hwf : (Token.word (String.ofList (c :: cs.takeWhile isWordChar))).WellFormed :=
      ⟨c, _, hname, halpha, List.all_takeWhile⟩
    have := Spelled.token hwf (ih hrest)
    rwa [hname, List.cons_append, List.takeWhile_append_dropWhile] at this
  | case5 c cs hblank hsymbol halpha hstart literal l hl =>
    rename_i ih
    -- a literal keeps its characters, so it is written as it was read
    rw [scan, if_neg hblank, hsymbol] at h
    dsimp only at h
    rw [if_neg halpha, if_pos hstart, hl] at h
    obtain ⟨ts', hrest, rfl⟩ := of_map_ok h
    obtain ⟨hchars, hwf⟩ := Literal.of_ofChars? hl
    have htext : (Token.literal l).text.toList = c :: cs.takeWhile isLiteralChar := by
      rw [text, Literal.text, String.toList_ofList, hchars]
    have := Spelled.token (t := .literal l) hwf (ih hrest)
    rwa [htext, List.cons_append, List.takeWhile_append_dropWhile] at this
  | case6 c cs hblank hsymbol halpha hstart literal =>
    rename_i hl
    rw [scan, if_neg hblank, hsymbol] at h
    dsimp only at h
    rw [if_neg halpha, if_pos hstart, hl] at h
    cases h
  | case7 c cs hblank hsymbol halpha hstart =>
    rw [scan, if_neg hblank, hsymbol] at h
    dsimp only at h
    rw [if_neg halpha, if_neg hstart] at h
    cases h

/-! ### Sentences -/

/-- The words for numbers; two of them mean the same. -/
inductive NumberWord
  | integer
  | number
  | decimal
deriving DecidableEq

namespace NumberWord

/-- The word as it is written. -/
def text : NumberWord → String
  | .integer => "integer"
  | .number => "number"
  | .decimal => "decimal"

/-- The kind of numbers that the word stands for. -/
def kind : NumberWord → NumericKind
  | .integer => .integer
  | .number | .decimal => .decimal

end NumberWord

/-- What a spec string says, with literals as they are written. -/
inductive Sentence
  | skip
  | boolean
  | date
  | string (length : Option Literal)
  | number (word : NumberWord) (bounds : Range Literal)

/-- The tokens of a sentence. -/
def Sentence.tokens : Sentence → List Token
  | .skip => [.word "skip"]
  | .boolean => [.word "boolean"]
  | .date => [.word "date"]
  | .string none => [.word "string"]
  | .string (some length) => [.word "string", .openBracket, .literal length, .closeBracket]
  | .number word .any => [.word word.text]
  | .number word (.below upper) => [.word word.text, .less, .literal upper]
  | .number word (.above lower) => [.word word.text, .greater, .literal lower]
  | .number word (.between lower upper) =>
    [.literal lower, .less, .word word.text, .less, .literal upper]

/-- Two ranges have bounds on the same sides, and their bounds are related. -/
inductive Range.Rel {α β : Type} (R : α → β → Prop) : Range α → Range β → Prop
  | any : Rel R .any .any
  | below {a : α} {b : β} : R a b → Rel R (.below a) (.below b)
  | above {a : α} {b : β} : R a b → Rel R (.above a) (.above b)
  | between {a a' : α} {b b' : β} : R a b → R a' b' → Rel R (.between a a') (.between b b')

/-- The rule is what the sentence means. -/
inductive Sentence.Denotes : Sentence → Rule → Prop
  | skip : Denotes .skip .skip
  | boolean : Denotes .boolean .boolean
  | date : Denotes .date .date
  | string : Denotes (.string none) (.string none)
  | sized {l : Literal} {n : ℕ} : l.natural? = some n →
    Denotes (.string (some l)) (.string (some n))
  | integer {word : NumberWord} {bounds : Range Literal} {range : Range Int64} :
    word.kind = .integer → bounds.Rel (fun l n => l.integerBound = .ok n) range →
    Denotes (.number word bounds) (.integer range)
  | decimal {word : NumberWord} {bounds : Range Literal} {range : Range Binary64} :
    word.kind = .decimal → bounds.Rel (fun l x => l.decimalBound = .ok x) range →
    Denotes (.number word bounds) (.decimal range)

theorem exists_word_of_ofWord {word : String} {kind : NumericKind}
    (h : NumericKind.ofWord word = .ok kind) :
    ∃ w : NumberWord, w.text = word ∧ w.kind = kind := by
  unfold NumericKind.ofWord at h
  split_ifs at h with hinteger hdecimal <;> cases h
  · exact ⟨.integer, hinteger.symm, rfl⟩
  · rcases hdecimal with hnumber | hdecimal
    · exact ⟨.number, hnumber.symm, rfl⟩
    · exact ⟨.decimal, hdecimal.symm, rfl⟩

/-- A single word is a sentence. -/
private theorem exists_sentence_of_ofWord {word : String} {r : Rule}
    (h : Rule.ofWord word = .ok r) :
    ∃ q : Sentence, q.tokens = [.word word] ∧ q.Denotes r := by
  unfold Rule.ofWord at h
  split_ifs at h with hskip hboolean hdate hstring hinteger hdecimal <;> cases h
  · exact ⟨.skip, by rw [hskip]; rfl, .skip⟩
  · exact ⟨.boolean, by rw [hboolean]; rfl, .boolean⟩
  · exact ⟨.date, by rw [hdate]; rfl, .date⟩
  · exact ⟨.string none, by rw [hstring]; rfl, .string⟩
  · exact ⟨.number .integer .any, by rw [hinteger]; rfl, .integer rfl .any⟩
  · -- two words stand for decimals, and each keeps its own sentence
    rcases hdecimal with hnumber | hdecimal
    · exact ⟨.number .number .any, by rw [hnumber]; rfl, .decimal rfl .any⟩
    · exact ⟨.number .decimal .any, by rw [hdecimal]; rfl, .decimal rfl .any⟩

private theorem denotes_of_ofUpper {w : NumberWord} {upper : Literal} {r : Rule}
    (h : Rule.ofUpper w.kind upper = .ok r) : Sentence.Denotes (.number w (.below upper)) r := by
  unfold Rule.ofUpper at h
  split at h
  · next hkind =>
    obtain ⟨x, hx, rfl⟩ := of_map_ok h
    exact .decimal hkind (.below hx)
  · next hkind =>
    obtain ⟨n, hn, rfl⟩ := of_map_ok h
    exact .integer hkind (.below hn)

private theorem denotes_of_ofLower {w : NumberWord} {lower : Literal} {r : Rule}
    (h : Rule.ofLower w.kind lower = .ok r) : Sentence.Denotes (.number w (.above lower)) r := by
  unfold Rule.ofLower at h
  split at h
  · next hkind =>
    obtain ⟨x, hx, rfl⟩ := of_map_ok h
    exact .decimal hkind (.above hx)
  · next hkind =>
    obtain ⟨n, hn, rfl⟩ := of_map_ok h
    exact .integer hkind (.above hn)

private theorem denotes_of_ofBounds {w : NumberWord} {lower upper : Literal} {r : Rule}
    (h : Rule.ofBounds w.kind lower upper = .ok r) :
    Sentence.Denotes (.number w (.between lower upper)) r := by
  unfold Rule.ofBounds at h
  obtain ⟨x, hx, h⟩ := of_bind_ok h
  obtain ⟨y, hy, h⟩ := of_bind_ok h
  split at h
  · cases h
  · split at h
    · next hkind =>
      cases h
      exact .decimal hkind (.between hx hy)
    · next hkind =>
      obtain ⟨m, hm, h⟩ := of_bind_ok h
      obtain ⟨n, hn, h⟩ := of_bind_ok h
      split at h
      · cases h
      · cases h
        exact .integer hkind (.between hm hn)

/-- A rule is made only from the tokens of a sentence that means it. -/
theorem exists_sentence_of_ofTokens {ts : List Token} {r : Rule} (h : Rule.ofTokens ts = .ok r) :
    ∃ q : Sentence, q.tokens = ts ∧ q.Denotes r := by
  unfold Rule.ofTokens at h
  split at h
  · cases h
  · exact exists_sentence_of_ofWord h
  · next word length =>
    split at h
    · next hword =>
      unfold Rule.ofLength at h
      split at h
      · next n hn =>
        cases h
        exact ⟨.string (some length), by rw [hword]; rfl, .sized hn⟩
      · cases h
    · cases h
  · next word upper =>
    obtain ⟨kind, hkind, h⟩ := of_bind_ok h
    obtain ⟨w, rfl, rfl⟩ := exists_word_of_ofWord hkind
    exact ⟨.number w (.below upper), rfl, denotes_of_ofUpper h⟩
  · next word lower =>
    obtain ⟨kind, hkind, h⟩ := of_bind_ok h
    obtain ⟨w, rfl, rfl⟩ := exists_word_of_ofWord hkind
    exact ⟨.number w (.above lower), rfl, denotes_of_ofLower h⟩
  · next lower word upper =>
    obtain ⟨kind, hkind, h⟩ := of_bind_ok h
    obtain ⟨w, rfl, rfl⟩ := exists_word_of_ofWord hkind
    exact ⟨.number w (.between lower upper), rfl, denotes_of_ofBounds h⟩
  · cases h

/-- **Whatever is accepted is the text of a sentence, and the rule is its meaning.** -/
theorem exists_sentence_of_parse {spec : String} {r : Rule} (h : parse spec = .ok r) :
    ∃ q : Sentence, scan spec = .ok q.tokens ∧ Token.Spelled q.tokens spec.toList ∧
      q.Denotes r := by
  unfold parse at h
  cases hscan : scan spec with
  | error e => rw [hscan] at h; cases h
  | ok ts =>
    rw [hscan] at h
    change (Rule.ofTokens ts).mapError _ = .ok r at h
    cases hrule : Rule.ofTokens ts with
    | error fault => rw [hrule] at h; cases h
    | ok rule =>
      rw [hrule] at h
      cases h
      obtain ⟨q, rfl, hdenotes⟩ := exists_sentence_of_ofTokens hrule
      refine ⟨q, rfl, Token.spelled_of_scan ?_, hdenotes⟩
      unfold scan at hscan
      cases htokens : Token.scan spec.toList with
      | error fault => rw [htokens] at hscan; cases hscan
      | ok ts => rw [htokens] at hscan; cases hscan; rfl

end Specimen.Spec

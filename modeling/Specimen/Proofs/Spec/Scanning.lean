import Specimen.Proofs.Spec.Sentence
import Specimen.Proofs.Text.Characters
import Mathlib.Data.List.Chain

/-!
# Scanning what is written

The scanner reads back the tokens of a text that is made of them, whatever white space is
put around them.  Tokens are as long as they can be, so two of them that touch must not run
into each other: behind a word there is no word character, and behind a literal neither a
digit nor a point.  A symbol on either side is enough to keep two tokens apart.

## Main definitions

* `Token.StopsAt t cs` — the text `cs` does not go on with the token `t`.
* `Token.IsSymbol t` — the token is a single fixed character.
* `Token.Separated ts` — of any two neighbours one is a symbol.

## Main statements

* `Literal.ofChars?_chars` — a literal is read back from its written form.
* `Token.scan_text_append` — a token is read back from the front of a text.
* `Token.scan_of_spelled` — separated tokens are read back from every text of them.
-/

namespace Specimen.Spec

open Text (toNat_of_isAlpha toNat_of_isDigit isBlank_eq_false run_append)

/-! ### Literals -/

theorem Literal.ofUnsigned?_digits {negative : Bool} {whole : List Char}
    (hwhole : ∀ c ∈ whole, c.isDigit = true) (hne : whole ≠ []) :
    ofUnsigned? negative whole = some ⟨negative, whole, none⟩ := by
  have htake : whole.takeWhile Char.isDigit = whole := List.takeWhile_eq_self_iff.mpr hwhole
  have hdrop : whole.dropWhile Char.isDigit = [] := List.dropWhile_eq_nil_iff.mpr hwhole
  simp [ofUnsigned?, htake, hdrop, hne]

theorem Literal.ofUnsigned?_point {negative : Bool} {whole digits : List Char}
    (hwhole : ∀ c ∈ whole, c.isDigit = true) (hdigits : ∀ c ∈ digits, c.isDigit = true)
    (hne : digits ≠ []) :
    ofUnsigned? negative (whole ++ '.' :: digits) = some ⟨negative, whole, some digits⟩ := by
  -- the digits in front end at the point
  have htake : (whole ++ '.' :: digits).takeWhile Char.isDigit = whole := by
    rw [List.takeWhile_append_of_pos hwhole, List.takeWhile_cons_of_neg (by decide),
      List.append_nil]
  have hdrop : (whole ++ '.' :: digits).dropWhile Char.isDigit = '.' :: digits := by
    rw [List.dropWhile_append_of_pos hwhole, List.dropWhile_cons_of_neg (by decide)]
  have hall : digits.all Char.isDigit = true := List.all_eq_true.mpr hdigits
  simp [ofUnsigned?, htake, hdrop, hne, hall]

/-- **A literal is read back from its written form.** -/
theorem Literal.ofChars?_chars {l : Literal} (h : l.WellFormed) : ofChars? l.chars = some l := by
  obtain ⟨negative, whole, fraction⟩ := l
  obtain ⟨hwhole, hfraction⟩ := h
  replace hwhole : ∀ c ∈ whole, c.isDigit = true := List.all_eq_true.mp hwhole
  have hunsigned : ofUnsigned? negative (chars ⟨false, whole, fraction⟩)
      = some ⟨negative, whole, fraction⟩ := by
    cases fraction with
    | none =>
      rw [chars, List.append_nil]
      exact ofUnsigned?_digits hwhole hfraction
    | some digits => exact ofUnsigned?_point hwhole (List.all_eq_true.mp hfraction.2) hfraction.1
  cases negative with
  | true => exact hunsigned
  | false =>
    -- without a sign the text does not start with a minus sign
    unfold ofChars?
    split
    · next cs hchars =>
      exfalso
      cases whole with
      | nil =>
        cases fraction with
        | none => exact hfraction rfl
        | some digits => exact absurd (List.cons.inj hchars).1 (by decide)
      | cons c rest =>
        have hc := hwhole c List.mem_cons_self
        obtain rfl : c = '-' := (List.cons.inj hchars).1
        exact absurd hc (by decide)
    · exact hunsigned

/-- A literal starts like one and goes on like one. -/
theorem Literal.exists_chars_eq_cons {l : Literal} (h : l.WellFormed) :
    ∃ c cs, l.chars = c :: cs ∧ Token.startsLiteral c = true ∧
      ∀ d ∈ cs, Token.isLiteralChar d = true := by
  obtain ⟨negative, whole, fraction⟩ := l
  obtain ⟨hwhole, hfraction⟩ := h
  -- behind the sign all characters are digits, but for the point
  have hbehind : ∀ d ∈ chars ⟨false, whole, fraction⟩, Token.isLiteralChar d = true := by
    intro d hd
    have hdigit : d.isDigit = true ∨ d = '.' := by
      cases fraction with
      | none =>
        rw [chars, List.append_nil] at hd
        exact Or.inl (List.all_eq_true.mp hwhole d hd)
      | some digits =>
        rcases List.mem_append.mp hd with hd | hd
        · exact Or.inl (List.all_eq_true.mp hwhole d hd)
        · rcases List.mem_cons.mp hd with rfl | hd
          · exact Or.inr rfl
          · exact Or.inl (List.all_eq_true.mp hfraction.2 d hd)
    rcases hdigit with hdigit | rfl
    · rw [Token.isLiteralChar, hdigit, Bool.true_or]
    · decide
  cases negative with
  | true => exact ⟨'-', chars ⟨false, whole, fraction⟩, rfl, by decide, hbehind⟩
  | false =>
    cases hchars : chars ⟨false, whole, fraction⟩ with
    | nil =>
      exfalso
      cases fraction with
      | none =>
        rw [chars, List.append_nil] at hchars
        exact hfraction hchars
      | some digits => exact absurd (List.append_eq_nil_iff.mp hchars).2 (List.cons_ne_nil _ _)
    | cons c cs =>
      rw [hchars] at hbehind
      refine ⟨c, cs, rfl, ?_, fun d hd => hbehind d (List.mem_cons_of_mem _ hd)⟩
      have hc := hbehind c List.mem_cons_self
      rw [Token.isLiteralChar] at hc
      rw [Token.startsLiteral, hc, Bool.true_or]

namespace Token

/-! ### Characters -/

theorem toNat_of_startsLiteral {c : Char} (h : startsLiteral c = true) :
    45 ≤ c.toNat ∧ c.toNat ≤ 57 := by
  simp only [startsLiteral, Bool.or_eq_true, beq_iff_eq] at h
  rcases h with (hdigit | rfl) | rfl
  · have := toNat_of_isDigit hdigit
    omega
  · decide
  · decide

theorem toNat_of_isLiteralChar {c : Char} (h : isLiteralChar c = true) :
    45 ≤ c.toNat ∧ c.toNat ≤ 57 := by
  refine toNat_of_startsLiteral ?_
  rw [isLiteralChar] at h
  rw [startsLiteral, h, Bool.true_or]

theorem toNat_of_isWordChar {c : Char} (h : isWordChar c = true) :
    48 ≤ c.toNat ∧ c.toNat ≤ 122 := by
  simp only [isWordChar, Char.isAlphanum, Bool.or_eq_true, beq_iff_eq] at h
  rcases h with (halpha | hdigit) | rfl
  · have := toNat_of_isAlpha halpha
    omega
  · have := toNat_of_isDigit hdigit
    omega
  · decide

/-- A symbol is one of four characters. -/
theorem symbol?_eq_some {c : Char} {t : Token} (h : symbol? c = some t) :
    c = '<' ∨ c = '>' ∨ c = '[' ∨ c = ']' := by
  unfold symbol? at h
  split_ifs at h with hless hgreater hopen hclose
  · exact Or.inl hless
  · exact Or.inr (Or.inl hgreater)
  · exact Or.inr (Or.inr (Or.inl hopen))
  · exact Or.inr (Or.inr (Or.inr hclose))

theorem symbol?_eq_none_of_isAlpha {c : Char} (h : c.isAlpha = true) : symbol? c = none := by
  refine Option.eq_none_iff_forall_not_mem.mpr fun t ht => ?_
  rcases symbol?_eq_some ht with rfl | rfl | rfl | rfl <;> exact absurd h (by decide)

theorem symbol?_eq_none_of_startsLiteral {c : Char} (h : startsLiteral c = true) :
    symbol? c = none := by
  refine Option.eq_none_iff_forall_not_mem.mpr fun t ht => ?_
  rcases symbol?_eq_some ht with rfl | rfl | rfl | rfl <;> exact absurd h (by decide)

theorem isAlpha_eq_false_of_startsLiteral {c : Char} (h : startsLiteral c = true) :
    c.isAlpha = false := by
  refine Bool.eq_false_iff.mpr fun halpha => ?_
  have := toNat_of_startsLiteral h
  have := toNat_of_isAlpha halpha
  omega

/-! ### One token -/

/-- The text does not go on with the token. -/
def StopsAt : Token → List Char → Prop
  | .word _, cs => ∀ c ∈ cs.head?, isWordChar c = false
  | .literal _, cs => ∀ c ∈ cs.head?, isLiteralChar c = false
  | _, _ => True

private theorem scan_symbol {c : Char} {t : Token} (h : symbol? c = some t) (rest : List Char) :
    scan (c :: rest) = (scan rest).map (t :: ·) := by
  have hblank : Text.isBlank c = false := by
    rcases symbol?_eq_some h with rfl | rfl | rfl | rfl <;> rfl
  rw [scan, if_neg (by rw [hblank]; exact Bool.false_ne_true), h]

private theorem scan_word {c : Char} {cs rest : List Char} (hc : c.isAlpha = true)
    (hcs : ∀ d ∈ cs, isWordChar d = true) (hrest : ∀ d ∈ rest.head?, isWordChar d = false) :
    scan (c :: (cs ++ rest)) = (scan rest).map (.word (String.ofList (c :: cs)) :: ·) := by
  have hbounds := toNat_of_isAlpha hc
  have hblank : Text.isBlank c = false := isBlank_eq_false (by omega) (by omega)
  obtain ⟨htake, hdrop⟩ := run_append hcs hrest
  rw [scan, if_neg (by rw [hblank]; exact Bool.false_ne_true), symbol?_eq_none_of_isAlpha hc]
  dsimp only
  rw [if_pos hc, htake, hdrop]

private theorem scan_literal {l : Literal} (hl : l.WellFormed) {rest : List Char}
    (hrest : ∀ d ∈ rest.head?, isLiteralChar d = false) :
    scan (l.chars ++ rest) = (scan rest).map (.literal l :: ·) := by
  obtain ⟨c, cs, hchars, hc, hcs⟩ := Literal.exists_chars_eq_cons hl
  have hbounds := toNat_of_startsLiteral hc
  have hblank : Text.isBlank c = false := isBlank_eq_false (by omega) (by omega)
  obtain ⟨htake, hdrop⟩ := run_append hcs hrest
  have hread : Literal.ofChars? (c :: cs) = some l := by
    rw [← hchars]
    exact Literal.ofChars?_chars hl
  rw [hchars, List.cons_append, scan, if_neg (by rw [hblank]; exact Bool.false_ne_true),
    symbol?_eq_none_of_startsLiteral hc]
  dsimp only
  rw [if_neg (by rw [isAlpha_eq_false_of_startsLiteral hc]; exact Bool.false_ne_true), if_pos hc,
    htake, hdrop, hread]

/-- **A token is read back from the front of a text** that does not go on with it. -/
theorem scan_text_append {t : Token} (hwf : t.WellFormed) {rest : List Char}
    (hstop : t.StopsAt rest) : scan (t.text.toList ++ rest) = (scan rest).map (t :: ·) := by
  cases t with
  | word name =>
    obtain ⟨c, cs, hname, hc, hcs⟩ := hwf
    have hword : Token.word name = .word (String.ofList (c :: cs)) := by
      rw [← hname, String.ofList_toList]
    rw [text, hname, hword]
    exact scan_word hc (List.all_eq_true.mp hcs) hstop
  | literal l =>
    rw [text, Literal.text, String.toList_ofList]
    exact scan_literal hwf hstop
  | less => exact scan_symbol (c := '<') rfl rest
  | greater => exact scan_symbol (c := '>') rfl rest
  | openBracket => exact scan_symbol (c := '[') rfl rest
  | closeBracket => exact scan_symbol (c := ']') rfl rest

/-! ### Separated tokens -/

/-- The token is a single fixed character. -/
def IsSymbol : Token → Prop
  | .word _ | .literal _ => False
  | _ => True

/-- Of any two neighbours one is a symbol, so that they cannot run into each other. -/
def Separated (ts : List Token) : Prop := ts.IsChain fun t u => t.IsSymbol ∨ u.IsSymbol

theorem IsSymbol.stopsAt {t : Token} (h : t.IsSymbol) (cs : List Char) : t.StopsAt cs := by
  cases t with
  | word name => exact h.elim
  | literal l => exact h.elim
  | less | greater | openBracket | closeBracket => trivial

/-- Neither words nor literals go on with white space or with a symbol. -/
private theorem of_isBlank_or_symbol {c : Char}
    (h : Text.isBlank c = true ∨ (symbol? c).isSome = true) :
    isWordChar c = false ∧ isLiteralChar c = false := by
  rcases h with hblank | hsymbol
  · refine ⟨Bool.eq_false_iff.mpr fun hword => ?_, Bool.eq_false_iff.mpr fun hliteral => ?_⟩
    · have hbounds := toNat_of_isWordChar hword
      rw [isBlank_eq_false (by omega) (by omega)] at hblank
      exact Bool.false_ne_true hblank
    · have hbounds := toNat_of_isLiteralChar hliteral
      rw [isBlank_eq_false (by omega) (by omega)] at hblank
      exact Bool.false_ne_true hblank
  · obtain ⟨t, ht⟩ := Option.isSome_iff_exists.mp hsymbol
    rcases symbol?_eq_some ht with rfl | rfl | rfl | rfl <;> decide

/-- No token goes on with white space or with a symbol. -/
theorem stopsAt_cons {c : Char} (h : Text.isBlank c = true ∨ (symbol? c).isSome = true) (t : Token)
    (cs : List Char) : t.StopsAt (c :: cs) := by
  obtain ⟨hword, hliteral⟩ := of_isBlank_or_symbol h
  cases t with
  | word name =>
    rintro d hd
    cases hd
    exact hword
  | literal l =>
    rintro d hd
    cases hd
    exact hliteral
  | less | greater | openBracket | closeBracket => trivial

/-- No token goes on with a text that a symbol comes first in, or nothing at all. -/
theorem Spelled.stopsAt {ts : List Token} {cs : List Char} (h : Spelled ts cs)
    (hsymbol : ∀ u ∈ ts.head?, u.IsSymbol) (t : Token) : t.StopsAt cs := by
  cases h with
  | nil => cases t <;> simp [StopsAt]
  | blank hblank _ => exact stopsAt_cons (Or.inl hblank) t _
  | @token u us cs hwf hrest =>
    cases u with
    | word name => exact (hsymbol _ rfl).elim
    | literal l => exact (hsymbol _ rfl).elim
    | less => exact stopsAt_cons (c := '<') (Or.inr rfl) t cs
    | greater => exact stopsAt_cons (c := '>') (Or.inr rfl) t cs
    | openBracket => exact stopsAt_cons (c := '[') (Or.inr rfl) t cs
    | closeBracket => exact stopsAt_cons (c := ']') (Or.inr rfl) t cs

/-- **Separated tokens are read back from every text of them**, whatever white space it has. -/
theorem scan_of_spelled {ts : List Token} {cs : List Char} (h : Spelled ts cs)
    (hsep : Separated ts) : scan cs = .ok ts := by
  induction h with
  | nil => rw [scan]
  | blank hblank _ ih =>
    rw [scan, if_pos hblank]
    exact ih hsep
  | @token t ts cs hwf hrest ih =>
    obtain ⟨hnext, hsep⟩ := List.isChain_cons.mp hsep
    have hstop : t.StopsAt cs := by
      by_cases hsymbol : t.IsSymbol
      · exact hsymbol.stopsAt cs
      · exact hrest.stopsAt (fun u hu => (hnext u hu).resolve_left hsymbol) t
    rw [scan_text_append hwf hstop, ih hsep]
    rfl

end Token

end Specimen.Spec

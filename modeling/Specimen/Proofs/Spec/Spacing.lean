import Specimen.Proofs.Spec.Scanning

/-!
# Spacing

White space keeps tokens apart and says nothing else.  The scanner takes a text apart into tokens
and drops only the white space, so that the texts of the tokens give back all the rest; and the
tokens are what they are however a text spaces them out, as long as something stands between any
two of them.

## Main definitions

* `IsDigits cs`, `Literal.IsWritten cs` — the form of number literals.
* `Token.IsWritten t` — what words and literals look like.
* `Token.spaced gap ts` — the texts of tokens with a gap behind each but the last.

## Main statements

* `Token.Spelled.filter_eq` — the texts of the tokens are the text without white space.
* `Token.scan_spaced` — tokens are read back, whatever stands in the gaps.
* `scan_loses_nothing` — both, of every text that can be scanned.
-/

namespace Specimen.Spec

open Text (toNat_of_isAlpha isBlank_eq_false)

/-! ### What tokens look like -/

/-- One or more digits. -/
def IsDigits (cs : List Char) : Prop := cs ≠ [] ∧ ∀ c ∈ cs, c.isDigit = true

/-- The form `["-"] DIGITS ["." DIGITS]` or `["-"] "." DIGITS`. -/
def Literal.IsWritten (cs : List Char) : Prop :=
  ∃ sign digits, (sign = [] ∨ sign = ['-']) ∧ IsDigits digits ∧
    (cs = sign ++ digits ∨ cs = sign ++ '.' :: digits ∨
      ∃ whole, IsDigits whole ∧ cs = sign ++ whole ++ '.' :: digits)

/-- A word is a letter that letters, digits and underscores follow; a literal has the form of a
number.  All letters and digits are those of ASCII. -/
def Token.IsWritten : Token → Prop
  | .word name => ∃ c cs, name.toList = c :: cs ∧ c.isAlpha = true ∧
    ∀ d ∈ cs, d.isAlpha = true ∨ d.isDigit = true ∨ d = '_'
  | .literal l => Literal.IsWritten l.text.toList
  | _ => True

theorem Literal.isWritten_text {l : Literal} (h : l.WellFormed) : IsWritten l.text.toList := by
  obtain ⟨negative, whole, fraction⟩ := l
  obtain ⟨hwhole, hfraction⟩ := h
  replace hwhole : ∀ c ∈ whole, c.isDigit = true := List.all_eq_true.mp hwhole
  have hsign : (if negative then ['-'] else []) = [] ∨
      (if negative then ['-'] else []) = ['-'] := by
    cases negative with
    | false => exact Or.inl rfl
    | true => exact Or.inr rfl
  rw [Literal.text, String.toList_ofList]
  cases fraction with
  | none => exact ⟨_, whole, hsign, ⟨hfraction, hwhole⟩, Or.inl (List.append_nil _)⟩
  | some digits =>
    obtain ⟨hne, hdigits⟩ := hfraction
    refine ⟨_, digits, hsign, ⟨hne, List.all_eq_true.mp hdigits⟩, Or.inr ?_⟩
    -- digits need not stand in front of the point
    by_cases hnil : whole = []
    · subst hnil
      exact Or.inl (by rw [chars, List.append_nil])
    · exact Or.inr ⟨whole, ⟨hnil, hwhole⟩, rfl⟩

namespace Token

theorem WellFormed.isWritten {t : Token} (h : t.WellFormed) : t.IsWritten := by
  cases t with
  | word name =>
    obtain ⟨c, cs, hname, hc, hcs⟩ := h
    refine ⟨c, cs, hname, hc, fun d hd => ?_⟩
    have hword := List.all_eq_true.mp hcs d hd
    simpa [isWordChar, Char.isAlphanum, or_assoc] using hword
  | literal l => exact Literal.isWritten_text h
  | less | greater | openBracket | closeBracket => trivial

/-- No white space stands in a token. -/
theorem WellFormed.isBlank_eq_false {t : Token} (h : t.WellFormed) :
    ∀ c ∈ t.text.toList, Text.isBlank c = false := by
  cases t with
  | word name =>
    obtain ⟨d, ds, hname, hd, hds⟩ := h
    intro c hc
    rw [text, hname] at hc
    have hbounds : 0x20 < c.toNat ∧ c.toNat < 0x7F := by
      rcases List.mem_cons.mp hc with rfl | hc
      · have := toNat_of_isAlpha hd
        omega
      · have := toNat_of_isWordChar (List.all_eq_true.mp hds c hc)
        omega
    exact Text.isBlank_eq_false hbounds.1 hbounds.2
  | literal l =>
    obtain ⟨d, ds, hchars, hd, hds⟩ := Literal.exists_chars_eq_cons h
    intro c hc
    rw [text, Literal.text, String.toList_ofList, hchars] at hc
    have hbounds : 45 ≤ c.toNat ∧ c.toNat ≤ 57 := by
      rcases List.mem_cons.mp hc with rfl | hc
      · exact toNat_of_startsLiteral hd
      · exact toNat_of_isLiteralChar (hds c hc)
    exact Text.isBlank_eq_false (by omega) (by omega)
  | less | greater | openBracket | closeBracket => exact List.forall_mem_singleton.mpr rfl

/-! ### What is lost -/

/-- Every token of a text that is spelled is well formed. -/
theorem Spelled.wellFormed {ts : List Token} {cs : List Char} (h : Spelled ts cs) :
    ∀ t ∈ ts, t.WellFormed := by
  induction h with
  | nil => exact fun t ht => nomatch ht
  | blank _ _ ih => exact ih
  | token hwf _ ih => exact List.forall_mem_cons.mpr ⟨hwf, ih⟩

/-- **The texts of the tokens are the text without its white space.** -/
theorem Spelled.filter_eq {ts : List Token} {cs : List Char} (h : Spelled ts cs) :
    cs.filter (!Text.isBlank ·) = ts.flatMap fun t => t.text.toList := by
  induction h with
  | nil => rfl
  | blank hblank _ ih =>
    rw [List.filter_cons_of_neg (by simp [hblank]), ih]
  | @token t ts cs hwf _ ih =>
    have hkept : t.text.toList.filter (!Text.isBlank ·) = t.text.toList :=
      List.filter_eq_self.mpr fun c hc => by simp [hwf.isBlank_eq_false c hc]
    rw [List.filter_append, hkept, ih, List.flatMap_cons]

/-! ### Spacing out -/

/-- The texts of tokens one behind the other, with a gap behind each but the last. -/
def spaced (gap : ℕ → String) : List Token → String
  | [] => ""
  | [t] => t.text
  | t :: u :: ts => t.text ++ gap 0 ++ spaced (fun i => gap (i + 1)) (u :: ts)

/-- White space in front of a text does not show. -/
theorem scan_blanks_append {blanks : List Char} (h : ∀ c ∈ blanks, Text.isBlank c = true)
    (cs : List Char) : scan (blanks ++ cs) = scan cs := by
  induction blanks with
  | nil => rfl
  | cons c blanks ih =>
    obtain ⟨hc, hblanks⟩ := List.forall_mem_cons.mp h
    rw [List.cons_append, scan, if_pos hc, ih hblanks]

/-- No token goes on with white space. -/
theorem stopsAt_blanks {blanks : List Char} (h : ∀ c ∈ blanks, Text.isBlank c = true)
    (hne : blanks ≠ []) (t : Token) (cs : List Char) : t.StopsAt (blanks ++ cs) := by
  obtain ⟨c, blanks, rfl⟩ := List.exists_cons_of_ne_nil hne
  exact stopsAt_cons (Or.inl (h c List.mem_cons_self)) t (blanks ++ cs)

/-- **Tokens are read back, whatever white space stands in the gaps between them.** -/
theorem scan_spaced {ts : List Token} (hwf : ∀ t ∈ ts, t.WellFormed) {gap : ℕ → String}
    (hgap : ∀ i, gap i ≠ "" ∧ ∀ c ∈ (gap i).toList, Text.isBlank c = true) {after : List Char}
    (hafter : ∀ c ∈ after, Text.isBlank c = true) :
    scan ((spaced gap ts).toList ++ after) = .ok ts := by
  have hend : scan after = .ok [] := by
    have := scan_blanks_append hafter []
    rwa [List.append_nil, scan] at this
  induction ts generalizing gap with
  | nil => exact hend
  | cons t ts ih =>
    obtain ⟨ht, hts⟩ := List.forall_mem_cons.mp hwf
    cases ts with
    | nil =>
      have hstop : t.StopsAt after := by
        cases after with
        | nil => cases t <;> simp [StopsAt]
        | cons c after => exact stopsAt_cons (Or.inl (hafter c List.mem_cons_self)) t after
      rw [spaced, scan_text_append ht hstop, hend]
      rfl
    | cons u ts =>
      obtain ⟨hne, hblanks⟩ := hgap 0
      have hne : (gap 0).toList ≠ [] := fun hnil => hne (String.toList_eq_nil_iff.mp hnil)
      rw [spaced, String.toList_append, String.toList_append, List.append_assoc, List.append_assoc,
        scan_text_append ht (stopsAt_blanks hblanks hne t _), scan_blanks_append hblanks,
        ih hts fun i => hgap (i + 1)]
      rfl

end Token

/-! ### Every text -/

theorem scan_eq_ok_iff {spec : String} {tokens : List Token} :
    scan spec = .ok tokens ↔ Token.scan spec.toList = .ok tokens := by
  rw [scan]
  cases Token.scan spec.toList <;> simp [Except.mapError]

/-- **The scanner loses nothing and ignores white space.**  The texts of the tokens, one behind the
other, are the text without its white space; words and literals have their forms; and the same
tokens are found in every text that spaces them out, with white space in front, white space behind
and some white space in every gap. -/
theorem scan_loses_nothing {spec : String} {tokens : List Token} (h : scan spec = .ok tokens) :
    String.join (tokens.map Token.text) =
        String.ofList (spec.toList.filter (!Text.isBlank ·)) ∧
      (∀ t ∈ tokens, t.IsWritten) ∧
      ∀ (before after : String) (gap : ℕ → String),
        (∀ c ∈ before.toList, Text.isBlank c = true) →
        (∀ c ∈ after.toList, Text.isBlank c = true) →
        (∀ i, gap i ≠ "" ∧ ∀ c ∈ (gap i).toList, Text.isBlank c = true) →
        scan (before ++ Token.spaced gap tokens ++ after) = .ok tokens := by
  have hspelled := Token.spelled_of_scan (scan_eq_ok_iff.mp h)
  refine ⟨?_, fun t ht => (hspelled.wellFormed t ht).isWritten, ?_⟩
  · rw [← String.toList_inj, String.toList_join, String.toList_ofList, hspelled.filter_eq,
      List.flatMap_map]
  · intro before after gap hbefore hafter hgap
    rw [scan_eq_ok_iff, String.toList_append, String.toList_append, List.append_assoc,
      Token.scan_blanks_append hbefore]
    exact Token.scan_spaced hspelled.wellFormed hgap hafter

/-- A range whose tokens touch, and the same range with an ideographic space in every gap. -/
theorem scan_loses_nothing_range :
    scan " 10<integer < -2.5 " = .ok [.literal ⟨false, ['1', '0'], none⟩, .less, .word "integer",
        .less, .literal ⟨true, ['2'], some ['5']⟩] ∧
      String.join ["10", "<", "integer", "<", "-2.5"] =
        String.ofList (" 10<integer < -2.5 ".toList.filter (!Text.isBlank ·)) ∧
      scan "\n10\u3000<\u3000integer\u3000<\u3000-2.5" =
        .ok [.literal ⟨false, ['1', '0'], none⟩, .less, .word "integer", .less,
          .literal ⟨true, ['2'], some ['5']⟩] := by
  have h : scan " 10<integer < -2.5 " = .ok [.literal ⟨false, ['1', '0'], none⟩, .less,
      .word "integer", .less, .literal ⟨true, ['2'], some ['5']⟩] := by decide +kernel
  obtain ⟨hjoin, -, hspaced⟩ := scan_loses_nothing h
  exact ⟨h, hjoin, hspaced "\n" "" (fun _ => "\u3000") (List.forall_mem_singleton.mpr rfl)
    (List.forall_mem_nil _) fun _ => ⟨by decide, List.forall_mem_singleton.mpr rfl⟩⟩

end Specimen.Spec

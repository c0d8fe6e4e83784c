import Specimen.Proofs.Date.Text
import Specimen.Value.Json

/-!
# Which texts are dates

Every text of the form `YYYY-MM-DD` that names a day is recognised as that day.  The converse
fails.  Only the number of bytes is checked before a text is read, and the reader is liberal:
it skips white space in front of each number, takes a sign in front of the year, and does not
ask for leading zeros.  What is skipped or signed can make up for the digits that are missing.

Without white space and without a sign there is nothing to make up for them: a year, a month
and a day of at most four, two and two digits fill ten bytes only if none is missing.

## Main definitions

* `Date.IsNumeral most n digits` — a run of digits that gives a number.
* `Date.LooselyWritten d cs` — the texts that the reader takes for a date.
* `Date.ExactlyWritten d cs` — the form `YYYY-MM-DD`.
* `Date.Unmarked cs` — no white space, and no sign in front.

## Main statements

* `Date.read?_eq_some_iff` — what the reader takes.
* `Date.ofText?_eq_some_iff` — what is recognised.
* `Date.exactlyWritten_iff` — what slips through besides the exact form.
* `Value.ofJson_string_recognised` — dates and other texts in JSON.
-/

namespace Specimen

/-! ### White space -/

/-- White space is skipped up to a character that is none. -/
theorem Text.skipBlanks_append {blanks cs : List Char} (hblanks : ∀ c ∈ blanks, isBlank c = true)
    (hcs : ∀ c ∈ cs.head?, isBlank c = false) : skipBlanks (blanks ++ cs) = cs :=
  (run_append hblanks hcs).2

theorem Text.exists_blanks (cs : List Char) :
    ∃ blanks, cs = blanks ++ skipBlanks cs ∧ ∀ c ∈ blanks, isBlank c = true :=
  ⟨cs.takeWhile isBlank, List.takeWhile_append_dropWhile.symm, fun _ => List.mem_takeWhile_imp⟩

namespace Date

/-! ### Numbers -/

/-- A run of digits, at least one and at most so many, that gives the number. -/
structure IsNumeral (most n : ℕ) (digits : List Char) : Prop where
  isDigit : ∀ c ∈ digits, c.isDigit = true
  ne_nil : digits ≠ []
  length_le : digits.length ≤ most
  value : Nat.ofDigitChars 10 digits 0 = n

section Numbers

variable {most n : ℕ} {digits rest cs : List Char}

theorem IsNumeral.mono {most' : ℕ} (h : IsNumeral most n digits) (hle : digits.length ≤ most') :
    IsNumeral most' n digits := ⟨h.isDigit, h.ne_nil, hle, h.value⟩

/-- A number starts with a digit. -/
theorem IsNumeral.head_isDigit (h : IsNumeral most n digits) (rest : List Char) :
    ∀ c ∈ (digits ++ rest).head?, c.isDigit = true := by
  obtain ⟨c, cs, rfl⟩ := List.exists_cons_of_ne_nil h.ne_nil
  rintro d hd
  cases hd
  exact h.isDigit _ List.mem_cons_self

theorem isBlank_of_isDigit {c : Char} (h : c.isDigit = true) : Text.isBlank c = false := by
  have hc := Text.toNat_of_isDigit h
  exact Text.isBlank_eq_false (by omega) (by omega)

theorem readDigits_of_isNumeral (h : IsNumeral most n digits)
    (hrest : ∀ c ∈ rest.head?, c.isDigit = false) :
    readDigits most (digits ++ rest) = some (n, rest) := by
  rw [readDigits_append h.isDigit h.ne_nil h.length_le hrest, h.value]

/-- Whatever is read as a number is one. -/
theorem exists_isNumeral_of_readDigits (h : readDigits most cs = some (n, rest)) :
    ∃ digits, cs = digits ++ rest ∧ IsNumeral most n digits := by
  unfold readDigits at h
  dsimp only at h
  split at h
  · cases h
  · next hne =>
    cases h
    have hprefix : (cs.takeWhile Char.isDigit).take most <+: cs :=
      (List.take_prefix _ _).trans (List.takeWhile_prefix _)
    refine ⟨_, (List.prefix_iff_eq_append.mp hprefix).symm, fun c hc => ?_, by simpa using hne,
      List.length_take_le _ _, rfl⟩
    exact List.mem_takeWhile_imp (List.mem_of_mem_take hc)

theorem readPart_of_isNumeral {blanks : List Char}
    (hblanks : ∀ c ∈ blanks, Text.isBlank c = true) (h : IsNumeral 2 n digits)
    (hrest : ∀ c ∈ rest.head?, c.isDigit = false) :
    readPart (blanks ++ (digits ++ rest)) = some (n, rest) := by
  have hskip : Text.skipBlanks (blanks ++ (digits ++ rest)) = digits ++ rest :=
    Text.skipBlanks_append hblanks fun c hc => isBlank_of_isDigit (h.head_isDigit rest c hc)
  rw [readPart, hskip, readDigits_of_isNumeral h hrest]

theorem exists_isNumeral_of_readPart (h : readPart cs = some (n, rest)) :
    ∃ blanks digits, cs = blanks ++ (digits ++ rest) ∧ (∀ c ∈ blanks, Text.isBlank c = true) ∧
      IsNumeral 2 n digits := by
  obtain ⟨blanks, hcs, hblanks⟩ := Text.exists_blanks cs
  obtain ⟨digits, hskip, hdigits⟩ := exists_isNumeral_of_readDigits h
  exact ⟨blanks, digits, by rw [← hskip, ← hcs], hblanks, hdigits⟩

end Numbers

/-! ### Years -/

/-- The text of a year: up to four digits, or a sign and any number of digits. -/
inductive IsYear : ℤ → List Char → Prop
  | unsigned {n : ℕ} {digits : List Char} : IsNumeral 4 n digits → IsYear n digits
  | plus {n : ℕ} {digits : List Char} :
    IsNumeral digits.length n digits → IsYear n ('+' :: digits)
  | minus {n : ℕ} {digits : List Char} :
    IsNumeral digits.length n digits → IsYear (-n) ('-' :: digits)

section Years

variable {year : ℤ} {text rest cs : List Char}

theorem readYear_of_isYear {blanks : List Char} (hblanks : ∀ c ∈ blanks, Text.isBlank c = true)
    (h : IsYear year text) (hrest : ∀ c ∈ rest.head?, c.isDigit = false) :
    readYear (blanks ++ (text ++ rest)) = some (year, rest) := by
  have hsigned : ∀ {n : ℕ} {digits : List Char}, IsNumeral digits.length n digits →
      readDigits (digits ++ rest).length (digits ++ rest) = some (n, rest) := fun h =>
    readDigits_of_isNumeral (h.mono (by simp)) hrest
  cases h with
  | plus hdigits =>
    rw [readYear, Text.skipBlanks_append hblanks (by rintro c ⟨⟩; rfl)]
    simp only [List.cons_append, hsigned hdigits, Option.map_some]
  | minus hdigits =>
    rw [readYear, Text.skipBlanks_append hblanks (by rintro c ⟨⟩; rfl)]
    simp only [List.cons_append, hsigned hdigits, Option.map_some]
  | unsigned hdigits =>
    have hhead := hdigits.head_isDigit rest
    rw [readYear, Text.skipBlanks_append hblanks fun c hc => isBlank_of_isDigit (hhead c hc)]
    -- a digit in front is no sign
    split
    · next hcons => exact absurd (hhead '-' (by rw [hcons]; rfl)) (by decide)
    · next hcons => exact absurd (hhead '+' (by rw [hcons]; rfl)) (by decide)
    · rw [readDigits_of_isNumeral hdigits hrest]
      rfl

theorem exists_isYear_of_readYear (h : readYear cs = some (year, rest)) :
    ∃ blanks text, cs = blanks ++ (text ++ rest) ∧ (∀ c ∈ blanks, Text.isBlank c = true) ∧
      IsYear year text := by
  obtain ⟨blanks, hcs, hblanks⟩ := Text.exists_blanks cs
  suffices hyear : ∃ text, Text.skipBlanks cs = text ++ rest ∧ IsYear year text by
    obtain ⟨text, hskip, htext⟩ := hyear
    exact ⟨blanks, text, by rw [← hskip, ← hcs], hblanks, htext⟩
  unfold readYear at h
  split at h
  · next rest' hsign =>
    obtain ⟨⟨n, rest''⟩, hread, heq⟩ := Option.map_eq_some_iff.mp h
    cases heq
    obtain ⟨digits, rfl, hdigits⟩ := exists_isNumeral_of_readDigits hread
    exact ⟨'-' :: digits, hsign, .minus (hdigits.mono le_rfl)⟩
  · next rest' hsign =>
    obtain ⟨⟨n, rest''⟩, hread, heq⟩ := Option.map_eq_some_iff.mp h
    cases heq
    obtain ⟨digits, rfl, hdigits⟩ := exists_isNumeral_of_readDigits hread
    exact ⟨'+' :: digits, hsign, .plus (hdigits.mono le_rfl)⟩
  · obtain ⟨⟨n, rest''⟩, hread, heq⟩ := Option.map_eq_some_iff.mp h
    cases heq
    obtain ⟨digits, hskip, hdigits⟩ := exists_isNumeral_of_readDigits hread
    exact ⟨digits, hskip, .unsigned hdigits⟩

end Years

/-! ### Dates -/

/-- The texts that are read as the date: white space may stand in front of each number, the
year may have a sign, and leading zeros may be missing. -/
inductive LooselyWritten (d : Date) : List Char → Prop
  | intro {blanks blanks' blanks'' year month day : List Char} :
    (∀ c ∈ blanks, Text.isBlank c = true) → IsYear d.year year →
    (∀ c ∈ blanks', Text.isBlank c = true) → IsNumeral 2 d.month month →
    (∀ c ∈ blanks'', Text.isBlank c = true) → IsNumeral 2 d.day day →
    LooselyWritten d
      (blanks ++ (year ++ '-' :: (blanks' ++ (month ++ '-' :: (blanks'' ++ day)))))

/-- The form `YYYY-MM-DD`: four digits, two and two, which give the numbers of the date. -/
inductive ExactlyWritten (d : Date) : List Char → Prop
  | intro {year month day : List Char} :
    year.length = 4 → month.length = 2 → day.length = 2 →
    (∀ c ∈ year ++ month ++ day, c.isDigit = true) →
    (Nat.ofDigitChars 10 year 0 : ℤ) = d.year →
    Nat.ofDigitChars 10 month 0 = d.month →
    Nat.ofDigitChars 10 day 0 = d.day →
    ExactlyWritten d (year ++ '-' :: (month ++ '-' :: day))

/-- There is no white space in the text, and no sign in front of it. -/
def Unmarked (cs : List Char) : Prop :=
  (∀ c ∈ cs, Text.isBlank c = false) ∧ ∀ c ∈ cs.head?, c ≠ '+' ∧ c ≠ '-'

variable {d : Date} {cs : List Char}

theorem of?_eq_some_iff {year : ℤ} {month day : ℕ} :
    of? year month day = some d ↔ d.year = year ∧ d.month = month ∧ d.day = day := by
  constructor
  · intro h
    unfold of? at h
    split at h
    · cases h
      exact ⟨rfl, rfl, rfl⟩
    · cases h
  · rintro ⟨rfl, rfl, rfl⟩
    exact of?_self d

theorem readHyphen_eq_some_iff {rest : List Char} :
    readHyphen .tight cs = some rest ↔ cs = '-' :: rest := by
  unfold readHyphen
  split
  · next rest' hcs =>
    rw [Spacing.skip] at hcs
    simp [hcs]
  · next hcs =>
    refine iff_of_false (Option.some_ne_none _).symm ?_
    rintro rfl
    exact hcs rest rfl

/-- **What the reader takes for a date.** -/
theorem read?_eq_some_iff : read? .tight cs = some d ↔ d.LooselyWritten cs := by
  constructor
  · intro h
    unfold read? at h
    obtain ⟨⟨y, cs₁⟩, hreadYear, h⟩ := Option.bind_eq_some_iff.mp h
    obtain ⟨cs₂, hhyphen, h⟩ := Option.bind_eq_some_iff.mp h
    obtain ⟨⟨m, cs₃⟩, hreadMonth, h⟩ := Option.bind_eq_some_iff.mp h
    obtain ⟨cs₄, hhyphen', h⟩ := Option.bind_eq_some_iff.mp h
    obtain ⟨⟨n, cs₅⟩, hreadDay, h⟩ := Option.bind_eq_some_iff.mp h
    dsimp only at h
    split at h
    · next hend =>
      obtain ⟨rfl, rfl, rfl⟩ := of?_eq_some_iff.mp h
      obtain rfl : cs₅ = [] := List.isEmpty_iff.mp hend
      obtain rfl := readHyphen_eq_some_iff.mp hhyphen
      obtain rfl := readHyphen_eq_some_iff.mp hhyphen'
      obtain ⟨blanks, year, rfl, hblanks, hyear⟩ := exists_isYear_of_readYear hreadYear
      obtain ⟨blanks', month, rfl, hblanks', hmonth⟩ := exists_isNumeral_of_readPart hreadMonth
      obtain ⟨blanks'', day, rfl, hblanks'', hday⟩ := exists_isNumeral_of_readPart hreadDay
      rw [List.append_nil]
      exact .intro hblanks hyear hblanks' hmonth hblanks'' hday
    · cases h
  · rintro ⟨hblanks, hyear, hblanks', hmonth, hblanks'', hday⟩
    have hhyphen : ∀ cs, readHyphen .tight ('-' :: cs) = some cs := fun cs => rfl
    have hstop : ∀ cs, ∀ c ∈ ('-' :: cs : List Char).head?, c.isDigit = false := by
      rintro cs c ⟨⟩
      rfl
    have hend : ∀ c ∈ ([] : List Char).head?, c.isDigit = false := nofun
    have hreadDay := readPart_of_isNumeral hblanks'' hday hend
    rw [List.append_nil] at hreadDay
    simp [read?, readYear_of_isYear hblanks hyear (hstop _), hhyphen,
      readPart_of_isNumeral hblanks' hmonth (hstop _), hreadDay, Spacing.skip]

/-- **A text is recognised as a date if it has ten bytes and the reader takes it for one.** -/
theorem ofText?_eq_some_iff {s : String} :
    ofText? s = some d ↔ s.utf8ByteSize = 10 ∧ d.LooselyWritten s.toList := by
  rw [ofText?, ← read?_eq_some_iff]
  split
  · next hsize => exact (and_iff_right hsize).symm
  · next hsize => exact iff_of_false (Option.some_ne_none _).symm fun h => hsize h.1

/-! ### The exact form -/

theorem ExactlyWritten.loosely (h : d.ExactlyWritten cs) : d.LooselyWritten cs := by
  obtain ⟨hy, hm, hn, hdigits, hyear, hmonth, hday⟩ := h
  have hnone : ∀ c ∈ ([] : List Char), Text.isBlank c = true := nofun
  have hnumeral : ∀ {digits : List Char} {most n : ℕ}, digits.length = most → 0 < most →
      (∀ c ∈ digits, c.isDigit = true) → Nat.ofDigitChars 10 digits 0 = n →
      IsNumeral most n digits := fun hlength hpos hdigit hvalue =>
    ⟨hdigit, List.ne_nil_of_length_pos (by omega), hlength.le, hvalue⟩
  refine .intro hnone ?_ hnone ?_ hnone ?_
  · rw [← hyear]
    exact .unsigned (hnumeral hy (by decide) (fun c hc => hdigits c (by simp [hc])) rfl)
  · exact hnumeral hm (by decide) (fun c hc => hdigits c (by simp [hc])) hmonth
  · exact hnumeral hn (by decide) (fun c hc => hdigits c (by simp [hc])) hday

/-- There is nothing but digits and hyphens in the exact form. -/
private theorem eq_hyphen_or_isDigit {year month day : List Char}
    (h : ∀ c ∈ year ++ month ++ day, c.isDigit = true) :
    ∀ c ∈ year ++ '-' :: (month ++ '-' :: day), c = '-' ∨ c.isDigit = true := by
  intro c hc
  simp only [List.mem_append, List.mem_cons] at hc h
  rcases hc with hyear | rfl | hmonth | rfl | hday
  · exact Or.inr (h c (Or.inl (Or.inl hyear)))
  · exact Or.inl rfl
  · exact Or.inr (h c (Or.inl (Or.inr hmonth)))
  · exact Or.inl rfl
  · exact Or.inr (h c (Or.inr hday))

/-- Digits and hyphens have one byte each. -/
private theorem utf8Len_hyphenated {year month day : List Char}
    (h : ∀ c ∈ year ++ month ++ day, c.isDigit = true) :
    String.utf8Len (year ++ '-' :: (month ++ '-' :: day))
      = year.length + month.length + day.length + 2 := by
  rw [Text.utf8Len_of_ascii]
  · simp only [List.length_append, List.length_cons]
    omega
  · intro c hc
    rcases eq_hyphen_or_isDigit h c hc with rfl | hdigit
    · decide
    · exact (Text.toNat_of_isDigit hdigit).2.trans (by decide)

theorem ExactlyWritten.unmarked (h : d.ExactlyWritten cs) : Unmarked cs := by
  obtain @⟨year, month, day, hyear, -, -, hdigits, -, -, -⟩ := h
  refine ⟨fun c hc => ?_, fun c hc => ?_⟩
  · rcases eq_hyphen_or_isDigit hdigits c hc with rfl | hdigit
    · rfl
    · exact isBlank_of_isDigit hdigit
  · -- the first character is a digit of the year
    obtain ⟨first, rest, rfl⟩ := List.exists_cons_of_length_eq_add_one hyear
    cases hc
    have hdigit : c.isDigit = true := hdigits c (by simp)
    constructor <;> rintro rfl <;> exact absurd hdigit (by decide)

/-- **A text of the exact form is recognised as the date that it names.** -/
theorem ExactlyWritten.ofText? {s : String} (h : d.ExactlyWritten s.toList) :
    Date.ofText? s = some d := by
  refine ofText?_eq_some_iff.mpr ⟨?_, h.loosely⟩
  rw [← String.ofList_toList (s := s), String.utf8ByteSize_ofList]
  generalize s.toList = cs at h
  obtain ⟨hyear, hmonth, hday, hdigits, -, -, -⟩ := h
  rw [utf8Len_hyphenated hdigits, hyear, hmonth, hday]

/-- White space that is nowhere is not there. -/
private theorem eq_nil_of_isBlank {blanks : List Char} (h : ∀ c ∈ blanks, Text.isBlank c = true)
    (hnone : ∀ c ∈ blanks, Text.isBlank c = false) : blanks = [] := by
  refine List.eq_nil_iff_forall_not_mem.mpr fun c hc => ?_
  have hblank := h c hc
  rw [hnone c hc] at hblank
  cases hblank

/-- A year without a sign has at most four digits. -/
private theorem IsYear.isNumeral {year : ℤ} {text : List Char} (h : IsYear year text)
    (hsign : ∀ c ∈ text.head?, c ≠ '+' ∧ c ≠ '-') : ∃ n : ℕ, year = n ∧ IsNumeral 4 n text := by
  cases h with
  | unsigned hdigits => exact ⟨_, rfl, hdigits⟩
  | plus => exact absurd rfl (hsign '+' rfl).1
  | minus => exact absurd rfl (hsign '-' rfl).2

/-- Ten bytes without white space and without a sign leave no digit out. -/
theorem LooselyWritten.exactly (h : d.LooselyWritten cs) (hunmarked : Unmarked cs)
    (hsize : String.utf8Len cs = 10) : d.ExactlyWritten cs := by
  obtain ⟨hblanks, hyear, hblanks', hmonth, hblanks'', hday⟩ := h
  obtain ⟨hvisible, hsign⟩ := hunmarked
  obtain rfl := eq_nil_of_isBlank hblanks fun c hc => hvisible c (by simp [hc])
  obtain rfl := eq_nil_of_isBlank hblanks' fun c hc => hvisible c (by simp [hc])
  obtain rfl := eq_nil_of_isBlank hblanks'' fun c hc => hvisible c (by simp [hc])
  simp only [List.nil_append] at hsign hsize ⊢
  obtain ⟨n, hn, hyear⟩ := hyear.isNumeral fun c hc => hsign c (by
    rw [List.head?_append, hc]
    rfl)
  have hdigits := List.forall_mem_append.mpr
    ⟨List.forall_mem_append.mpr ⟨hyear.isDigit, hmonth.isDigit⟩, hday.isDigit⟩
  have hy := hyear.length_le
  have hm := hmonth.length_le
  have hd := hday.length_le
  rw [utf8Len_hyphenated hdigits] at hsize
  exact .intro (by omega) (by omega) (by omega) hdigits (by rw [hyear.value, hn]) hmonth.value
    hday.value

/-- **What slips through has white space in it or a sign in front.**  All else that is recognised
is of the exact form. -/
theorem exactlyWritten_iff {s : String} :
    d.ExactlyWritten s.toList ↔ ofText? s = some d ∧ Unmarked s.toList := by
  constructor
  · exact fun h => ⟨h.ofText?, h.unmarked⟩
  · rintro ⟨hread, hunmarked⟩
    obtain ⟨hsize, hloose⟩ := ofText?_eq_some_iff.mp hread
    rw [← String.ofList_toList (s := s), String.utf8ByteSize_ofList] at hsize
    exact hloose.exactly hunmarked hsize

end Date

/-! ### Dates in JSON -/

namespace Value

theorem ofJson_string_eq_date_iff {s : String} {d : Date} :
    ofJson (.string s) = .date d ↔ Date.ofText? s = some d := by
  rw [ofJson, ofString]
  cases Date.ofText? s <;> simp

/-- **Which strings are read as dates.**  A string of ten bytes in the form that the reader
takes is read as a date, and every other one as the text that it is.  The form `YYYY-MM-DD` is
always taken, and of the strings that are taken it is the form of those without white space and
without a sign in front. -/
theorem ofJson_string_recognised (s : String) :
    (∀ d, ofJson (.string s) = .date d ↔ s.utf8ByteSize = 10 ∧ d.LooselyWritten s.toList) ∧
      (∀ d : Date, d.ExactlyWritten s.toList ↔
        ofJson (.string s) = .date d ∧ Date.Unmarked s.toList) ∧
      (ofJson (.string s) = .text s ↔ ∀ d, ofJson (.string s) ≠ .date d) := by
  refine ⟨fun d => ?_, fun d => ?_, ?_⟩
  · rw [ofJson_string_eq_date_iff, Date.ofText?_eq_some_iff]
  · rw [ofJson_string_eq_date_iff, Date.exactlyWritten_iff]
  · rw [ofJson, ofString]
    cases Date.ofText? s <;> simp

/-- The exact form alone is not enough: there has to be such a day. -/
example : ofJson (.string "1900-02-29") = .text "1900-02-29" := by decide +kernel

/-- **A date of another form.**  A blank in front makes up for the digit that the month lacks. -/
theorem ofJson_blank_date :
    ofJson (.string " 2010-4-01") = .date ⟨2010, 4, 1, by decide⟩ ∧
      ∀ d : Date, ¬ d.ExactlyWritten " 2010-4-01".toList := by
  refine ⟨by with_unfolding_all rfl, fun d h => ?_⟩
  exact absurd (h.unmarked.1 ' ' (by decide)) (by decide)

end Value

end Specimen

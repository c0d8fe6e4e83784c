import Specimen.Date.Text
import Specimen.Proofs.Text.Characters

/-!
# Written dates read back

A date is written with its numbers padded to a fixed width, and a number is read as far as
its digits go.  So the written form of a date reads back wherever the year has four digits.
Every other year has a sign in front of its digits, which makes the written form too long to
be taken for a date.

Whatever is read as a date has a hyphen in it, which keeps dates apart from texts that have none.

## Main statements

* `readDigits_append` — a run of digits is read as a number.
* `read?_chars` — a date reads back from its written form.
* `ofText?_text_iff` — and it is recognised in it if its year has four digits, not otherwise.
* `hyphen_mem_of_ofText?` — a text without hyphens is no date.
-/

namespace Specimen

/-- No month is longer than 31 days. -/
theorem Calendar.daysInMonth_le (year : ℤ) (month : ℕ) : daysInMonth year month ≤ 31 := by
  match month with
  | 0 => simp [daysInMonth]
  | 1 | 3 | 5 | 7 | 8 | 10 | 12 | 4 | 6 | 9 | 11 => simp [daysInMonth]
  | 2 =>
    simp only [daysInMonth]
    split <;> decide
  | n + 13 => simp [daysInMonth]

namespace Date

/-! ### Padded numbers -/

section Padded

variable {width n : ℕ}

theorem isDigit_of_mem_padded {c : Char} (h : c ∈ padded width n) : c.isDigit = true :=
  Text.isDigit_of_mem_leftpad h

theorem length_padded (hpos : 0 < width) (h : n < 10 ^ width) :
    (padded width n).length = width := by
  rw [padded, List.length_leftpad, max_eq_left]
  exact (Nat.length_toDigits_le_iff (by decide) hpos).mpr h

theorem le_length_padded (width n : ℕ) : width ≤ (padded width n).length := by
  rw [padded, List.length_leftpad]
  exact le_max_left _ _

theorem padded_ne_nil (width n : ℕ) : padded width n ≠ [] := by
  rw [padded, List.leftpad]
  exact List.append_ne_nil_of_right_ne_nil _ Nat.toDigits_ne_nil

theorem ofDigitChars_padded : Nat.ofDigitChars 10 (padded width n) 0 = n :=
  Text.ofDigitChars_leftpad width n

end Padded

/-! ### Reading numbers -/

/-- **A run of digits is read as a number.** -/
theorem readDigits_append {most : ℕ} {digits rest : List Char}
    (hdigits : ∀ c ∈ digits, c.isDigit = true) (hne : digits ≠ []) (hmost : digits.length ≤ most)
    (hrest : ∀ c ∈ rest.head?, c.isDigit = false) :
    readDigits most (digits ++ rest) = some (Nat.ofDigitChars 10 digits 0, rest) := by
  have htake : ((digits ++ rest).takeWhile Char.isDigit).take most = digits := by
    rw [(Text.run_append hdigits hrest).1, List.take_of_length_le hmost]
  rw [readDigits, htake, if_neg (by simpa using hne), List.drop_left]

/-- A text that starts with digits does not start with white space. -/
private theorem skipBlanks_append {digits rest : List Char}
    (hdigits : ∀ c ∈ digits, c.isDigit = true) (hne : digits ≠ []) :
    Text.skipBlanks (digits ++ rest) = digits ++ rest := by
  obtain ⟨c, cs, rfl⟩ := List.exists_cons_of_ne_nil hne
  have hc := Text.toNat_of_isDigit (hdigits c List.mem_cons_self)
  exact Text.skipBlanks_cons_of_not_isBlank (Text.isBlank_eq_false (by omega) (by omega)) _

theorem readPart_padded {n : ℕ} (h : n < 100) (rest : List Char)
    (hrest : ∀ c ∈ rest.head?, c.isDigit = false) :
    readPart (padded 2 n ++ rest) = some (n, rest) := by
  have hdigits : ∀ c ∈ padded 2 n, c.isDigit = true := fun c => isDigit_of_mem_padded
  have hlength : (padded 2 n).length = 2 := length_padded (by decide) h
  rw [readPart, skipBlanks_append hdigits (padded_ne_nil _ n),
    readDigits_append hdigits (padded_ne_nil _ n) hlength.le hrest, ofDigitChars_padded]

theorem readYear_padded {n : ℕ} (h : n < 10000) {rest : List Char}
    (hrest : ∀ c ∈ rest.head?, c.isDigit = false) :
    readYear (padded 4 n ++ rest) = some ((n : ℤ), rest) := by
  have hdigits : ∀ c ∈ padded 4 n, c.isDigit = true := fun c => isDigit_of_mem_padded
  have hlength : (padded 4 n).length = 4 := length_padded (by decide) h
  have hread : readDigits 4 (padded 4 n ++ rest) = some (n, rest) := by
    rw [readDigits_append hdigits (padded_ne_nil _ n) hlength.le hrest, ofDigitChars_padded]
  have hmem : ∀ {c : Char} {cs : List Char}, padded 4 n ++ rest = c :: cs → c ∈ padded 4 n := by
    intro c cs hcons
    obtain ⟨c', cs', hcs⟩ := List.exists_cons_of_ne_nil (padded_ne_nil 4 n)
    rw [hcs, List.cons_append] at hcons
    rw [hcs, (List.cons.inj hcons).1]
    exact List.mem_cons_self
  -- a digit in front is no sign
  unfold readYear
  rw [skipBlanks_append hdigits (padded_ne_nil _ n)]
  split
  · next hcons => exact absurd (hdigits _ (hmem hcons)) (by decide)
  · next hcons => exact absurd (hdigits _ (hmem hcons)) (by decide)
  · rw [hread]
    rfl

/-! ### Dates -/

variable {d : Date}

/-- Months and days have two digits. -/
theorem month_day_lt (d : Date) : d.month < 100 ∧ d.day < 100 := by
  have hmonth := Calendar.month_bounds_of_daysInMonth_pos
    (lt_of_lt_of_le d.isDay.2.1 d.isDay.2.2)
  have hday := d.isDay.2.2.trans (Calendar.daysInMonth_le d.year d.month)
  omega

theorem yearText_eq (h : 0 ≤ d.year ∧ d.year ≤ 9999) : yearText d.year = padded 4 d.year.natAbs :=
  if_pos h

/-- **A date whose year has four digits reads back from its written form.** -/
theorem read?_chars (h : 0 ≤ d.year ∧ d.year ≤ 9999) : read? .tight d.chars = some d := by
  obtain ⟨hmonth, hday⟩ := d.month_day_lt
  have hyear : readYear d.chars
      = some (d.year, '-' :: padded 2 d.month ++ '-' :: padded 2 d.day) := by
    rw [chars, yearText_eq h, List.append_assoc, readYear_padded (by omega) (by simp),
      Int.natAbs_of_nonneg h.1]
  have hhyphen : ∀ cs, readHyphen .tight ('-' :: cs) = some cs := fun cs => rfl
  have hmonth : readPart (padded 2 d.month ++ '-' :: padded 2 d.day)
      = some (d.month, '-' :: padded 2 d.day) := readPart_padded hmonth _ (by simp)
  have hday : readPart (padded 2 d.day) = some (d.day, []) := by
    have := readPart_padded hday [] (by simp)
    rwa [List.append_nil] at this
  simp [read?, hyear, hhyphen, hmonth, hday, Spacing.skip]

theorem length_chars (h : 0 ≤ d.year ∧ d.year ≤ 9999) : d.chars.length = 10 := by
  obtain ⟨hmonth, hday⟩ := d.month_day_lt
  have hyear : (padded 4 d.year.natAbs).length = 4 := length_padded (by decide) (by omega)
  have hmonth : (padded 2 d.month).length = 2 := length_padded (by decide) hmonth
  have hday : (padded 2 d.day).length = 2 := length_padded (by decide) hday
  simp [chars, yearText_eq h, hyear, hmonth, hday]

theorem ascii_of_mem_chars (h : 0 ≤ d.year ∧ d.year ≤ 9999) {c : Char} (hc : c ∈ d.chars) :
    c.toNat ≤ 127 := by
  have hdigit : ∀ {width n : ℕ}, c ∈ padded width n → c.toNat ≤ 127 := fun hmem =>
    (Text.toNat_of_isDigit (isDigit_of_mem_padded hmem)).2.trans (by decide)
  rw [chars, yearText_eq h] at hc
  simp only [List.mem_append, List.mem_cons, List.append_assoc, List.cons_append] at hc
  rcases hc with hyear | rfl | hmonth | rfl | hday
  · exact hdigit hyear
  · decide
  · exact hdigit hmonth
  · decide
  · exact hdigit hday

/-- **A date whose year has four digits is recognised in its written form.** -/
theorem ofText?_text (h : 0 ≤ d.year ∧ d.year ≤ 9999) : ofText? d.text = some d := by
  have hsize : d.text.utf8ByteSize = 10 := by
    rw [text, String.utf8ByteSize_ofList, Text.utf8Len_of_ascii fun c => ascii_of_mem_chars h,
      length_chars h]
  rw [ofText?, if_pos hsize, text, String.toList_ofList, read?_chars h]

/-- The sign of a year outside the four digits makes the written form longer. -/
theorem lt_length_chars (h : ¬ (0 ≤ d.year ∧ d.year ≤ 9999)) : 10 < d.chars.length := by
  have hyear := le_length_padded 4 d.year.natAbs
  have hmonth := le_length_padded 2 d.month
  have hday := le_length_padded 2 d.day
  rw [chars, yearText, if_neg h]
  simp only [List.length_append, List.length_cons]
  omega

/-- A date whose year does not have four digits is not recognised in its written form. -/
theorem ofText?_text_eq_none (h : ¬ (0 ≤ d.year ∧ d.year ≤ 9999)) : ofText? d.text = none := by
  have hsize : 10 < d.text.utf8ByteSize := by
    rw [text, String.utf8ByteSize_ofList]
    exact (lt_length_chars h).trans_le (Text.length_le_utf8Len _)
  rw [ofText?, if_neg hsize.ne']

/-- **A date is recognised in its written form exactly when its year has four digits.** -/
theorem ofText?_text_iff : ofText? d.text = some d ↔ 0 ≤ d.year ∧ d.year ≤ 9999 := by
  refine ⟨fun h => ?_, ofText?_text⟩
  by_contra hyear
  rw [ofText?_text_eq_none hyear] at h
  cases h

/-! ### Hyphens -/

theorem readDigits_suffix {most n : ℕ} {cs rest : List Char}
    (h : readDigits most cs = some (n, rest)) : rest <:+ cs := by
  unfold readDigits at h
  dsimp only at h
  split at h
  · cases h
  · cases h
    exact List.drop_suffix _ cs

theorem readYear_suffix {cs rest : List Char} {year : ℤ} (h : readYear cs = some (year, rest)) :
    rest <:+ cs := by
  have hskip : Text.skipBlanks cs <:+ cs := List.dropWhile_suffix _
  unfold readYear at h
  split at h
  · next rest' hsign =>
    obtain ⟨⟨n, rest''⟩, hread, heq⟩ := Option.map_eq_some_iff.mp h
    cases heq
    rw [hsign] at hskip
    exact (readDigits_suffix hread).trans ((List.suffix_cons _ _).trans hskip)
  · next rest' hsign =>
    obtain ⟨⟨n, rest''⟩, hread, heq⟩ := Option.map_eq_some_iff.mp h
    cases heq
    rw [hsign] at hskip
    exact (readDigits_suffix hread).trans ((List.suffix_cons _ _).trans hskip)
  · obtain ⟨⟨n, rest''⟩, hread, heq⟩ := Option.map_eq_some_iff.mp h
    cases heq
    exact (readDigits_suffix hread).trans hskip

theorem hyphen_mem_of_readHyphen {spacing : Spacing} {cs rest : List Char}
    (h : readHyphen spacing cs = some rest) : '-' ∈ cs := by
  have hskip : spacing.skip cs <:+ cs := by
    cases spacing with
    | tight => exact List.suffix_refl cs
    | loose => exact List.dropWhile_suffix _
  unfold readHyphen at h
  split at h
  · next hcons =>
    rw [hcons] at hskip
    exact hskip.subset List.mem_cons_self
  · cases h

/-- Behind the year of a date there is a hyphen. -/
theorem hyphen_mem_of_read? {spacing : Spacing} {cs : List Char}
    (h : read? spacing cs = some d) : '-' ∈ cs := by
  unfold read? at h
  obtain ⟨⟨year, rest⟩, hyear, h⟩ := Option.bind_eq_some_iff.mp h
  obtain ⟨rest', hhyphen, -⟩ := Option.bind_eq_some_iff.mp h
  exact (readYear_suffix hyear).subset (hyphen_mem_of_readHyphen hhyphen)

/-- **A text without hyphens is no date.** -/
theorem hyphen_mem_of_ofText? {s : String} (h : ofText? s = some d) : '-' ∈ s.toList := by
  unfold ofText? at h
  split at h
  · exact hyphen_mem_of_read? h
  · cases h

end Date

end Specimen

import Specimen.Proofs.Generation.Decimals
import Specimen.Proofs.Generation.Integers
import Specimen.Proofs.Spec.Sentence

/-!
# What rules admit

A rule admits the values that it asks for.  Generation makes only admitted values, and
for the rules that spec strings denote it makes one whenever there is one: whether it
fails is settled by the rule, before anything is drawn.

## Main definitions

* `Spec.Rule.Admits window rule v` — the rule, with numbers from the window, asks for
  values like `v`.
* `Generator.fault g` — why the generator makes no value, if so.
* `GenerationError.IsFault e` — the error is one that a rule alone may give rise to.

## Main statements

* `Generator.generate_admits` — generated values are admitted.
* `Generator.generate_endsIn` — whether generation fails is settled before it draws.
* `Generator.fault_eq_none_iff` — it succeeds when the rule admits a value at all.
-/

namespace Specimen

open Specimen.Random (Source Draw)

/-- The rule asks for values like this one; numbers with fewer than two bounds come from
the window. -/
def Spec.Rule.Admits (window : UInt32) : Spec.Rule → Value → Prop
  | .boolean, .bool _ => True
  | .date, .date d =>
    (2001 ≤ d.year ∧ d.year ≤ 2017) ∧ (1 ≤ d.month ∧ d.month ≤ 11) ∧ d.day = 1
  | .string length, .text s =>
    s.toList.length = length.getD Primitive.defaultLength ∧
      ∀ c ∈ s.toList, c ∈ Primitive.alphabet
  | .integer range, .integer n => Generator.IntegerIn window range n.toInt
  | .decimal range, .decimal x => Generator.DecimalIn window range x
  | _, _ => False

section

variable {window : UInt32} {v : Value}

theorem Spec.Rule.not_admits_skip : ¬ Spec.Rule.skip.Admits window v := by
  cases v <;> exact id

theorem Spec.Rule.admits_boolean_iff :
    Spec.Rule.boolean.Admits window v ↔ ∃ b, v = .bool b := by
  cases v <;> simp [Admits]

theorem Spec.Rule.admits_date_iff :
    Spec.Rule.date.Admits window v ↔
      ∃ d, v = .date d ∧ (2001 ≤ d.year ∧ d.year ≤ 2017) ∧ (1 ≤ d.month ∧ d.month ≤ 11) ∧
        d.day = 1 := by
  cases v <;> simp [Admits]

theorem Spec.Rule.admits_string_iff {length : Option ℕ} :
    (Spec.Rule.string length).Admits window v ↔
      ∃ s, v = .text s ∧ s.toList.length = length.getD Primitive.defaultLength ∧
        ∀ c ∈ s.toList, c ∈ Primitive.alphabet := by
  cases v <;> simp [Admits]

theorem Spec.Rule.admits_integer_iff {range : Spec.Range Int64} :
    (Spec.Rule.integer range).Admits window v ↔
      ∃ n, v = .integer n ∧ Generator.IntegerIn window range n.toInt := by
  cases v <;> simp [Admits]

theorem Spec.Rule.admits_decimal_iff {range : Spec.Range Binary64} :
    (Spec.Rule.decimal range).Admits window v ↔
      ∃ x, v = .decimal x ∧ Generator.DecimalIn window range x := by
  cases v <;> simp [Admits]

end

/-! ### Texts and dates -/

namespace Primitive

variable {σ : Type} [Source σ]

theorem letter_always : (letter : Draw σ Char).Always (· ∈ alphabet) := by
  refine (Random.uniform32_lt (by decide)).bind fun k hk => Draw.Always.pure ?_
  rw [List.getD_eq_getElem?_getD, List.getElem?_eq_getElem hk, Option.getD_some]
  exact List.getElem_mem hk

theorem text_always (length : Option ℕ) :
    (text length : Draw σ String).Always fun s =>
      s.toList.length = length.getD defaultLength ∧ ∀ c ∈ s.toList, c ∈ alphabet := by
  refine (letter_always.times _).bind fun cs hcs => Draw.Always.pure ?_
  rw [String.toList_ofList]
  exact hcs

/-- Every month has a first day. -/
theorem daysInMonth_pos {year : ℤ} {month : ℕ} (hlow : 1 ≤ month) (hhigh : month ≤ 12) :
    1 ≤ Calendar.daysInMonth year month := by
  match month with
  | 0 => omega
  | 1 | 3 | 4 | 5 | 6 | 7 | 8 | 9 | 10 | 11 | 12 => simp [Calendar.daysInMonth]
  | 2 =>
    simp only [Calendar.daysInMonth]
    split <;> decide
  | n + 13 => omega

theorem date_always :
    (date : Draw σ Date).Always fun d =>
      (2001 ≤ d.year ∧ d.year ≤ 2017) ∧ (1 ≤ d.month ∧ d.month ≤ 11) ∧ d.day = 1 := by
  refine (Random.uniform32_lt (by decide)).bind fun year hyear =>
    (Random.uniform32_lt (by decide)).bind fun month hmonth => Draw.Always.pure ?_
  have hday : Calendar.IsDay (2001 + year) (month + 1) 1 := by
    refine ⟨⟨?_, ?_⟩, le_rfl, daysInMonth_pos (by omega) (by omega)⟩
    · rw [Calendar.firstYear]
      omega
    · rw [Calendar.lastYear]
      omega
  rw [Date.of?, dif_pos hday, Option.getD_some]
  dsimp only
  omega

end Primitive

namespace Generator

variable {σ : Type} [Source σ]

/-! ### What is generated -/

/-- **Generated values are admitted by the rule.** -/
theorem generate_admits {g : Generator} {v : Value} {s t : σ}
    (h : g.generate s = .ok v t) : g.rule.Admits g.window v := by
  obtain ⟨rule, window⟩ := g
  unfold generate at h
  cases rule with
  | skip => cases h
  | boolean =>
    obtain ⟨b, -, rfl⟩ := Generation.map_eq_ok.mp h
    trivial
  | date =>
    obtain ⟨d, hd, rfl⟩ := Generation.map_eq_ok.mp h
    exact Generation.of_draw_eq_ok Primitive.date_always hd
  | string length =>
    obtain ⟨text, htext, rfl⟩ := Generation.map_eq_ok.mp h
    exact Generation.of_draw_eq_ok (Primitive.text_always length) htext
  | integer range =>
    obtain ⟨n, hn, rfl⟩ := Generation.map_eq_ok.mp h
    exact integer_in hn
  | decimal range =>
    obtain ⟨x, hx, rfl⟩ := Generation.map_eq_ok.mp h
    exact decimal_in hx

/-! ### Whether anything is generated -/

/-- Why the generator makes no value. -/
def fault (g : Generator) : Option GenerationError :=
  match g.rule with
  | .boolean | .date | .string _ => none
  | .integer range => integerFault g.window range
  | .decimal range => decimalFault range
  | .skip => some .skip

/-- Whether a value is generated does not depend on what is drawn. -/
theorem generate_endsIn (g : Generator) : (g.generate : Generation σ Value).EndsIn g.fault := by
  obtain ⟨rule, window⟩ := g
  unfold generate fault
  cases rule with
  | skip => exact Generation.endsIn_throw _
  | boolean => exact (Generation.endsIn_draw _).map _
  | date => exact (Generation.endsIn_draw _).map _
  | string length => exact (Generation.endsIn_draw _).map _
  | integer range => exact (integer_endsIn window range).map _
  | decimal range => exact (decimal_endsIn window range).map _

end Generator

/-- The error is one of a rule: no number lies where it asks for one, or it makes no values. -/
def GenerationError.IsFault : GenerationError → Prop
  | .boundOrder _ _ | .emptyRange _ _ | .emptyDecimalRange _ _ | .decimalOverflow _ | .skip => True
  | _ => False

theorem Generator.isFault_of_fault {g : Generator} {e : GenerationError} (h : g.fault = some e) :
    e.IsFault := by
  obtain ⟨rule, window⟩ := g
  cases rule with
  | skip => cases h; trivial
  | boolean | date | string _ => cases h
  | integer range =>
    cases range with
    | any => cases h
    | below upper | above lower | between lower upper =>
      simp only [fault, integerFault] at h
      split at h <;> cases h
      trivial
  | decimal range =>
    cases range with
    | any => cases h
    | below upper | above lower =>
      simp only [fault, decimalFault] at h
      split at h <;> cases h
      trivial
    | between lower upper =>
      simp only [fault, decimalFault] at h
      split at h
      · split at h <;> cases h
        trivial
      · cases h
        trivial

/-- Generation fails for the rule alone. -/
theorem Generator.isFault_of_generate {σ : Type} [Source σ] {g : Generator} {s t : σ}
    {e : GenerationError} (h : g.generate s = .error e t) : e.IsFault :=
  isFault_of_fault (g.generate_endsIn.eq_of_error h)

/-- Bounds of decimals are finite. -/
def Spec.Rule.HasFiniteBounds : Spec.Rule → Prop
  | .decimal range => range.HasFiniteBounds
  | _ => True

/-- A rule that a spec string denotes has finite bounds. -/
theorem Spec.hasFiniteBounds_of_parse {spec : String} {rule : Spec.Rule}
    (h : Spec.parse spec = .ok rule) : rule.HasFiniteBounds := by
  obtain ⟨q, -, -, hdenotes⟩ := Spec.exists_sentence_of_parse h
  cases hdenotes with
  | skip | boolean | date | string | sized | integer => trivial
  | decimal _ hbounds =>
    cases hbounds with
    | any => trivial
    | below hx => exact (Literal.of_decimalBound hx).2
    | above hx => exact (Literal.of_decimalBound hx).2
    | between hx hy => exact ⟨(Literal.of_decimalBound hx).2, (Literal.of_decimalBound hy).2⟩

/-- **A value can be generated exactly when the rule admits one**, for rules with finite
bounds. -/
theorem Generator.fault_eq_none_iff {g : Generator} (h : g.rule.HasFiniteBounds) :
    g.fault = none ↔ ∃ v, g.rule.Admits g.window v := by
  obtain ⟨rule, window⟩ := g
  unfold fault
  cases rule with
  | skip =>
    refine ⟨nofun, ?_⟩
    rintro ⟨v, hv⟩
    exact (Spec.Rule.not_admits_skip hv).elim
  | boolean => exact ⟨fun _ => ⟨.bool true, trivial⟩, fun _ => rfl⟩
  | date =>
    refine ⟨fun _ => ⟨.date ⟨2001, 1, 1, by decide⟩, ?_⟩, fun _ => rfl⟩
    simp [Spec.Rule.Admits]
  | string length =>
    refine ⟨fun _ => ⟨.text (String.ofList (List.replicate (length.getD 10) 'a')), ?_, ?_⟩,
      fun _ => rfl⟩
    · rw [String.toList_ofList, List.length_replicate]
      rfl
    · intro c hc
      rw [String.toList_ofList] at hc
      obtain rfl := List.eq_of_mem_replicate hc
      decide
  | integer range =>
    refine (integerFault_eq_none_iff window range).trans ⟨?_, ?_⟩
    · rintro ⟨n, hn⟩
      exact ⟨.integer n, hn⟩
    · rintro ⟨v, hv⟩
      obtain ⟨n, rfl, hn⟩ := Spec.Rule.admits_integer_iff.mp hv
      exact ⟨n, hn⟩
  | decimal range =>
    refine (decimalFault_eq_none_iff window h).trans ⟨?_, ?_⟩
    · rintro ⟨x, hx⟩
      exact ⟨.decimal x, hx⟩
    · rintro ⟨v, hv⟩
      obtain ⟨x, rfl, hx⟩ := Spec.Rule.admits_decimal_iff.mp hv
      exact ⟨x, hx⟩

end Specimen

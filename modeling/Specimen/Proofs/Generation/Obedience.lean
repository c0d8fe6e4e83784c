import Specimen.Proofs.Generation.Admission
import Specimen.Random.Script

/-!
# Generated values obey their spec strings

A spec string is read, its bounds are rounded to doubles or put into words, and values are
drawn within the rounded bounds.  None of this shows in the result: a generated number lies
strictly on the required side of every literal as it is written, taken as an exact number.

## Main definitions

* `Spec.Range.Encloses bounds v` — the number lies strictly within the written bounds.
* `Spec.Range.Reaches width bounds v` — the number is no further off than the window.
* `Spec.Sentence.Describes window q v` — the value is what the sentence says.

## Main statements

* `Generator.resolve_eq_ok` — what a resolved generator is made of.
* `Generator.generate_obeys` — every generated value is what its spec string says.
-/

namespace Specimen

namespace Spec

/-- The number lies strictly on the required side of every literal as it is written. -/
def Range.Encloses (bounds : Range Literal) (v : ℚ) : Prop :=
  match bounds with
  | .any => True
  | .below upper => v < upper.value
  | .above lower => lower.value < v
  | .between lower upper => lower.value < v ∧ v < upper.value

/-- The number is no further away than the window is wide: from zero without bounds, or
from the only bound. -/
def Range.Reaches (width : ℕ) (bounds : Range Literal) (v : ℚ) : Prop :=
  match bounds with
  | .any => 0 ≤ v ∧ v < width
  | .below upper => upper.value - width ≤ v
  | .above lower => v ≤ lower.value + width
  | .between _ _ => True

/-- The value is of the kind that the sentence names, and is what the sentence says of it.
A window of zero counts as one. -/
inductive Sentence.Describes (window : UInt32) : Sentence → Value → Prop
  | boolean (b : Bool) : Describes window .boolean (.bool b)
  | date {d : Date} : 2001 ≤ d.year ∧ d.year ≤ 2017 → 1 ≤ d.month ∧ d.month ≤ 11 → d.day = 1 →
    Describes window .date (.date d)
  | string {s : String} : s.length = 10 → (∀ c ∈ s.toList, c ∈ Primitive.alphabet) →
    Describes window (.string none) (.text s)
  | sized {l : Literal} {s : String} : (s.length : ℚ) = l.value →
    (∀ c ∈ s.toList, c ∈ Primitive.alphabet) → Describes window (.string (some l)) (.text s)
  | integer {word : NumberWord} {bounds : Range Literal} {n : Int64} : word.kind = .integer →
    bounds.Encloses n.toInt → bounds.Reaches (max window.toNat 1) n.toInt →
    Describes window (.number word bounds) (.integer n)
  | decimal {word : NumberWord} {bounds : Range Literal} {x : Binary64} : word.kind = .decimal →
    x.isFinite = true → bounds.Encloses x.toRat →
    (bounds = .any → bounds.Reaches (max window.toNat 1) x.toRat) →
    Describes window (.number word bounds) (.decimal x)

/-! ### From rules to sentences -/

/-- Integers in the range of a rule lie within the bounds as written, and no further off
than the window. -/
theorem encloses_of_integerIn {window : UInt32} {bounds : Range Literal} {range : Range Int64}
    {n : ℤ} (h : bounds.Rel (fun l m => l.integerBound = .ok m) range)
    (hn : Generator.IntegerIn window range n) :
    bounds.Encloses n ∧ bounds.Reaches (max window.toNat 1) n := by
  have hwidth : Primitive.width window = max window.toNat 1 := max_comm _ _
  -- integer bounds are the literals themselves, so the statements only change their type
  cases h with
  | any =>
    obtain ⟨hlow, hhigh⟩ := hn
    rw [hwidth] at hhigh
    exact ⟨trivial, by exact_mod_cast hlow, by exact_mod_cast hhigh⟩
  | below hm =>
    obtain ⟨hlow, hhigh⟩ := hn
    rw [hwidth] at hlow
    refine ⟨?_, ?_⟩
    · rw [Range.Encloses, ← Literal.value_of_integerBound hm]
      exact_mod_cast hhigh
    · rw [Range.Reaches, ← Literal.value_of_integerBound hm]
      exact_mod_cast hlow
  | above hm =>
    obtain ⟨hlow, hhigh⟩ := hn
    rw [hwidth] at hhigh
    refine ⟨?_, ?_⟩
    · rw [Range.Encloses, ← Literal.value_of_integerBound hm]
      exact_mod_cast hlow
    · rw [Range.Reaches, ← Literal.value_of_integerBound hm]
      exact_mod_cast hhigh
  | between hm hm' =>
    obtain ⟨hlow, hhigh⟩ := hn
    refine ⟨⟨?_, ?_⟩, trivial⟩
    · rw [← Literal.value_of_integerBound hm]
      exact_mod_cast hlow
    · rw [← Literal.value_of_integerBound hm']
      exact_mod_cast hhigh

/-- Decimals in the range of a rule lie within the bounds as written: what is beyond the
rounded bound is beyond the number that was rounded. -/
theorem encloses_of_decimalIn {window : UInt32} {bounds : Range Literal} {range : Range Binary64}
    {x : Binary64} (h : bounds.Rel (fun l y => l.decimalBound = .ok y) range)
    (hx : Generator.DecimalIn window range x) :
    bounds.Encloses x.toRat ∧ (bounds = .any → bounds.Reaches (max window.toNat 1) x.toRat) := by
  have hwidth : Primitive.width window = max window.toNat 1 := max_comm _ _
  obtain ⟨hfin, hin⟩ := hx
  cases h with
  | any =>
    obtain ⟨hlow, hhigh⟩ := hin
    rw [hwidth] at hhigh
    exact ⟨trivial, fun _ => ⟨hlow, hhigh⟩⟩
  | below hy => exact ⟨Literal.lt_value hy hfin hin, nofun⟩
  | above hy => exact ⟨Literal.value_lt hy hfin hin, nofun⟩
  | between hy hy' =>
    exact ⟨⟨Literal.value_lt hy hfin hin.1, Literal.lt_value hy' hfin hin.2⟩, nofun⟩

/-- What a rule admits is described by the sentences that mean the rule. -/
theorem Sentence.describes_of_admits {window : UInt32} {q : Sentence} {rule : Rule} {v : Value}
    (h : q.Denotes rule) (hv : rule.Admits window v) : q.Describes window v := by
  cases h with
  | skip => exact (Rule.not_admits_skip hv).elim
  | boolean =>
    obtain ⟨b, rfl⟩ := Rule.admits_boolean_iff.mp hv
    exact .boolean b
  | date =>
    obtain ⟨d, rfl, hyear, hmonth, hday⟩ := Rule.admits_date_iff.mp hv
    exact .date hyear hmonth hday
  | string =>
    obtain ⟨s, rfl, hlength, hletters⟩ := Rule.admits_string_iff.mp hv
    exact .string hlength hletters
  | sized hliteral =>
    obtain ⟨s, rfl, hlength, hletters⟩ := Rule.admits_string_iff.mp hv
    refine .sized ?_ hletters
    rw [← Literal.value_of_natural? hliteral]
    exact_mod_cast hlength
  | integer hkind hbounds =>
    obtain ⟨n, rfl, hn⟩ := Rule.admits_integer_iff.mp hv
    obtain ⟨hencloses, hreaches⟩ := encloses_of_integerIn hbounds hn
    exact .integer hkind hencloses hreaches
  | decimal hkind hbounds =>
    obtain ⟨x, rfl, hx⟩ := Rule.admits_decimal_iff.mp hv
    obtain ⟨hencloses, hreaches⟩ := encloses_of_decimalIn hbounds hx
    exact .decimal hkind hx.1 hencloses hreaches

end Spec

namespace Generator

/-- A resolved generator has the rule of its spec string, which is not to leave out. -/
theorem resolve_eq_ok {spec : String} {window : UInt32} {g : Generator} :
    resolve spec window = .ok g ↔
      Spec.parse spec = .ok g.rule ∧ g.rule.isSkip = false ∧ g.window = window := by
  obtain ⟨rule, window'⟩ := g
  unfold resolve
  cases Spec.parse spec with
  | error e => exact ⟨nofun, fun h => nomatch h.1⟩
  | ok rule' =>
    change (if rule'.isSkip = true then _ else _) = _ ↔ _
    cases hskip : rule'.isSkip with
    | true =>
      constructor
      · nofun
      · rintro ⟨h, hrule, -⟩
        cases h
        rw [hskip] at hrule
        cases hrule
    | false =>
      constructor
      · intro h
        cases h
        exact ⟨rfl, hskip, rfl⟩
      · rintro ⟨h, -, rfl⟩
        cases h
        rfl

/-- **A generated value is what its spec string says**: of the kind that the string names,
and strictly within every bound as it is written. -/
theorem generate_obeys {σ : Type} [Random.Source σ] {spec : String} {window : UInt32}
    {g : Generator} {v : Value} {s t : σ} (hresolve : resolve spec window = .ok g)
    (hrun : g.generate s = .ok v t) :
    ∃ q : Spec.Sentence, Spec.scan spec = .ok q.tokens ∧
      Spec.Token.Spelled q.tokens spec.toList ∧ q.Describes window v := by
  obtain ⟨hparse, -, rfl⟩ := resolve_eq_ok.mp hresolve
  obtain ⟨q, hscan, hspelled, hdenotes⟩ := Spec.exists_sentence_of_parse hparse
  exact ⟨q, hscan, hspelled, q.describes_of_admits hdenotes (generate_admits hrun)⟩

/-- The lowest integer of the window below a bound. -/
theorem generate_obeys_upper :
    ∃ q : Spec.Sentence, Spec.scan "integer < 5" = .ok q.tokens ∧
      Spec.Token.Spelled q.tokens "integer < 5".toList ∧ q.Describes 1000 (.integer (-995)) :=
  generate_obeys (g := ⟨.integer (.below 5), 1000⟩) (s := Random.Script.ofWords [0] 0)
    (t := ⟨[], 0, 1⟩) (by decide +kernel) rfl

end Generator

end Specimen

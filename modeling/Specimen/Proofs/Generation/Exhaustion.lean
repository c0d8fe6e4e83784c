import Specimen.Proofs.Generation.Obedience
import Specimen.Proofs.Generation.Ranges
import Specimen.Proofs.Spec.Grammar

/-!
# When an accepted spec string has no values

The parser tests bounds for being in order, and the generators test their ranges again.
The two do not test the same: a single bound passes the parser wherever it stands, and two
decimal bounds pass it although they are next to each other.  What is left for the
generators to refuse are the ends of the integers, the ends of the doubles and neighbouring
doubles.  Nothing else is, for neither the window nor what is drawn from it can use up a
range that has a value: an offset is absorbed or stays below the last step of the doubles,
and the midpoint finds a double between two bounds where the random points have missed all
of them.

## Main definitions

* `Spec.Rule.Vetted rule` — the tests that the parser makes have been passed.
* `Spec.Rule.Exhausted rule e` — no value is left, and `e` says so.

## Main statements

* `Generator.vetted_of_resolve` — resolved generators have passed the tests of the parser.
* `Generator.fault_eq_some_iff` — behind these tests generators fail for exhaustion only.
* `Generator.generate_fails_iff` — so do the generators of accepted spec strings.
-/

namespace Specimen

open Specimen.Random (Source)

/-- The rule makes values, and its bounds have passed the tests of the parser. -/
def Spec.Rule.Vetted : Spec.Rule → Prop
  | .skip => False
  | .boolean | .date | .string _ => True
  | .integer range => range.HasRoom
  | .decimal range => range.HasFiniteBounds ∧ range.InOrder

/-- The rule asks for a number where there is none, and the error says so.  The error of an
integer repeats the last word, for nothing is left of the window there. -/
inductive Spec.Rule.Exhausted : Spec.Rule → GenerationError → Prop
  | lastInteger : Exhausted (.integer (.above Int64.maxValue))
      (.emptyRange Int64.maxValue Int64.maxValue)
  | firstInteger : Exhausted (.integer (.below Int64.minValue))
      (.emptyRange Int64.minValue Int64.minValue)
  | noneAbove {lower : Binary64} : (∀ x : Binary64, x.isFinite = true → lower.lt x = false) →
      Exhausted (.decimal (.above lower)) (.decimalOverflow lower)
  | noneBelow {upper : Binary64} : (∀ x : Binary64, x.isFinite = true → x.lt upper = false) →
      Exhausted (.decimal (.below upper)) (.decimalOverflow upper)
  | noneBetween {lower upper : Binary64} :
      (∀ x : Binary64, ¬ (lower.lt x = true ∧ x.lt upper = true)) →
      Exhausted (.decimal (.between lower upper)) (.emptyDecimalRange lower upper)

/-- Bounds out of order and rules without values are refused by the parser already. -/
theorem Spec.Rule.Exhausted.ne_refusal {rule : Spec.Rule} {e : GenerationError}
    (h : rule.Exhausted e) : e ≠ .skip ∧ ∀ lower upper, e ≠ .boundOrder lower upper := by
  cases h <;> exact ⟨nofun, nofun⟩

namespace Generator

/-! ### Ranges without doubles -/

/-- Below a bound there is no finite double exactly when the next double down is not one. -/
theorem not_isFinite_nextDown_iff {upper : Binary64} :
    ¬ upper.nextDown.isFinite = true ↔
      ∀ x : Binary64, x.isFinite = true → x.lt upper = false := by
  constructor
  · intro hlast x hx
    rw [Bool.eq_false_iff]
    intro hlt
    exact hlast (Binary64.isFinite_nextDown_of_lt hx hlt)
  · intro hnone hnext
    have hge := hnone _ hnext
    rw [Binary64.nextDown_lt hnext] at hge
    cases hge

theorem not_isFinite_nextUp_iff {lower : Binary64} :
    ¬ lower.nextUp.isFinite = true ↔
      ∀ x : Binary64, x.isFinite = true → lower.lt x = false := by
  constructor
  · intro hlast x hx
    rw [Bool.eq_false_iff]
    intro hlt
    exact hlast (Binary64.isFinite_nextUp_of_lt hx hlt)
  · intro hnone hnext
    have hge := hnone _ hnext
    rw [Binary64.lt_nextUp hnext] at hge
    cases hge

/-- Between finite bounds there is no double exactly when the midpoint is not one. -/
theorem not_isBetween_midpoint_iff {lower upper : Binary64} (hl : lower.isFinite = true)
    (hu : upper.isFinite = true) :
    ¬ Primitive.isBetween lower upper (Primitive.midpoint lower upper) = true ↔
      ∀ x : Binary64, ¬ (lower.lt x = true ∧ x.lt upper = true) := by
  constructor
  · rintro hmiddle x ⟨hlx, hxu⟩
    exact hmiddle (Binary64.isBetween_midpoint hl hu hlx hxu)
  · intro hnone hmiddle
    rw [Primitive.isBetween, Bool.and_eq_true] at hmiddle
    exact hnone _ hmiddle

/-! ### Behind the tests of the parser -/

/-- The rule of a resolved generator has passed the tests of the parser. -/
theorem vetted_of_resolve {spec : String} {window : UInt32} {g : Generator}
    (h : resolve spec window = .ok g) : g.rule.Vetted := by
  obtain ⟨rule, window'⟩ := g
  obtain ⟨hparse, hskip, -⟩ := resolve_eq_ok.mp h
  obtain ⟨q, hwritten⟩ := Spec.exists_writtenAs_of_parse hparse
  obtain ⟨hmeans, -⟩ := (Spec.parse_eq_ok_iff_of_writtenAs hwritten).mp hparse
  have hfinite := Spec.hasFiniteBounds_of_parse hparse
  cases hmeans with
  | skip => cases hskip
  | boolean | date | string | sized => trivial
  | integer _ _ hroom => exact hroom
  | decimal _ _ hinorder => exact ⟨hfinite, hinorder⟩

/-- Integers run out at the two last words, and nowhere between bounds that leave room. -/
theorem integerFault_eq_some_iff {window : UInt32} {range : Spec.Range Int64}
    (h : range.HasRoom) {e : GenerationError} :
    integerFault window range = some e ↔ (Spec.Rule.integer range).Exhausted e := by
  cases range with
  | any =>
    constructor
    · intro hfault
      cases hfault
    · intro hexhausted
      cases hexhausted
  | below upper =>
    rw [Primitive.integerFault_below, Option.ite_none_right_eq_some]
    constructor
    · rintro ⟨rfl, hfault⟩
      cases hfault
      exact .firstInteger
    · intro hexhausted
      cases hexhausted
      exact ⟨rfl, rfl⟩
  | above lower =>
    rw [Primitive.integerFault_above, Option.ite_none_right_eq_some]
    constructor
    · rintro ⟨rfl, hfault⟩
      cases hfault
      exact .lastInteger
    · intro hexhausted
      cases hexhausted
      exact ⟨rfl, rfl⟩
  | between lower upper =>
    rw [integerFault, Option.ite_none_right_eq_some]
    constructor
    · rintro ⟨hempty, -⟩
      exact absurd h (not_le.mpr hempty)
    · intro hexhausted
      cases hexhausted

/-- Decimals run out beyond the finite doubles, and between bounds that are neighbours. -/
theorem decimalFault_eq_some_iff {range : Spec.Range Binary64} (hfinite : range.HasFiniteBounds)
    (hinorder : range.InOrder) {e : GenerationError} :
    decimalFault range = some e ↔ (Spec.Rule.decimal range).Exhausted e := by
  cases range with
  | any =>
    constructor
    · intro hfault
      cases hfault
    · intro hexhausted
      cases hexhausted
  | below upper =>
    rw [decimalFault, Option.ite_none_left_eq_some, not_isFinite_nextDown_iff]
    constructor
    · rintro ⟨hnone, hfault⟩
      cases hfault
      exact .noneBelow hnone
    · intro hexhausted
      cases hexhausted with
      | noneBelow hnone => exact ⟨hnone, rfl⟩
  | above lower =>
    rw [decimalFault, Option.ite_none_left_eq_some, not_isFinite_nextUp_iff]
    constructor
    · rintro ⟨hnone, hfault⟩
      cases hfault
      exact .noneAbove hnone
    · intro hexhausted
      cases hexhausted with
      | noneAbove hnone => exact ⟨hnone, rfl⟩
  | between lower upper =>
    obtain ⟨hl, hu⟩ := hfinite
    have hbounds : (lower.lt upper && lower.isFinite && upper.isFinite) = true := by
      rw [show lower.lt upper = true from hinorder, hl, hu]
      rfl
    rw [decimalFault, if_pos hbounds, Option.ite_none_left_eq_some,
      not_isBetween_midpoint_iff hl hu]
    constructor
    · rintro ⟨hnone, hfault⟩
      cases hfault
      exact .noneBetween hnone
    · intro hexhausted
      cases hexhausted with
      | noneBetween hnone => exact ⟨hnone, rfl⟩

/-- Behind the tests of the parser, a generator fails for exhaustion and for nothing else. -/
theorem fault_eq_some_iff {g : Generator} (h : g.rule.Vetted) {e : GenerationError} :
    g.fault = some e ↔ g.rule.Exhausted e := by
  obtain ⟨rule, window⟩ := g
  cases rule with
  | skip => exact h.elim
  | boolean | date | string _ =>
    constructor
    · intro hfault
      cases hfault
    · intro hexhausted
      cases hexhausted
  | integer range => exact integerFault_eq_some_iff h
  | decimal range => exact decimalFault_eq_some_iff h.1 h.2

/-! ### Accepted spec strings -/

/-- **The generator of an accepted spec string fails exactly when its rule is exhausted**,
with the error that says so, wherever it starts.  It generates integers between any two
bounds, never complains of bounds out of order or of a rule that makes no values, and ends
alike on all sources. -/
theorem generate_fails_iff {spec : String} {window : UInt32} {g : Generator}
    (hresolve : resolve spec window = .ok g) :
    (∀ (σ : Type) [Source σ] (s : σ) (e : GenerationError),
      (∃ t, g.generate s = .error e t) ↔ g.rule.Exhausted e) ∧
    (∀ lower upper, g.rule = .integer (.between lower upper) →
      ∀ (σ : Type) [Source σ] (s : σ), ∃ v t, g.generate s = .ok v t) ∧
    (∀ (σ : Type) [Source σ] (s t : σ) (e : GenerationError), g.generate s = .error e t →
      e ≠ .skip ∧ ∀ lower upper, e ≠ .boundOrder lower upper) ∧
    ∀ (σ σ' : Type) [Source σ] [Source σ'] (s : σ) (s' : σ'),
      ((∃ v t, g.generate s = .ok v t) ↔ ∃ v t, g.generate s' = .ok v t) ∧
      ∀ e, (∃ t, g.generate s = .error e t) ↔ ∃ t, g.generate s' = .error e t := by
  have hvetted := vetted_of_resolve hresolve
  have hfails : ∀ (σ : Type) [Source σ] (s : σ) (e : GenerationError),
      (∃ t, g.generate s = .error e t) ↔ g.rule.Exhausted e := by
    intro σ _ s e
    rw [g.generate_endsIn.error_iff, fault_eq_some_iff hvetted]
  refine ⟨hfails, ?_, ?_, ?_⟩
  · intro lower upper hrule σ _ s
    rw [g.generate_endsIn.ok_iff, Option.eq_none_iff_forall_not_mem]
    intro e he
    have hexhausted := (fault_eq_some_iff hvetted).mp he
    rw [hrule] at hexhausted
    cases hexhausted
  · intro σ _ s t e hrun
    exact ((hfails σ s e).mp ⟨t, hrun⟩).ne_refusal
  · intro σ σ' _ _ s s'
    refine ⟨?_, fun e => ?_⟩
    · rw [g.generate_endsIn.ok_iff, g.generate_endsIn.ok_iff]
    · rw [hfails, hfails]

/-- Above the last word there is no integer, though the parser takes the bound. -/
theorem generate_fails_above_last :
    ∃ t, (⟨.integer (.above Int64.maxValue), 1000⟩ : Generator).generate
        (Random.Script.ofWords [0] 0)
      = .error (.emptyRange Int64.maxValue Int64.maxValue) t := by
  have hresolve : resolve "integer > 9223372036854775807" 1000
      = .ok ⟨.integer (.above Int64.maxValue), 1000⟩ := by decide +kernel
  exact ((generate_fails_iff hresolve).1 _ _ _).mpr .lastInteger

end Generator

end Specimen

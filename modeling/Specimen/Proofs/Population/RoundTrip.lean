import Specimen.Proofs.Population.Walk
import Specimen.Proofs.Value.Faithful
import Specimen.Random.Script

/-!
# Specimens survive JSON

Every leaf of a specimen was made by a rule, and what rules make survives JSON: decimals are
finite, dates have years of four digits, and texts have no hyphens, so that none looks like a
date.  The leaves of the template do not matter, which need not survive JSON themselves.

## Main statements

* `Spec.Rule.Admits.faithful` — what a rule asks for is faithful.
* `populate_admitted` — every leaf of a specimen was asked for by a rule.
* `populate_not_nonFinite` — population does not fail for a decimal that is not finite.
* `create_survives_json` — specimens are the same after writing and reading.
-/

namespace Specimen

open Specimen.Random (Source)

/-! ### What rules ask for -/

/-- No date is among the texts over the alphabet, which has no hyphen. -/
theorem Primitive.ofText?_of_alphabet {s : String} (h : ∀ c ∈ s.toList, c ∈ alphabet) :
    Date.ofText? s = none := by
  refine Option.eq_none_iff_forall_not_mem.mpr fun d hd => ?_
  exact absurd (h _ (Date.hyphen_mem_of_ofText? hd)) (by decide)

/-- **What a rule asks for is faithful.** -/
theorem Spec.Rule.Admits.faithful {window : UInt32} {rule : Spec.Rule} {v : Value}
    (h : rule.Admits window v) : v.Faithful := by
  cases rule with
  | skip => exact (Spec.Rule.not_admits_skip h).elim
  | boolean =>
    obtain ⟨b, rfl⟩ := Spec.Rule.admits_boolean_iff.mp h
    exact Value.faithful_bool b
  | date =>
    obtain ⟨d, rfl, hyear, -⟩ := Spec.Rule.admits_date_iff.mp h
    exact (Value.faithful_date_iff d).mpr (Date.ofText?_text (by omega))
  | string length =>
    obtain ⟨s, rfl, -, halphabet⟩ := Spec.Rule.admits_string_iff.mp h
    exact (Value.faithful_text_iff s).mpr (Primitive.ofText?_of_alphabet halphabet)
  | integer range =>
    obtain ⟨n, rfl, -⟩ := Spec.Rule.admits_integer_iff.mp h
    exact Value.faithful_integer n
  | decimal range =>
    obtain ⟨x, rfl, hfinite, -⟩ := Spec.Rule.admits_decimal_iff.mp h
    exact (Value.faithful_decimal_iff x).mpr hfinite

/-- What a rule asks for is a leaf. -/
theorem Spec.Rule.Admits.leaves_eq {window : UInt32} {rule : Spec.Rule} {v : Value}
    (h : rule.Admits window v) : v.leaves = [v] := by
  cases v with
  | array items => cases rule <;> exact h.elim
  | object fields => cases rule <;> exact h.elim
  | null | bool _ | integer _ | decimal _ | text _ | date _ => rw [Value.leaves] <;> nofun

/-! ### The walk -/

section

variable {σ : Type} [Source σ] {o : Options}

/-- Every leaf was asked for by a rule. -/
def Value.Admitted (window : UInt32) (leaves : List Value) : Prop :=
  ∀ leaf ∈ leaves, ∃ rule : Spec.Rule, rule.Admits window leaf

theorem Generator.generate_admitted {g : Generator} {v : Value} {s t : σ}
    (h : g.generate s = .ok v t) : Value.Admitted g.window v.leaves := by
  have hadmits := generate_admits h
  rw [hadmits.leaves_eq]
  exact List.forall_mem_singleton.mpr ⟨g.rule, hadmits⟩

theorem Value.Admitted.items {window : UInt32} {items : List Value}
    (h : ∀ item ∈ items, Admitted window item.leaves) :
    Admitted window (Value.array items).leaves := by
  rw [leaves]
  intro leaf hleaf
  obtain ⟨item, hitem, hleaf⟩ := mem_leavesOfItems.mp hleaf
  exact h item hitem leaf hleaf

theorem populateObject_admitted {path : FieldPath} {tree : Option Overrides}
    {fields : List (String × Value)} {s t : σ} {specimen : Value}
    (hfields : ∀ (s t : σ) made, populateFields o path tree fields s = .ok made t →
      Value.Admitted o.window (Value.leavesOfFields made))
    (h : populateObject o path tree fields s = .ok specimen t) :
    Value.Admitted o.window specimen.leaves := by
  obtain ⟨-, -, h⟩ := Generation.ofExcept_bind_eq_ok.mp h
  obtain ⟨made, hmade, rfl⟩ := Generation.map_eq_ok.mp h
  rw [Value.leaves]
  exact hfields s t made hmade

/-- **Every leaf of a specimen was asked for by a rule.** -/
theorem populate_admitted :
    (∀ (path : FieldPath) (entry : Option Override) (value : Value), ∀ (s t : σ) specimen,
      populate o path entry value s = .ok specimen t →
        Value.Admitted o.window specimen.leaves) ∧
    ∀ (path : FieldPath) (tree : Option Overrides) (fields : List (String × Value)),
      ∀ (s t : σ) made, populateFields o path tree fields s = .ok made t →
        Value.Admitted o.window (Value.leavesOfFields made) := by
  apply populate_induction
  case object =>
    intro path entry fields ih s t specimen h
    rw [populate_object] at h
    obtain ⟨tree, -, h⟩ := Generation.ofExcept_bind_eq_ok.mp h
    exact populateObject_admitted (ih tree) h
  case empty =>
    intro path entry s t specimen h
    rw [populate_empty] at h
    cases h
    exact .items nofun
  case nested =>
    intro path entry items rest s t specimen h
    rw [populate_nested] at h
    cases h
  case objects =>
    intro path entry fields rest ih s t specimen h
    rw [populate_objects] at h
    obtain ⟨tree, -, h⟩ := Generation.ofExcept_bind_eq_ok.mp h
    obtain ⟨items, hitems, rfl⟩ := Generation.map_eq_ok.mp h
    refine .items fun item hitem => ?_
    obtain ⟨u, v, hrun⟩ := (Generation.times_eq_ok hitems).2 item hitem
    exact populateObject_admitted (ih tree) hrun
  case leaves =>
    intro path entry first rest hleaf s t specimen h
    rw [populate_leaves o path entry hleaf] at h
    obtain ⟨g, hg, h⟩ := Generation.ofExcept_bind_eq_ok.mp h
    obtain ⟨items, hitems, rfl⟩ := Generation.map_eq_ok.mp h
    refine .items fun item hitem => ?_
    obtain ⟨u, v, hrun⟩ := (Generation.times_eq_ok hitems).2 item hitem
    rw [← ((generatorOf_eq_ok hleaf).mp hg).1]
    exact Generator.generate_admitted hrun
  case leaf =>
    intro path entry value hleaf s t specimen h
    rw [populate_leaf o path entry hleaf] at h
    obtain ⟨g, hg, h⟩ := Generation.ofExcept_bind_eq_ok.mp h
    rw [← ((generatorOf_eq_ok hleaf).mp hg).1]
    exact Generator.generate_admitted h
  case nil =>
    intro path tree s t made h
    rw [populateFields_nil] at h
    cases h
    rw [Value.leavesOfFields]
    exact nofun
  case refused =>
    intro path tree name value fields hnested s t made h
    rw [populateFields_refused o path fields tree hnested] at h
    cases h
  case skipped =>
    intro path tree name value fields hnested hskip ih s t made h
    rw [populateFields_skipped o path fields hnested hskip] at h
    exact ih s t made h
  case kept =>
    intro path tree name value fields hnested hkeep ihvalue ihfields s t made h
    rw [populateFields_kept o path fields hnested hkeep] at h
    obtain ⟨specimen, u, hspecimen, h⟩ := Generation.bind_eq_ok.mp h
    obtain ⟨others, v, hothers, h⟩ := Generation.bind_eq_ok.mp h
    cases h
    rw [Value.leavesOfFields]
    exact List.forall_mem_append.mpr ⟨ihvalue s u specimen hspecimen, ihfields u t others hothers⟩

/-! ### Failures -/

theorem GenerationError.IsFault.ne_nonFinite {e : GenerationError} (h : e.IsFault) :
    e ≠ .value .nonFinite := by
  rintro rfl
  exact h

theorem treeOf_not_nonFinite {path : FieldPath} {entry : Option Override} {e : GenerationError}
    (h : treeOf path entry = .error e) : e ≠ .value .nonFinite := by
  obtain ⟨-, rfl⟩ := treeOf_eq_error.mp h
  exact nofun

theorem generatorOf_not_nonFinite {window : UInt32} {value : Value} {path : FieldPath}
    {entry : Option Override} {e : GenerationError}
    (h : generatorOf window value path entry = .error e) : e ≠ .value .nonFinite := by
  rcases generatorOf_eq_error h with ⟨_, _, -, rfl, -⟩ | ⟨_, -, rfl⟩ | ⟨-, rfl⟩ <;> exact nofun

theorem populateObject_not_nonFinite {path : FieldPath} {tree : Option Overrides}
    {fields : List (String × Value)} {s t : σ} {e : GenerationError}
    (hfields : ∀ (s t : σ) e, populateFields o path tree fields s = .error e t →
      e ≠ .value .nonFinite)
    (h : populateObject o path tree fields s = .error e t) : e ≠ .value .nonFinite := by
  rcases Generation.ofExcept_bind_eq_error h with ⟨e', hnames, rfl⟩ | ⟨-, -, h⟩
  · obtain ⟨-, _, -, -, rfl⟩ := checkNames_eq_error hnames
    exact nofun
  · exact hfields s t e (Generation.map_eq_error.mp h)

/-- **Population does not fail for a decimal that is not finite**, also where the template
holds one. -/
theorem populate_not_nonFinite :
    (∀ (path : FieldPath) (entry : Option Override) (value : Value), ∀ (s t : σ) e,
      populate o path entry value s = .error e t → e ≠ .value .nonFinite) ∧
    ∀ (path : FieldPath) (tree : Option Overrides) (fields : List (String × Value)),
      ∀ (s t : σ) e, populateFields o path tree fields s = .error e t →
        e ≠ .value .nonFinite := by
  apply populate_induction
  case object =>
    intro path entry fields ih s t e h
    rw [populate_object] at h
    rcases Generation.ofExcept_bind_eq_error h with ⟨e', htree, rfl⟩ | ⟨tree, -, h⟩
    · exact treeOf_not_nonFinite htree
    · exact populateObject_not_nonFinite (ih tree) h
  case empty =>
    intro path entry s t e h
    rw [populate_empty] at h
    cases h
  case nested =>
    intro path entry items rest s t e h
    rw [populate_nested] at h
    cases h
    exact nofun
  case objects =>
    intro path entry fields rest ih s t e h
    rw [populate_objects] at h
    rcases Generation.ofExcept_bind_eq_error h with ⟨e', htree, rfl⟩ | ⟨tree, -, h⟩
    · exact treeOf_not_nonFinite htree
    · obtain ⟨-, u, h⟩ := Generation.times_eq_error (Generation.map_eq_error.mp h)
      exact populateObject_not_nonFinite (ih tree) h
  case leaves =>
    intro path entry first rest hleaf s t e h
    rw [populate_leaves o path entry hleaf] at h
    rcases Generation.ofExcept_bind_eq_error h with ⟨e', hg, rfl⟩ | ⟨g, -, h⟩
    · exact generatorOf_not_nonFinite hg
    · obtain ⟨-, u, h⟩ := Generation.times_eq_error (Generation.map_eq_error.mp h)
      exact (Generator.isFault_of_generate h).ne_nonFinite
  case leaf =>
    intro path entry value hleaf s t e h
    rw [populate_leaf o path entry hleaf] at h
    rcases Generation.ofExcept_bind_eq_error h with ⟨e', hg, rfl⟩ | ⟨g, -, h⟩
    · exact generatorOf_not_nonFinite hg
    · exact (Generator.isFault_of_generate h).ne_nonFinite
  case nil =>
    intro path tree s t e h
    rw [populateFields_nil] at h
    cases h
  case refused =>
    intro path tree name value fields hnested s t e h
    rw [populateFields_refused o path fields tree hnested] at h
    cases h
    exact nofun
  case skipped =>
    intro path tree name value fields hnested hskip ih s t e h
    rw [populateFields_skipped o path fields hnested hskip] at h
    exact ih s t e h
  case kept =>
    intro path tree name value fields hnested hkeep ihvalue ihfields s t e h
    rw [populateFields_kept o path fields hnested hkeep] at h
    rcases Generation.bind_eq_error.mp h with hvalue | ⟨made, u, -, h⟩
    · exact ihvalue s t e hvalue
    · rcases Generation.bind_eq_error.mp h with hothers | ⟨others, v, -, h⟩
      · exact ihfields u t e hothers
      · cases h

/-! ### Whole templates -/

/-- A specimen is faithful, and so are its leaves. -/
theorem faithful_of_create {template specimen : Value} {overrides : Option Overrides} {s t : σ}
    (h : create o template overrides s = .ok specimen t) :
    specimen.Faithful ∧ ∀ leaf ∈ specimen.leaves, leaf.Faithful := by
  have hleaves : ∀ leaf ∈ specimen.leaves, leaf.Faithful := by
    intro leaf hleaf
    obtain ⟨rule, hadmits⟩ := populate_admitted.1 .root _ template s t specimen h leaf hleaf
    exact hadmits.faithful
  exact ⟨(Value.leafwise_faithful.iff_leaves specimen).mpr hleaves, hleaves⟩

/-- **Specimens survive JSON**: written and read again they are the same, with no text turned
into a date and no date into a text.  So a specimen of a template given as JSON never fails
for a decimal that is not finite. -/
theorem create_survives_json (template : Value) (overrides : Option Overrides) (s : σ) :
    (∀ specimen t, create o template overrides s = .ok specimen t →
      (∃ json, specimen.toJson = .ok json ∧ Value.ofJson json = specimen) ∧
      (∀ text, .text text ∈ specimen.leaves → Value.ofJson (.string text) = .text text) ∧
      ∀ d, .date d ∈ specimen.leaves → Value.ofJson (.string d.text) = .date d) ∧
    ∀ json t, createJson o json overrides s ≠ .error (.value .nonFinite) t := by
  constructor
  · intro specimen t h
    obtain ⟨hspecimen, hleaves⟩ := faithful_of_create h
    refine ⟨hspecimen, fun text htext => ?_, fun d hd => ?_⟩
    · have hnone := (Value.faithful_text_iff text).mp (hleaves _ htext)
      rw [Value.ofJson, Value.ofString, hnone]
    · have hsome := (Value.faithful_date_iff d).mp (hleaves _ hd)
      rw [Value.ofJson, Value.ofString, hsome]
  · intro json t h
    rcases Generation.bind_eq_error.mp h with hcreate | ⟨made, u, hmade, hwrite⟩
    · exact populate_not_nonFinite.1 .root _ _ s t _ hcreate rfl
    · -- what was made can be written, so it is not written that fails
      obtain ⟨⟨written, hjson, -⟩, -⟩ := faithful_of_create hmade
      rw [hjson] at hwrite
      cases hwrite

end

/-- Nothing in the template is faithful: a date of five digits, a text that looks like a date,
and a decimal that is no number. -/
theorem create_survives_json_faithless :
    ∃ json, (Value.object [("born", .date ⟨2001, 1, 1, by decide⟩), ("note", .text "aa"),
        ("size", .integer (-995))]).toJson = .ok json ∧
      Value.ofJson json = .object [("born", .date ⟨2001, 1, 1, by decide⟩), ("note", .text "aa"),
        ("size", .integer (-995))] :=
  ((create_survives_json (o := {})
    (.object [("born", .date ⟨10000, 1, 1, by decide⟩), ("note", .text "2024-02-29"),
      ("size", .decimal .nan)]) (some [("note", .spec "string[2]"), ("size", .spec "integer < 5")])
    (Random.Script.ofWords [0, 0, 0, 0, 0] 0)).1 _ ⟨[], 0, 5⟩ (by with_unfolding_all rfl)).1

end Specimen

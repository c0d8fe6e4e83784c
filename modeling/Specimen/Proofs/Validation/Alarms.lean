import Specimen.Proofs.Population.Success
import Specimen.Proofs.Validation.Levels

/-!
# Validation raises no false alarm, but for empty arrays

What validation reports as an error, population fails for.  The argument runs down the levels
of the overrides: where a level can be populated, so can every level below it, and an entry of
a level that can be populated has no error of its own.

Empty arrays are the exception.  They stay empty whatever their entry is, and population does
not so much as read it, whereas validation still judges its form: a tree is out of place there,
and a spec has to be readable.

## Main statements

* `Level.Reaches.populatable` — what lies below a level that can be populated can be populated.
* `Level.get?_eq_empty_of_error` — an entry with an error of its own is for an empty array.
* `create_fails_of_alarm` — errors of entries for anything else are failures of population.
* `alarm_at_empty_array` — for empty arrays they are not.
-/

namespace Specimen

open Specimen.Random (Source)

variable {o : Options}

/-! ### Nodes that can be populated -/

section Nodes

variable {value : Value} {category : Category}

/-- A tree stands at objects and at arrays of objects, unless the array is empty. -/
theorem Populatable.takesTree {entries : Overrides} (h : Populatable o (some (.tree entries)) value)
    (hcategory : value.category? = some category) (hempty : value ≠ .array []) :
    category.takesTree = true := by
  generalize hentry : some (Override.tree entries) = entry at h
  cases h with
  | object | objects =>
    cases hcategory
    rfl
  | leaves _ hrule _ | leaf _ hrule _ =>
    subst hentry
    cases hrule
  | empty => exact absurd rfl hempty

/-- Nothing is wrong with a spec that is judged by the kind of a leaf which asks for its rule. -/
theorem RuleFor.specFindings_eq_nil {text : String} {leaf : Value} {rule : Spec.Rule}
    (h : RuleFor (some (.spec text)) leaf rule) (hleaf : leaf.IsLeaf)
    (htakes : category.takesTree = false) (hempty : category ≠ .emptyArray)
    (htarget : specTarget value category = leaf.category?.getD .null) :
    specFindings text value category = [] := by
  cases h with
  | spec hparse hskip hfits =>
    have hcheck := (Spec.Rule.suits_iff_fits hleaf hskip).mpr hfits
    rw [← htarget] at hcheck
    simp [specFindings, hparse, Spec.Rule.isSkip_eq_false_iff.mpr hskip, htakes, hempty,
      Spec.check, hcheck]

/-- Nothing is wrong with the spec of a node that can be populated, unless it is for an empty
array. -/
theorem Populatable.specFindings_eq_nil {text : String}
    (h : Populatable o (some (.spec text)) value) (hcategory : value.category? = some category)
    (hempty : value ≠ .array []) : specFindings text value category = [] := by
  -- a leaf is judged by its own kind, an array of leaves by that of its first item
  generalize hentry : some (Override.spec text) = entry at h
  cases h with
  | @object tree | @objects tree => cases tree <;> cases hentry
  | @leaves _ first rest _ hleaf hrule _ =>
    subst hentry
    have harray : (Value.array (first :: rest)).category? = some .arrayOfPrimitives := by
      cases first <;> first | rfl | exact hleaf.elim
    obtain rfl := Option.some.inj (harray.symm.trans hcategory)
    exact hrule.specFindings_eq_nil hleaf rfl (by decide) rfl
  | @leaf _ value _ hleaf hrule _ =>
    subst hentry
    cases value with
    | array items => exact hleaf.elim
    | object fields => exact hleaf.elim
    | null | bool _ | integer _ | decimal _ | text _ | date _ =>
      cases hcategory
      exact hrule.specFindings_eq_nil hleaf rfl (by decide) rfl
  | empty => exact absurd rfl hempty

end Nodes

/-! ### Levels that can be populated -/

namespace Level

variable {l m : Level} {name : String} {entry : Override}

/-- A field with an entry holds no array of arrays, and can be populated under its entry unless
it is left out. -/
theorem populatable_entry (h : Populatable o (some (.tree l.tree)) (.object l.fields))
    (hwf : l.WellFormed) (hmem : (name, entry) ∈ l.tree) {value : Value}
    (hget : Record.get? name l.fields = some value) :
    ¬ value.IsNested ∧ ((∀ text, entry = .spec text → Spec.parse text ≠ .ok .skip) →
      Populatable o (some entry) value) := by
  obtain ⟨-, hnested, hfields⟩ := (populatable_object_map_iff (some l.tree) l.fields).mp h
  have hvalue := Record.mem_of_get? hget
  have hentry : (some l.tree).bind (Record.get? name) = some entry := Record.get?_of_mem hwf.1 hmem
  refine ⟨hnested name value hvalue, fun hskip => ?_⟩
  rw [← hentry]
  refine hfields name value hvalue ?_
  rintro ⟨text, htext, hparse⟩
  rw [hentry] at htext
  exact hskip text (Option.some.inj htext) hparse

/-- **One step down.**  The level below a level that can be populated can be populated, if
arrays of objects get elements at all. -/
theorem Below.populatable (hbelow : l.Below m) (hwf : l.WellFormed) (hcount : 0 < o.elementCount)
    (h : Populatable o (some (.tree l.tree)) (.object l.fields)) :
    Populatable o (some (.tree m.tree)) (.object m.fields) := by
  cases hbelow with
  | object hmem hget => exact (populatable_entry h hwf hmem hget).2 nofun
  | @objects _ tree fields rest hmem hget =>
    have harray := (populatable_entry h hwf hmem hget).2 nofun
    exact (populatable_objects_map_iff (some tree) fields rest).mp harray hcount

/-- **Any number of steps down.** -/
theorem Reaches.populatable (hreaches : l.Reaches m) (hwf : l.WellFormed)
    (hcount : 0 < o.elementCount) (h : Populatable o (some (.tree l.tree)) (.object l.fields)) :
    m.WellFormed ∧ Populatable o (some (.tree m.tree)) (.object m.fields) := by
  induction hreaches with
  | refl => exact ⟨hwf, h⟩
  | tail _ hbelow ih => exact ⟨hbelow.wellFormed ih.1, hbelow.populatable ih.1 hcount ih.2⟩

/-- **At a level that can be populated, only entries for empty arrays have errors of their
own.** -/
theorem get?_eq_empty_of_error (h : Populatable o (some (.tree l.tree)) (.object l.fields))
    (hwf : l.WellFormed) (hmem : (name, entry) ∈ l.tree) {issue : Issue}
    (hissue : issue ∈ l.entryIssues o.strict name entry) (herror : issue.severity = .error) :
    Record.get? name l.fields = some (.array []) := by
  unfold entryIssues judgeField at hissue
  cases hget : Record.get? name l.fields with
  | none =>
    -- an unknown name is an error in strict mode, and there population refuses it
    rw [hget] at hissue
    obtain rfl := List.mem_singleton.mp hissue
    have hstrict : o.strict = true := by
      by_contra hlax
      simp [Finding.issue, Finding.severity, hlax] at herror
    have hnames := ((populatable_object_map_iff (some l.tree) l.fields).mp h).1 hstrict
    have hcontains := hnames name (Record.mem_names_of_mem hmem)
    simp [Record.contains, hget] at hcontains
  | some value =>
    obtain ⟨hnested, hvalue⟩ := populatable_entry h hwf hmem hget
    by_cases hempty : value = .array []
    · rw [hempty]
    · exfalso
      cases hcategory : value.category? with
      | none =>
        refine hnested ((Value.category?_isNone_iff value).mp ?_)
        rw [hcategory, Option.isNone_none]
      | some category =>
        simp only [hget, hcategory] at hissue
        cases entry with
        | tree entries =>
          have hpopulatable : Populatable o (some (.tree entries)) value :=
            hvalue fun _ heq => absurd heq Override.noConfusion
          simp [hpopulatable.takesTree hcategory hempty] at hissue
        | spec text =>
          by_cases hskip : Spec.parse text = .ok .skip
          · simp [specFindings, hskip, Spec.Rule.isSkip] at hissue
          · have hpopulatable : Populatable o (some (.spec text)) value := by
              refine hvalue fun other heq hparse => ?_
              cases heq
              exact hskip hparse
            simp [hpopulatable.specFindings_eq_nil hcategory hempty] at hissue

end Level

/-! ### Alarms -/

/-- **Validation raises no false alarm, but for empty arrays.**  An error that is reported of
overrides has an entry that it is about.  If any entry that it is about is for something other
than an empty array, population fails from every state of every source. -/
theorem create_fails_of_alarm {fields : List (String × Value)} {overrides : Overrides}
    {issue : Issue} (hwf : (Override.tree overrides).WellFormed) (hcount : 0 < o.elementCount)
    (h : issue ∈ (Overrides.validate (.object fields) overrides o.strict).errors) :
    (∃ m name entry, (Level.root fields overrides).Raises o.strict m name entry issue) ∧
      ∀ m name entry, (Level.root fields overrides).Raises o.strict m name entry issue →
        Record.get? name m.fields ≠ some (.array []) →
        ∀ (σ : Type) [Source σ] (s : σ),
          ∃ e t, create o (.object fields) (some overrides) s = .error e t := by
  obtain ⟨herror, hissue⟩ := Overrides.mem_errors_validate_iff.mp h
  refine ⟨hissue, ?_⟩
  rintro m name entry ⟨hreaches, hmem, hraised⟩ hempty σ _ s
  have hnot : ¬ Populatable o (some (.tree overrides)) (.object fields) := by
    intro hpopulatable
    obtain ⟨hwell, hlevel⟩ :=
      hreaches.populatable (l := Level.root fields overrides) hwf hcount hpopulatable
    exact hempty (Level.get?_eq_empty_of_error hlevel hwell hmem hraised herror)
  cases hrun : create o (.object fields) (some overrides) s with
  | error e t => exact ⟨e, t, rfl⟩
  | ok specimen t =>
    exact absurd ((create_succeeds_iff o _ (some overrides) s).mp ⟨specimen, t, hrun⟩) hnot

/-- A spec of the wrong kind, one level down. -/
theorem create_fails_of_alarm_incompatible :
    ∃ e t, create .default (.object [("pets", .array [.object [("legs", .integer 4)]])])
      (some [("pets", .tree [("legs", .spec "boolean")])]) (Random.Script.ofWords [0] 0) =
        .error e t := by
  have hparse : Spec.parse "boolean" = .ok .boolean := by decide +kernel
  have hraises : (Level.root [("pets", .array [.object [("legs", .integer 4)]])]
      [("pets", .tree [("legs", .spec "boolean")])]).Raises Options.default.strict
      ⟨[("legs", .integer 4)], (FieldPath.root.child "pets").element, [("legs", .spec "boolean")]⟩
      "legs" (.spec "boolean")
      ⟨.error, "incompatible_spec", "pets[].legs",
        (Spec.Error.mk "boolean" (.incompatible .number)).message⟩ := by
    refine ⟨.single (.objects (List.mem_singleton.mpr rfl) rfl), List.mem_singleton.mpr rfl, ?_⟩
    simp only [Level.entryIssues, judgeField, Record.get?_cons_self, Value.category?, specFindings,
      hparse]
    exact List.mem_singleton.mpr rfl
  have hwf : (Override.tree [("pets", .tree [("legs", .spec "boolean")])]).WellFormed :=
    ⟨by unfold Record.Sorted; decide, ⟨by unfold Record.Sorted; decide, trivial, trivial⟩, trivial⟩
  have herror := Overrides.mem_errors_validate_iff.mpr ⟨rfl, _, _, _, hraises⟩
  exact (create_fails_of_alarm (o := .default) hwf (by decide) herror).2 _ _ _ hraises (by simp)
    Random.Script (Random.Script.ofWords [0] 0)

/-- **At an empty array there are false alarms.**  A tree there and a spec that cannot be read
are reported as errors, and population succeeds with either. -/
theorem alarm_at_empty_array :
    (Overrides.validate (.object [("notes", .array [])]) [("notes", .tree [])] false).errors =
        [⟨.error, "misshaped_override", "notes",
          "nested overrides given for empty_array field"⟩] ∧
      create .default (.object [("notes", .array [])]) (some [("notes", .tree [])])
          (Random.Script.ofWords [0] 0) =
        .ok (.object [("notes", .array [])]) (Random.Script.ofWords [0] 0) ∧
      (Overrides.validate (.object [("notes", .array [])]) [("notes", .spec "text")] false).isOk =
        false ∧
      create .default (.object [("notes", .array [])]) (some [("notes", .spec "text")])
          (Random.Script.ofWords [0] 0) =
        .ok (.object [("notes", .array [])]) (Random.Script.ofWords [0] 0) := by
  have hparse : Spec.parse "text" = .error ⟨"text", .grammar (.unknownKind "text")⟩ := by
    decide +kernel
  refine ⟨rfl, by with_unfolding_all rfl, ?_, by with_unfolding_all rfl⟩
  simp [Overrides.validate, Overrides.issues, fieldsOf?, Override.entriesIssues, Override.issues,
    judgeField, Value.category?, specFindings, hparse, Report.isOk, Report.errors_ofIssues,
    Finding.issue, Finding.severity]

end Specimen

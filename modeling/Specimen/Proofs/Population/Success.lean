import Specimen.Proofs.Population.Walk

/-!
# When population succeeds

Whether a template can be populated is a property of the template, the overrides and the
options; the random source has no say in it.  The walk refuses a node for one of a few
reasons, and each of them is one clause of the condition.

An array of objects is only looked into when it gets elements, while the rule for an array
of leaves is resolved all the same.  A field that is left out still must not hold an array
that starts with an array.

## Main definitions

* `Populatable o entry value` — a value can be populated under its override.
* `FieldsPopulatable o tree fields` — so can the fields of an object.

## Main statements

* `settled_populate` — how population ends is settled before anything is drawn.
* `create_succeeds_iff` — it succeeds exactly when the template can be populated.
-/

namespace Specimen

open Specimen.Random (Source)

/-- The value can be populated under the override that stands at it. -/
inductive Populatable (o : Options) : Option Override → Value → Prop
  /-- An object has a tree or nothing.  In strict mode all names of the tree are fields; no
  field holds an array that starts with an array, and those that are not left out can be
  populated. -/
  | object {tree : Option Overrides} {fields : List (String × Value)} :
    (o.strict = true →
      ∀ name ∈ Record.names (tree.getD []), Record.contains name fields = true) →
    (∀ name value, (name, value) ∈ fields → ¬ value.IsNested) →
    (∀ name value, (name, value) ∈ fields → ¬ Overrides.Skips tree name →
      Populatable o (tree.bind (Record.get? name)) value) →
    Populatable o (tree.map .tree) (.object fields)
  /-- An array of objects has a tree or nothing.  If it gets elements, its first object can
  be populated. -/
  | objects {tree : Option Overrides} {fields : List (String × Value)} {rest : List Value} :
    (0 < o.elementCount → Populatable o (tree.map .tree) (.object fields)) →
    Populatable o (tree.map .tree) (.array (.object fields :: rest))
  /-- An array of leaves asks for a rule.  If it gets elements, the rule admits values. -/
  | leaves {entry : Option Override} {first : Value} {rest : List Value} {rule : Spec.Rule} :
    first.IsLeaf → RuleFor entry first rule →
    (0 < o.elementCount → ∃ v, rule.Admits o.window v) →
    Populatable o entry (.array (first :: rest))
  /-- A leaf asks for a rule that admits values. -/
  | leaf {entry : Option Override} {value : Value} {rule : Spec.Rule} :
    value.IsLeaf → RuleFor entry value rule → (∃ v, rule.Admits o.window v) →
    Populatable o entry value
  | empty {entry : Option Override} : Populatable o entry (.array [])

/-- The fields of an object can be populated under the tree of the object. -/
def FieldsPopulatable (o : Options) (tree : Option Overrides)
    (fields : List (String × Value)) : Prop :=
  (∀ name value, (name, value) ∈ fields → ¬ value.IsNested) ∧
    ∀ name value, (name, value) ∈ fields → ¬ Overrides.Skips tree name →
      Populatable o (tree.bind (Record.get? name)) value

/-! ### One clause for each kind of node -/

section Clauses

variable {o : Options} {entry : Option Override}

theorem map_tree_inj {tree tree' : Option Overrides}
    (h : tree.map Override.tree = tree'.map Override.tree) : tree = tree' := by
  cases tree <;> cases tree' <;> simp_all

theorem populatable_object_iff {fields : List (String × Value)} :
    Populatable o entry (.object fields) ↔
      ∃ tree : Option Overrides, entry = tree.map .tree ∧
        (o.strict = true →
          ∀ name ∈ Record.names (tree.getD []), Record.contains name fields = true) ∧
        FieldsPopulatable o tree fields := by
  constructor
  · intro h
    cases h with
    | object hstrict hnested hfields => exact ⟨_, rfl, hstrict, hnested, hfields⟩
    | leaf hleaf => exact hleaf.elim
  · rintro ⟨tree, rfl, hstrict, hnested, hfields⟩
    exact .object hstrict hnested hfields

theorem populatable_objects_iff {fields : List (String × Value)} {rest : List Value} :
    Populatable o entry (.array (.object fields :: rest)) ↔
      ∃ tree : Option Overrides, entry = tree.map .tree ∧
        (0 < o.elementCount → Populatable o (tree.map .tree) (.object fields)) := by
  constructor
  · intro h
    cases h with
    | objects hfirst => exact ⟨_, rfl, hfirst⟩
    | leaves hleaf => exact hleaf.elim
    | leaf hleaf => exact hleaf.elim
  · rintro ⟨tree, rfl, hfirst⟩
    exact .objects hfirst

/-- The clause for an object whose tree is known. -/
theorem populatable_object_map_iff (tree : Option Overrides) (fields : List (String × Value)) :
    Populatable o (tree.map .tree) (.object fields) ↔
      (o.strict = true →
          ∀ name ∈ Record.names (tree.getD []), Record.contains name fields = true) ∧
        FieldsPopulatable o tree fields := by
  rw [populatable_object_iff]
  constructor
  · rintro ⟨tree', htree, h⟩
    obtain rfl := map_tree_inj htree
    exact h
  · exact fun h => ⟨tree, rfl, h⟩

/-- The clause for an array of objects whose tree is known. -/
theorem populatable_objects_map_iff (tree : Option Overrides) (fields : List (String × Value))
    (rest : List Value) :
    Populatable o (tree.map .tree) (.array (.object fields :: rest)) ↔
      (0 < o.elementCount → Populatable o (tree.map .tree) (.object fields)) := by
  rw [populatable_objects_iff]
  constructor
  · rintro ⟨tree', htree, h⟩
    obtain rfl := map_tree_inj htree
    exact h
  · exact fun h => ⟨tree, rfl, h⟩

theorem populatable_leaves_iff {first : Value} (hleaf : first.IsLeaf) {rest : List Value} :
    Populatable o entry (.array (first :: rest)) ↔
      ∃ rule, RuleFor entry first rule ∧
        (0 < o.elementCount → ∃ v, rule.Admits o.window v) := by
  constructor
  · intro h
    cases h with
    | objects => exact hleaf.elim
    | leaves _ hrule hadmits => exact ⟨_, hrule, hadmits⟩
    | leaf harray => exact harray.elim
  · rintro ⟨rule, hrule, hadmits⟩
    exact .leaves hleaf hrule hadmits

theorem populatable_leaf_iff {value : Value} (hleaf : value.IsLeaf) :
    Populatable o entry value ↔
      ∃ rule, RuleFor entry value rule ∧ ∃ v, rule.Admits o.window v := by
  constructor
  · intro h
    cases h with
    | object => exact hleaf.elim
    | objects => exact hleaf.elim
    | leaves => exact hleaf.elim
    | leaf _ hrule hadmits => exact ⟨_, hrule, hadmits⟩
    | empty => exact hleaf.elim
  · rintro ⟨rule, hrule, hadmits⟩
    exact .leaf hleaf hrule hadmits

theorem not_populatable_nested {items rest : List Value} :
    ¬ Populatable o entry (.array (.array items :: rest)) := by
  intro h
  cases h with
  | leaves hleaf => exact hleaf
  | leaf hleaf => exact hleaf

variable {tree : Option Overrides} {name : String} {value : Value}
  {fields : List (String × Value)}

theorem fieldsPopulatable_nil : FieldsPopulatable o tree [] :=
  ⟨nofun, nofun⟩

theorem fieldsPopulatable_cons_iff :
    FieldsPopulatable o tree ((name, value) :: fields) ↔
      ¬ value.IsNested ∧
        (¬ Overrides.Skips tree name → Populatable o (tree.bind (Record.get? name)) value) ∧
        FieldsPopulatable o tree fields := by
  constructor
  · rintro ⟨hnested, hfields⟩
    exact ⟨hnested name value List.mem_cons_self, hfields name value List.mem_cons_self,
      fun n v hmem => hnested n v (List.mem_cons_of_mem _ hmem),
      fun n v hmem => hfields n v (List.mem_cons_of_mem _ hmem)⟩
  · rintro ⟨hhead, hvalue, hnested, hfields⟩
    refine ⟨fun n v hmem => ?_, fun n v hmem hkeep => ?_⟩
    · rcases List.mem_cons.mp hmem with heq | hmem
      · cases heq
        exact hhead
      · exact hnested n v hmem
    · rcases List.mem_cons.mp hmem with heq | hmem
      · cases heq
        exact hvalue hkeep
      · exact hfields n v hmem hkeep

theorem not_fieldsPopulatable_refused (h : value.IsNested) :
    ¬ FieldsPopulatable o tree ((name, value) :: fields) := by
  intro hfields
  exact (fieldsPopulatable_cons_iff.mp hfields).1 h

theorem fieldsPopulatable_skipped_iff (h : ¬ value.IsNested) (hskip : Overrides.Skips tree name) :
    FieldsPopulatable o tree ((name, value) :: fields) ↔ FieldsPopulatable o tree fields := by
  rw [fieldsPopulatable_cons_iff, and_iff_right h]
  exact and_iff_right fun hkeep => absurd hskip hkeep

theorem fieldsPopulatable_kept_iff (h : ¬ value.IsNested) (hkeep : ¬ Overrides.Skips tree name) :
    FieldsPopulatable o tree ((name, value) :: fields) ↔
      Populatable o (tree.bind (Record.get? name)) value ∧ FieldsPopulatable o tree fields := by
  rw [fieldsPopulatable_cons_iff, and_iff_right h, forall_prop_of_true hkeep]

end Clauses

/-! ### How population ends -/

/-- The run ends in one way from every state of every source, and it succeeds exactly when
the condition holds. -/
def Settled {α : Type} (x : ∀ (σ : Type) [Source σ], Generation σ α) (condition : Prop) : Prop :=
  ∃ fault, (∀ (σ : Type) [Source σ], (x σ).EndsIn fault) ∧ (fault = none ↔ condition)

section Settled

variable {α β : Type} {x : ∀ (σ : Type) [Source σ], Generation σ α} {condition : Prop}

theorem settled_throw {e : GenerationError} (h : ¬ condition) :
    Settled (α := α) (fun _ _ => throw e) condition :=
  ⟨some e, fun _ _ => Generation.endsIn_throw e, by simp [h]⟩

theorem settled_pure {a : α} (h : condition) : Settled (fun _ _ => pure a) condition :=
  ⟨none, fun _ _ => Generation.endsIn_pure a, by simp [h]⟩

theorem Settled.congr {condition' : Prop} (h : Settled x condition)
    (hcondition : condition ↔ condition') : Settled x condition' := by
  obtain ⟨fault, hends, hfault⟩ := h
  exact ⟨fault, hends, hfault.trans hcondition⟩

theorem Settled.map (h : Settled x condition) (f : α → β) :
    Settled (fun σ _ => f <$> x σ) condition := by
  obtain ⟨fault, hends, hfault⟩ := h
  exact ⟨fault, fun σ _ => (hends σ).map f, hfault⟩

/-- A repeated run needs the condition for one turn, if there is a turn at all. -/
theorem Settled.times (h : Settled x condition) (n : ℕ) :
    Settled (fun σ _ => Random.times n (x σ)) (0 < n → condition) := by
  obtain ⟨fault, hends, hfault⟩ := h
  refine ⟨if n = 0 then none else fault, fun σ _ => (hends σ).times n, ?_⟩
  split
  · next hzero => exact ⟨fun _ hpos => absurd hzero hpos.ne', fun _ => rfl⟩
  · next hpos => rw [hfault, forall_prop_of_true (Nat.pos_of_ne_zero hpos)]

/-- Two runs in sequence need both conditions, where the second run takes nothing from the
first. -/
theorem Settled.pair {γ : Type} {y : ∀ (σ : Type) [Source σ], Generation σ β} {condition' : Prop}
    (hx : Settled x condition) (hy : Settled y condition') (f : α → β → γ) :
    Settled (fun σ _ => x σ >>= fun a => y σ >>= fun b => pure (f a b))
      (condition ∧ condition') := by
  obtain ⟨fault, hends, hfault⟩ := hx
  cases fault with
  | some e =>
    -- the first run fails everywhere, and the second is never started
    refine ⟨some e, fun σ _ => (hends σ).bind_error _, nofun, fun h => ?_⟩
    exact absurd (hfault.mpr h.1) nofun
  | none =>
    obtain ⟨fault', hends', hfault'⟩ := hy
    refine ⟨fault', fun σ _ => (hends σ).bind fun a => (hends' σ).bind_pure _, ?_⟩
    rw [hfault', and_iff_right (hfault.mp rfl)]

/-- A computation that takes no state has to succeed, and what follows needs the condition
for its result. -/
theorem settled_ofExcept_bind {ε : Type} {f : ε → GenerationError} {r : Except ε α}
    {y : α → ∀ (σ : Type) [Source σ], Generation σ β} {condition : α → Prop}
    (h : ∀ a, r = .ok a → Settled (y a) (condition a)) :
    Settled (fun σ _ => Generation.ofExcept f r >>= fun a => y a σ)
      (∃ a, r = .ok a ∧ condition a) := by
  cases r with
  | error e =>
    exact ⟨some (f e), fun _ _ => (Generation.endsIn_throw _).bind_error _, by simp⟩
  | ok a =>
    obtain ⟨fault, hends, hfault⟩ := h a rfl
    exact ⟨fault, fun σ _ => (hends σ).pure_bind, by simp [hfault]⟩

end Settled

section Nodes

variable {o : Options} {path : FieldPath} {entry : Option Override}

/-- An object with a known tree fails for an unknown name, or else for one of its fields. -/
theorem settled_populateObject {tree : Option Overrides} {fields : List (String × Value)}
    (h : Settled (fun _ _ => populateFields o path tree fields) (FieldsPopulatable o tree fields)) :
    Settled (fun _ _ => populateObject o path tree fields)
      (Populatable o (tree.map .tree) (.object fields)) := by
  refine (settled_ofExcept_bind (f := id) (r := checkNames o.strict fields path tree)
    fun _ _ => h.map Value.object).congr ?_
  rw [populatable_object_map_iff, ← checkNames_eq_ok]
  constructor
  · rintro ⟨_, hnames, hfields⟩
    exact ⟨hnames, hfields⟩
  · rintro ⟨hnames, hfields⟩
    exact ⟨(), hnames, hfields⟩

/-- A rule that a leaf asks for has finite bounds. -/
theorem RuleFor.hasFiniteBounds {value : Value} {rule : Spec.Rule} (h : RuleFor entry value rule) :
    rule.HasFiniteBounds := by
  cases h with
  | spec hparse => exact Spec.hasFiniteBounds_of_parse hparse
  | bool | text | integer | decimal | date => trivial

theorem settled_generate {g : Generator} (h : g.rule.HasFiniteBounds) :
    Settled (fun _ _ => g.generate) (∃ v, g.rule.Admits g.window v) :=
  ⟨g.fault, fun _ _ => g.generate_endsIn, Generator.fault_eq_none_iff h⟩

/-- What a leaf needs of its generator, it needs of the rule that it asks for. -/
theorem exists_generatorOf_iff {value : Value} (hleaf : value.IsLeaf)
    {condition : Generator → Prop} :
    (∃ g, generatorOf o.window value path entry = .ok g ∧ condition g) ↔
      ∃ rule, RuleFor entry value rule ∧ condition ⟨rule, o.window⟩ := by
  constructor
  · rintro ⟨⟨rule, window⟩, hg, h⟩
    obtain ⟨rfl, hrule⟩ := (generatorOf_eq_ok hleaf).mp hg
    exact ⟨rule, hrule, h⟩
  · rintro ⟨rule, hrule, h⟩
    exact ⟨⟨rule, o.window⟩, (generatorOf_eq_ok hleaf).mpr ⟨rfl, hrule⟩, h⟩

end Nodes

/-- **How the population of a node ends is settled by the node, its override and the
options**, and it succeeds exactly when the node can be populated. -/
theorem settled_populate (o : Options) :
    (∀ path entry value,
      Settled (fun _ _ => populate o path entry value) (Populatable o entry value)) ∧
    ∀ path tree fields,
      Settled (fun _ _ => populateFields o path tree fields) (FieldsPopulatable o tree fields) := by
  -- the run of each kind of node has its condition, which is the clause for that kind
  apply populate_induction
  case object =>
    intro path entry fields ih
    simp only [populate_object]
    refine (settled_ofExcept_bind fun tree _ => settled_populateObject (ih tree)).congr ?_
    constructor
    · rintro ⟨tree, htree, h⟩
      rwa [treeOf_eq_ok.mp htree]
    · intro h
      obtain ⟨tree, rfl, -⟩ := populatable_object_iff.mp h
      exact ⟨tree, treeOf_eq_ok.mpr rfl, h⟩
  case empty =>
    intro path entry
    simp only [populate_empty]
    exact settled_pure .empty
  case nested =>
    intro path entry items rest
    simp only [populate_nested]
    exact settled_throw not_populatable_nested
  case objects =>
    intro path entry fields rest ih
    simp only [populate_objects]
    have hrun := settled_ofExcept_bind (f := id) (r := treeOf path entry) fun tree _ =>
      ((settled_populateObject (ih tree)).times o.elementCount).map Value.array
    refine hrun.congr ?_
    simp only [treeOf_eq_ok, populatable_objects_iff]
  case leaves =>
    intro path entry first rest hleaf
    simp only [populate_leaves o path entry hleaf]
    have hrun := settled_ofExcept_bind (f := id) (r := generatorOf o.window first path entry)
      fun g hg =>
        have hrule := ((generatorOf_eq_ok hleaf).mp hg).2
        ((settled_generate hrule.hasFiniteBounds).times o.elementCount).map Value.array
    refine hrun.congr ?_
    rw [exists_generatorOf_iff hleaf, populatable_leaves_iff hleaf]
  case leaf =>
    intro path entry value hleaf
    simp only [populate_leaf o path entry hleaf]
    have hrun := settled_ofExcept_bind (f := id) (r := generatorOf o.window value path entry)
      fun g hg =>
        have hrule := ((generatorOf_eq_ok hleaf).mp hg).2
        settled_generate hrule.hasFiniteBounds
    refine hrun.congr ?_
    rw [exists_generatorOf_iff hleaf, populatable_leaf_iff hleaf]
  case nil =>
    intro path tree
    simp only [populateFields_nil]
    exact settled_pure fieldsPopulatable_nil
  case refused =>
    intro path tree name value fields hnested
    simp only [populateFields_refused o path fields tree hnested]
    exact settled_throw (not_fieldsPopulatable_refused hnested)
  case skipped =>
    intro path tree name value fields hnested hskip ih
    simp only [populateFields_skipped o path fields hnested hskip]
    rw [fieldsPopulatable_skipped_iff hnested hskip]
    exact ih
  case kept =>
    intro path tree name value fields hnested hkeep ihvalue ihfields
    simp only [populateFields_kept o path fields hnested hkeep]
    rw [fieldsPopulatable_kept_iff hnested hkeep]
    exact ihvalue.pair ihfields fun made others => (name, made) :: others

/-- **Population of a template succeeds exactly when the template can be populated.** -/
theorem create_succeeds_iff {σ : Type} [Source σ] (o : Options) (template : Value)
    (overrides : Option Overrides) (s : σ) :
    (∃ specimen t, create o template overrides s = .ok specimen t) ↔
      Populatable o (overrides.map .tree) template := by
  obtain ⟨fault, hends, hfault⟩ := (settled_populate o).1 .root (overrides.map .tree) template
  exact ((hends σ).ok_iff s).trans hfault

end Specimen

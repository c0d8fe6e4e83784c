import Specimen.Proofs.Population.Walk
import Specimen.Proofs.Record
import Specimen.Random.Script

/-!
# Specimens conform to their templates

Whatever the overrides are and whatever is drawn, a specimen has the shape of its template:
the same objects without the fields that are left out, arrays of the one length that the
options ask for, and leaves that a rule has made.

## Main definitions

* `Generator.Makes σ g v` — some run of the generator ends with the value.
* `Conforms σ o entry template specimen` — the specimen has the shape of the template under
  the override that stands at it.

## Main statements

* `populate_conforms` — the specimen of a node conforms to it.
* `create_conforms` — the specimen of a template conforms to it.
-/

namespace Specimen

open Specimen.Random (Source)

/-- Some run of the generator ends with the value. -/
def Generator.Makes (σ : Type) [Source σ] (g : Generator) (v : Value) : Prop :=
  ∃ s t : σ, g.generate s = .ok v t

/-- The specimen has the shape of the template.  Overrides are followed down as the template
is: an object and the objects of an array have a tree or nothing at all, from which their
fields get their own overrides, and a leaf has a spec or nothing. -/
inductive Conforms (σ : Type) [Source σ] (o : Options) :
    Option Override → Value → Value → Prop
  /-- An object keeps exactly the fields that are not left out, in their order. -/
  | object {tree : Option Overrides} {fields made : List (String × Value)} :
    (∀ name, name ∈ Record.names made ↔
      name ∈ Record.names fields ∧ ¬ Overrides.Skips tree name) →
    (Record.names made).Sublist (Record.names fields) →
    (∀ name value specimen, Record.get? name fields = some value →
      Record.get? name made = some specimen →
      Conforms σ o (tree.bind (Record.get? name)) value specimen) →
    Conforms σ o (tree.map .tree) (.object fields) (.object made)
  /-- An array of objects has elements in the image of its first object. -/
  | objects {tree : Option Overrides} {fields : List (String × Value)} {rest items : List Value} :
    items.length = o.elementCount →
    (∀ item ∈ items, Conforms σ o (tree.map .tree) (.object fields) item) →
    Conforms σ o (tree.map .tree) (.array (.object fields :: rest)) (.array items)
  /-- The elements of an array of leaves are all made by one rule. -/
  | leaves {entry : Option Override} {first : Value} {rest items : List Value}
    {rule : Spec.Rule} : first.IsLeaf → RuleFor entry first rule →
    items.length = o.elementCount →
    (∀ item ∈ items, rule.Admits o.window item ∧ Generator.Makes σ ⟨rule, o.window⟩ item) →
    Conforms σ o entry (.array (first :: rest)) (.array items)
  /-- An empty array stays empty, whatever the override. -/
  | empty {entry : Option Override} : Conforms σ o entry (.array []) (.array [])
  | leaf {entry : Option Override} {value specimen : Value} {rule : Spec.Rule} :
    value.IsLeaf → RuleFor entry value rule → rule.Admits o.window specimen →
    Generator.Makes σ ⟨rule, o.window⟩ specimen → Conforms σ o entry value specimen

/-! ### Fields -/

section

variable {σ : Type} [Source σ] {o : Options}

/-- What the fields of an object have in common with those of its specimen. -/
structure FieldsConform (σ : Type) [Source σ] (o : Options) (tree : Option Overrides)
    (fields made : List (String × Value)) : Prop where
  names : ∀ name, name ∈ Record.names made ↔
    name ∈ Record.names fields ∧ ¬ Overrides.Skips tree name
  sublist : (Record.names made).Sublist (Record.names fields)
  values : ∀ name value specimen, Record.get? name fields = some value →
    Record.get? name made = some specimen →
    Conforms σ o (tree.bind (Record.get? name)) value specimen

theorem FieldsConform.nil (tree : Option Overrides) : FieldsConform σ o tree [] [] :=
  ⟨fun _ => by simp [Record.names], List.Sublist.refl _, fun _ _ _ h => nomatch h⟩

theorem FieldsConform.skipped {tree : Option Overrides} {name : String} {value : Value}
    {fields made : List (String × Value)} (hskip : Overrides.Skips tree name)
    (h : FieldsConform σ o tree fields made) :
    FieldsConform σ o tree ((name, value) :: fields) made where
  names other := by
    rw [h.names]
    constructor
    · rintro ⟨hmem, hkeep⟩
      exact ⟨List.mem_cons_of_mem _ hmem, hkeep⟩
    · rintro ⟨hmem, hkeep⟩
      rcases List.mem_cons.mp hmem with rfl | hmem
      · exact (hkeep hskip).elim
      · exact ⟨hmem, hkeep⟩
  sublist := h.sublist.cons name
  values other v w hv hw := by
    rw [Record.get?_cons] at hv
    split at hv
    · next hname =>
      -- a field that is left out has no specimen
      subst hname
      exact (((h.names name).mp (Record.mem_names_of_get? hw)).2 hskip).elim
    · exact h.values other v w hv hw

theorem FieldsConform.kept {tree : Option Overrides} {name : String} {value specimen : Value}
    {fields made : List (String × Value)} (hkeep : ¬ Overrides.Skips tree name)
    (hvalue : Conforms σ o (tree.bind (Record.get? name)) value specimen)
    (h : FieldsConform σ o tree fields made) :
    FieldsConform σ o tree ((name, value) :: fields) ((name, specimen) :: made) where
  names other := by
    simp only [Record.names, List.map_cons, List.mem_cons]
    have hother := h.names other
    constructor
    · rintro (rfl | hmem)
      · exact ⟨Or.inl rfl, hkeep⟩
      · exact ⟨Or.inr (hother.mp hmem).1, (hother.mp hmem).2⟩
    · rintro ⟨rfl | hmem, hnot⟩
      · exact Or.inl rfl
      · exact Or.inr (hother.mpr ⟨hmem, hnot⟩)
  sublist := h.sublist.cons_cons name
  values other v w hv hw := by
    rw [Record.get?_cons] at hv hw
    split at hv
    · next hname =>
      subst hname
      rw [if_pos rfl] at hw
      cases hv
      cases hw
      exact hvalue
    · next hname =>
      rw [if_neg hname] at hw
      exact h.values other v w hv hw

theorem FieldsConform.object {tree : Option Overrides} {fields made : List (String × Value)}
    (h : FieldsConform σ o tree fields made) :
    Conforms σ o (tree.map .tree) (.object fields) (.object made) :=
  .object h.names h.sublist h.values

/-! ### Nodes -/

theorem conforms_of_populateObject {path : FieldPath} {tree : Option Overrides}
    {fields : List (String × Value)} {s t : σ} {specimen : Value}
    (hfields : ∀ (s t : σ) made, populateFields o path tree fields s = .ok made t →
      FieldsConform σ o tree fields made)
    (h : populateObject o path tree fields s = .ok specimen t) :
    Conforms σ o (tree.map .tree) (.object fields) specimen := by
  obtain ⟨-, -, h⟩ := Generation.ofExcept_bind_eq_ok.mp h
  obtain ⟨made, hmade, rfl⟩ := Generation.map_eq_ok.mp h
  exact (hfields s t made hmade).object

/-- **The specimen of a node conforms to it**, and so do the fields of an object. -/
theorem populate_conforms :
    (∀ (path : FieldPath) (entry : Option Override) (value : Value), ∀ (s t : σ) specimen,
      populate o path entry value s = .ok specimen t → Conforms σ o entry value specimen) ∧
    ∀ (path : FieldPath) (tree : Option Overrides) (fields : List (String × Value)),
      ∀ (s t : σ) made, populateFields o path tree fields s = .ok made t →
        FieldsConform σ o tree fields made := by
  -- the run of each kind of node is taken apart, and its parts conform by induction
  apply populate_induction
  case object =>
    intro path entry fields ih s t specimen h
    rw [populate_object] at h
    obtain ⟨tree, htree, h⟩ := Generation.ofExcept_bind_eq_ok.mp h
    rw [treeOf_eq_ok.mp htree]
    exact conforms_of_populateObject (ih tree) h
  case empty =>
    intro path entry s t specimen h
    rw [populate_empty] at h
    cases h
    exact .empty
  case nested =>
    intro path entry items rest s t specimen h
    rw [populate_nested] at h
    cases h
  case objects =>
    intro path entry fields rest ih s t specimen h
    rw [populate_objects] at h
    obtain ⟨tree, htree, h⟩ := Generation.ofExcept_bind_eq_ok.mp h
    obtain ⟨items, hitems, rfl⟩ := Generation.map_eq_ok.mp h
    obtain ⟨hlength, hall⟩ := Generation.times_eq_ok hitems
    rw [treeOf_eq_ok.mp htree]
    refine .objects hlength fun item hitem => ?_
    obtain ⟨u', v', hrun⟩ := hall item hitem
    exact conforms_of_populateObject (ih tree) hrun
  case leaves =>
    intro path entry first rest hleaf s t specimen h
    rw [populate_leaves o path entry hleaf] at h
    obtain ⟨⟨rule, window⟩, hg, h⟩ := Generation.ofExcept_bind_eq_ok.mp h
    obtain ⟨rfl, hrule⟩ := (generatorOf_eq_ok hleaf).mp hg
    obtain ⟨items, hitems, rfl⟩ := Generation.map_eq_ok.mp h
    obtain ⟨hlength, hall⟩ := Generation.times_eq_ok hitems
    refine .leaves hleaf hrule hlength fun item hitem => ?_
    obtain ⟨u', v', hitem⟩ := hall item hitem
    exact ⟨Generator.generate_admits hitem, u', v', hitem⟩
  case leaf =>
    intro path entry value hleaf s t specimen h
    rw [populate_leaf o path entry hleaf] at h
    obtain ⟨⟨rule, window⟩, hg, h⟩ := Generation.ofExcept_bind_eq_ok.mp h
    obtain ⟨rfl, hrule⟩ := (generatorOf_eq_ok hleaf).mp hg
    exact .leaf hleaf hrule (Generator.generate_admits h) ⟨s, t, h⟩
  case nil =>
    intro path tree s t made h
    rw [populateFields_nil] at h
    cases h
    exact .nil tree
  case refused =>
    intro path tree name value fields hnested s t made h
    rw [populateFields_refused o path fields tree hnested] at h
    cases h
  case skipped =>
    intro path tree name value fields hnested hskip ih s t made h
    rw [populateFields_skipped o path fields hnested hskip] at h
    exact (ih s t made h).skipped hskip
  case kept =>
    intro path tree name value fields hnested hkeep ihvalue ihfields s t made h
    rw [populateFields_kept o path fields hnested hkeep] at h
    obtain ⟨specimen, u, hspecimen, h⟩ := Generation.bind_eq_ok.mp h
    obtain ⟨others, v, hothers, h⟩ := Generation.bind_eq_ok.mp h
    cases h
    exact (ihfields u t others hothers).kept hkeep (ihvalue s u specimen hspecimen)

/-- **The specimen of a template conforms to it**, whatever the overrides are and whatever
is drawn. -/
theorem create_conforms (template : Value) (overrides : Option Overrides) {specimen : Value}
    {s t : σ} (h : create o template overrides s = .ok specimen t) :
    Conforms σ o (overrides.map .tree) template specimen :=
  populate_conforms.1 .root (overrides.map .tree) template s t specimen h

end

/-- Fields are left out on two levels, and an array of objects grows. -/
theorem create_conforms_skipping :
    Conforms Random.Script { elementCount := 2 }
      (some (.tree [("age", .spec "integer < 5"), ("name", .spec "skip"),
        ("pets", .tree [("fur", .spec "skip")])]))
      (.object [("age", .integer 3), ("name", .text "x"),
        ("pets", .array [.object [("fur", .bool true), ("legs", .integer 4)]])])
      (.object [("age", .integer (-995)),
        ("pets", .array [.object [("legs", .integer 0)], .object [("legs", .integer 0)]])]) :=
  create_conforms _ (some [("age", .spec "integer < 5"), ("name", .spec "skip"),
    ("pets", .tree [("fur", .spec "skip")])])
    (s := Random.Script.ofWords [0, 0, 0] 0) (t := ⟨[], 0, 3⟩) (by with_unfolding_all rfl)

end Specimen

import Specimen.Proofs.Population.Locality
import Specimen.Proofs.Validation.Levels
import Specimen.Random.Script

/-!
# Overrides without effect

The walk is led by the template, and looks up overrides for the fields that it meets.  Unless
the options are strict, an entry whose name is no field is therefore never looked at, whatever
it holds, and an empty array stays empty under all entries but the one that leaves it out.
Such entries can be dropped from the tree for every object of the template.

## Main definitions

* `Override.isIdle value entry` — the entry stands at an empty array, and does not leave it out.
* `Override.pruned? value entry`, `Override.prunedEntries fields entries` — an override, and the
  entries of a tree, without those that have no effect.
* `Overrides.prune template t` — the overrides for a template without those.

## Main statements

* `Override.get?_prunedEntries` — what is still found after pruning.
* `populate_pruned` — pruning is not seen by the walk.
* `create_prune` — so it changes no specimen, no error and no draw.
-/

namespace Specimen

open Specimen.Random (Source)

/-! ### Pruning -/

namespace Override

/-- The entry stands at an empty array and does not leave it out. -/
def isIdle (value : Value) (entry : Override) : Bool :=
  decide (value = .array []) && !entry.isSkip

mutual

/-- The override of a node without what has no effect on the node. -/
def pruned? (value : Value) : Override → Option Override
  | .spec text => if isIdle value (.spec text) then none else some (.spec text)
  | .tree entries =>
    if isIdle value (.tree entries) then none
    else match fieldsOf? value with
      | some fields => some (.tree (prunedEntries fields entries))
      | none => some (.tree entries)

/-- The entries of the tree for an object without those that have no effect: those of other
names, and those that stand at empty arrays. -/
def prunedEntries (fields : List (String × Value)) : List (String × Override) → Overrides
  | [] => []
  | (name, entry) :: entries =>
    match (Record.get? name fields).bind fun value => pruned? value entry with
    | some kept => (name, kept) :: prunedEntries fields entries
    | none => prunedEntries fields entries

end

end Override

/-- The overrides for a template without the entries that have no effect. -/
def Overrides.prune (template : Value) (t : Overrides) : Overrides :=
  match fieldsOf? template with
  | some fields => Override.prunedEntries fields t
  | none => t

namespace Override

theorem not_isIdle {value : Value} (h : value ≠ .array []) (entry : Override) :
    ¬ isIdle value entry = true := by
  simp [isIdle, h]

/-- At a node without fields nothing is pruned, unless it is an empty array. -/
theorem bind_pruned?_eq_self {value : Value} (hempty : value ≠ .array [])
    (hfields : fieldsOf? value = none) (entry : Option Override) :
    entry.bind (pruned? value) = entry := by
  cases entry with
  | none => rfl
  | some entry =>
    rw [Option.bind_some]
    cases entry with
    | spec text => rw [pruned?, if_neg (not_isIdle hempty _)]
    | tree entries => simp only [pruned?, if_neg (not_isIdle hempty _), hfields]

/-- At a node with fields a tree is pruned entry by entry. -/
theorem pruned?_tree {value : Value} {fields : List (String × Value)}
    (hfields : fieldsOf? value = some fields) (entries : Overrides) :
    pruned? value (.tree entries) = some (.tree (prunedEntries fields entries)) := by
  have hempty : value ≠ .array [] := by
    rintro rfl
    cases hfields
  simp only [pruned?, if_neg (not_isIdle hempty _), hfields]

/-- There a tree or nothing is pruned to the same, and a spec stays. -/
theorem bind_pruned?_eq_or {value : Value} {fields : List (String × Value)}
    (hfields : fieldsOf? value = some fields) (entry : Option Override) :
    (∃ tree : Option Overrides, entry = tree.map .tree ∧
      entry.bind (pruned? value) = (tree.map (prunedEntries fields)).map .tree) ∨
      entry.bind (pruned? value) = entry := by
  cases entry with
  | none => exact Or.inr rfl
  | some entry =>
    rw [Option.bind_some]
    cases entry with
    | spec text =>
      have hempty : value ≠ .array [] := by
        rintro rfl
        cases hfields
      rw [pruned?, if_neg (not_isIdle hempty _)]
      exact Or.inr rfl
    | tree entries => exact Or.inl ⟨some entries, rfl, pruned?_tree hfields entries⟩

/-- Pruning neither drops a spec that leaves its field out nor makes one. -/
theorem any_isSkip_pruned? (value : Value) (entry : Option Override) :
    (entry.bind (pruned? value)).any isSkip = entry.any isSkip := by
  cases entry with
  | none => rfl
  | some entry =>
    cases entry with
    | spec text =>
      rw [Option.bind_some, pruned?]
      split
      · next hidle =>
        simp only [isIdle, Bool.and_eq_true, Bool.not_eq_true'] at hidle
        rw [Option.any_some, hidle.2]
        rfl
      · rfl
    | tree entries =>
      rw [Option.bind_some, pruned?]
      split
      · rfl
      · split <;> rfl

theorem prunedEntries_cons (fields : List (String × Value)) (name : String) (entry : Override)
    (entries : Overrides) :
    prunedEntries fields ((name, entry) :: entries) =
      (((Record.get? name fields).bind fun value => pruned? value entry).map
        fun kept => (name, kept)).toList ++ prunedEntries fields entries := by
  rw [prunedEntries]
  split
  · next h => rw [h]; rfl
  · next h => rw [h]; rfl

/-- What is found after pruning is what was found before, pruned for the field. -/
theorem get?_prunedEntries (fields : List (String × Value)) (name : String) :
    ∀ {entries : Overrides}, Record.Sorted entries →
      Record.get? name (prunedEntries fields entries) =
        (Record.get? name entries).bind fun entry =>
          (Record.get? name fields).bind fun value => pruned? value entry := by
  intro entries
  induction entries with
  | nil =>
    intro _
    rw [prunedEntries]
    rfl
  | cons head entries ih =>
    intro hsorted
    obtain ⟨key, entry⟩ := head
    have hrest := ih (List.pairwise_cons.mp hsorted).2
    rw [prunedEntries_cons, Record.get?_cons]
    by_cases hkey : key = name
    · subst hkey
      -- no later entry has the name of the head
      rw [Record.get?_eq_none_of_sorted hsorted] at hrest
      rw [if_pos rfl, Option.bind_some]
      cases (Record.get? key fields).bind fun value => pruned? value entry with
      | none => exact hrest
      | some kept => exact Record.get?_cons_self key kept _
    · rw [if_neg hkey, ← hrest]
      cases (Record.get? key fields).bind fun value => pruned? value entry with
      | none => rfl
      | some kept => exact (Record.get?_cons ..).trans (if_neg hkey)

end Override

/-! ### The walk -/

namespace Overrides

variable {tree : Option Overrides} {fields : List (String × Value)} {name : String} {value : Value}

/-- What a field finds in the pruned tree is what it found before, pruned for its value. -/
theorem bind_get?_pruned (hwf : ∀ e ∈ tree.map Override.tree, e.WellFormed)
    (hvalue : Record.get? name fields = some value) :
    (tree.map (Override.prunedEntries fields)).bind (Record.get? name) =
      (tree.bind (Record.get? name)).bind (Override.pruned? value) := by
  cases tree with
  | none => rfl
  | some entries =>
    have hget := Override.get?_prunedEntries fields name (hwf _ rfl).1
    rw [hvalue] at hget
    exact hget

/-- The pruned tree leaves out the same fields. -/
theorem skips_pruned_iff (hwf : ∀ e ∈ tree.map Override.tree, e.WellFormed)
    (hvalue : Record.get? name fields = some value) :
    Skips (tree.map (Override.prunedEntries fields)) name ↔ Skips tree name := by
  rw [← any_isSkip_iff, ← any_isSkip_iff, bind_get?_pruned hwf hvalue,
    Override.any_isSkip_pruned?]

/-- What a field finds is in order. -/
theorem wellFormed_of_bind_get? (hwf : ∀ e ∈ tree.map Override.tree, e.WellFormed)
    {entry : Override} (hentry : entry ∈ tree.bind (Record.get? name)) : entry.WellFormed := by
  obtain ⟨entries, rfl, hget⟩ := Option.bind_eq_some_iff.mp hentry
  exact Override.wellFormed_of_mem (hwf _ rfl).2 (Record.mem_of_get? hget)

end Overrides

section Walk

variable {σ : Type} [Source σ] {o : Options}

/-- In lenient mode an object is populated alike when its fields are. -/
theorem populateObject_lenient (hstrict : o.strict = false) {path : FieldPath}
    {tree tree' : Option Overrides} {fields : List (String × Value)}
    (h : (populateFields o path tree fields : Generation σ (List (String × Value))) =
      populateFields o path tree' fields) :
    (populateObject o path tree fields : Generation σ Value) =
      populateObject o path tree' fields := by
  have hnames : ∀ tree, checkNames o.strict fields path tree = .ok () := by
    intro tree
    rw [hstrict]
    exact checkNames_eq_ok.mpr nofun
  rw [populateObject, populateObject, hnames, hnames, h]

/-- **The walk does not see what is pruned.** -/
theorem populate_pruned (hstrict : o.strict = false) :
    (∀ (path : FieldPath) (entry : Option Override) (value : Value), value.WellFormed →
      (∀ e ∈ entry, e.WellFormed) →
        (populate o path entry value : Generation σ Value) =
          populate o path (entry.bind (Override.pruned? value)) value) ∧
    ∀ (path : FieldPath) (tree : Option Overrides) (fields : List (String × Value)),
      Value.WellFormedFields fields → (∀ e ∈ tree.map Override.tree, e.WellFormed) →
        ∀ all, (∀ name value, (name, value) ∈ fields → Record.get? name all = some value) →
          (populateFields o path tree fields : Generation σ (List (String × Value))) =
            populateFields o path (tree.map (Override.prunedEntries all)) fields := by
  -- the entries that the walk looks up are pruned for the fields that it meets
  apply populate_induction
  case object =>
    intro path entry fields ih hwf hentry
    have hkind := @Override.bind_pruned?_eq_or (.object fields) fields rfl entry
    rcases hkind with ⟨tree, rfl, hpruned⟩ | hsame
    · rw [hpruned, populate_object_map, populate_object_map]
      have hfields := ih tree hwf.2 hentry fields fun _ _ => Record.get?_of_mem hwf.1
      exact populateObject_lenient hstrict hfields
    · rw [hsame]
  case empty =>
    intro path entry _ _
    rw [populate_empty, populate_empty]
  case nested =>
    intro path entry items rest _ _
    rw [populate_nested, populate_nested]
  case objects =>
    intro path entry fields rest ih hwf hentry
    have hkind := @Override.bind_pruned?_eq_or (.array (.object fields :: rest)) fields rfl entry
    rcases hkind with ⟨tree, rfl, hpruned⟩ | hsame
    · rw [hpruned, populate_objects_map, populate_objects_map]
      have hfields := ih tree hwf.1.2 hentry fields fun _ _ => Record.get?_of_mem hwf.1.1
      rw [populateObject_lenient hstrict hfields]
    · rw [hsame]
  case leaves =>
    intro path entry first rest hleaf _ _
    rw [Override.bind_pruned?_eq_self (List.cons_ne_nil _ _ ∘ Value.array.inj)
      (Value.fieldsOf?_leaves hleaf rest)]
  case leaf =>
    intro path entry value hleaf _ _
    have hempty : value ≠ .array [] := by
      rintro rfl
      exact hleaf
    rw [Override.bind_pruned?_eq_self hempty (Value.fieldsOf?_leaf hleaf)]
  case nil =>
    intro path tree _ _ all _
    rw [populateFields_nil, populateFields_nil]
  case refused =>
    intro path tree name value fields hnested _ _ all _
    rw [populateFields_refused o path fields _ hnested,
      populateFields_refused o path fields _ hnested]
  case skipped =>
    intro path tree name value fields hnested hskip ih hwf htree all hall
    have hvalue := hall name value List.mem_cons_self
    have hskip' := (Overrides.skips_pruned_iff htree hvalue).mpr hskip
    rw [populateFields_skipped o path fields hnested hskip,
      populateFields_skipped o path fields hnested hskip']
    exact ih hwf.2 htree all fun n v hmem => hall n v (List.mem_cons_of_mem _ hmem)
  case kept =>
    intro path tree name value fields hnested hkeep ihvalue ihfields hwf htree all hall
    have hvalue := hall name value List.mem_cons_self
    have hkeep' := mt (Overrides.skips_pruned_iff htree hvalue).mp hkeep
    have hmade := ihvalue hwf.1 fun e => Overrides.wellFormed_of_bind_get? htree
    have hothers := ihfields hwf.2 htree all
      fun n v hmem => hall n v (List.mem_cons_of_mem _ hmem)
    rw [populateFields_kept o path fields hnested hkeep,
      populateFields_kept o path fields hnested hkeep', Overrides.bind_get?_pruned htree hvalue,
      ← hmade, ← hothers]

end Walk

/-- **Entries without effect can be dropped.**  In lenient mode, population under overrides ends
in the same specimen or the same error as under what is left of them after pruning, and with the
source in the same state. -/
theorem create_prune {σ : Type} [Source σ] {o : Options} {template : Value}
    {overrides : Overrides} (hstrict : o.strict = false) (htemplate : template.WellFormed)
    (hoverrides : (Override.tree overrides).WellFormed) (s : σ) :
    create o template (some overrides) s =
      create o template (some (overrides.prune template)) s := by
  refine congrFun ?_ s
  have hentry : ∀ e ∈ some (Override.tree overrides), e.WellFormed := by
    rintro e he
    cases he
    exact hoverrides
  have hwalk := (populate_pruned (σ := σ) hstrict).1 .root _ template htemplate hentry
  rw [Option.bind_some] at hwalk
  rw [Overrides.prune]
  cases hfields : fieldsOf? template with
  | none => rfl
  | some fields =>
    rw [Override.pruned?_tree hfields] at hwalk
    exact hwalk

/-- Specs that cannot be read, and a tree, where nothing reads them. -/
theorem create_prune_stray :
    (create {} (.object [("age", .integer 3), ("hats", .array []),
          ("pets", .array [.object [("legs", .integer 4), ("toys", .array [])]])])
        (some [("age", .spec "integer < 5"), ("hats", .spec "?"),
          ("pets", .tree [("toys", .spec "skip"), ("wings", .spec "?")]), ("zoo", .tree [])])
        (Random.Script.ofWords [0, 0] 0) : EStateM.Result _ _ _) =
      create {} (.object [("age", .integer 3), ("hats", .array []),
          ("pets", .array [.object [("legs", .integer 4), ("toys", .array [])]])])
        (some [("age", .spec "integer < 5"), ("pets", .tree [("toys", .spec "skip")])])
        (Random.Script.ofWords [0, 0] 0) := by
  have hprune : Overrides.prune (.object [("age", .integer 3), ("hats", .array []),
        ("pets", .array [.object [("legs", .integer 4), ("toys", .array [])]])])
      [("age", .spec "integer < 5"), ("hats", .spec "?"),
        ("pets", .tree [("toys", .spec "skip"), ("wings", .spec "?")]), ("zoo", .tree [])]
      = [("age", .spec "integer < 5"), ("pets", .tree [("toys", .spec "skip")])] := by
    with_unfolding_all rfl
  rw [← hprune]
  refine create_prune rfl ?_ ?_ _
  · exact ⟨by unfold Record.Sorted; decide, trivial, trivial,
      ⟨⟨by unfold Record.Sorted; decide, trivial, trivial, trivial⟩, trivial⟩, trivial⟩
  · exact ⟨by unfold Record.Sorted; decide, trivial, trivial,
      ⟨by unfold Record.Sorted; decide, trivial, trivial, trivial⟩,
      ⟨List.Pairwise.nil, trivial⟩, trivial⟩

end Specimen

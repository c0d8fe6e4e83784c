import Mathlib.Logic.Relation
import Specimen.Proofs.Validation.Foresight

/-!
# Levels of overrides

Validation goes down from a tree of overrides to the trees in it, and with each of them to the
object of the template that it is for: the object under the name of the tree, or the first
object of the array there.  A level is such a tree together with its object and the path that
leads to it.  What validation reports is what the entries of the levels give rise to, each of
them judged for itself.

## Main definitions

* `Level` — an object of the template, its path, and the tree of overrides for it.
* `Level.Below`, `Level.Reaches` — one step down from a level, and any number of them.
* `Level.entryIssues` — the issues of an entry itself, without those of the entries in it.
* `Level.Raises` — an entry of a level further down gives rise to an issue.

## Main statements

* `Level.issues_eq_or_exists_below` — an entry is judged for itself, or opens a level below.
* `Level.mem_entriesIssues_iff_raises` — the issues of a tree are those that its entries give
  rise to.
* `Overrides.mem_errors_validate_iff` — so are the errors of a report.
-/

namespace Specimen

/-! ### Trees of overrides -/

/-- Every override in a tree that is in order is in order. -/
theorem Override.wellFormed_of_mem {name : String} {entry : Override} :
    ∀ {entries : List (String × Override)}, WellFormedEntries entries →
      (name, entry) ∈ entries → entry.WellFormed := by
  intro entries
  induction entries with
  | nil => exact fun _ hmem => nomatch hmem
  | cons head rest ih =>
    obtain ⟨key, other⟩ := head
    rintro ⟨hhead, hrest⟩ hmem
    rcases List.mem_cons.mp hmem with heq | hmem
    · cases heq
      exact hhead
    · exact ih hrest hmem

/-! ### Levels -/

/-- An object of the template, and the tree of overrides for it. -/
structure Level where
  fields : List (String × Value)
  path : FieldPath
  tree : Overrides

namespace Level

/-- The level of the whole template. -/
def root (fields : List (String × Value)) (overrides : Overrides) : Level :=
  ⟨fields, .root, overrides⟩

/-- The trees of the level, and those in them, are in order. -/
def WellFormed (l : Level) : Prop := (Override.tree l.tree).WellFormed

/-- A tree of the level and the object that it is for are the level below. -/
inductive Below : Level → Level → Prop
  /-- The object under the name of the tree. -/
  | object {l : Level} {name : String} {tree : Overrides} {fields : List (String × Value)} :
    (name, .tree tree) ∈ l.tree → Record.get? name l.fields = some (.object fields) →
    Below l ⟨fields, l.path.child name, tree⟩
  /-- The first object of the array under the name of the tree. -/
  | objects {l : Level} {name : String} {tree : Overrides} {fields : List (String × Value)}
    {rest : List Value} :
    (name, .tree tree) ∈ l.tree →
    Record.get? name l.fields = some (.array (.object fields :: rest)) →
    Below l ⟨fields, (l.path.child name).element, tree⟩

/-- The second level lies any number of steps below the first one. -/
def Reaches : Level → Level → Prop := Relation.ReflTransGen Below

theorem Below.wellFormed {l m : Level} (h : l.Below m) (hwf : l.WellFormed) : m.WellFormed := by
  cases h with
  | object hmem _ => exact Override.wellFormed_of_mem hwf.2 hmem
  | objects hmem _ => exact Override.wellFormed_of_mem hwf.2 hmem

/-- The issues of an entry itself.  A tree that stands where it may is left to the level
below. -/
def entryIssues (strict : Bool) (l : Level) (name : String) (entry : Override) : List Issue :=
  judgeField strict l.fields (l.path.child name) name fun value category =>
    match entry with
    | .spec text => (specFindings text value category).map (·.issue strict (l.path.child name))
    | .tree _ =>
      if category.takesTree then []
      else [(Finding.misplacedTree category).issue strict (l.path.child name)]

/-- The entry of the second level, which lies below the first one, gives rise to the issue. -/
def Raises (strict : Bool) (l m : Level) (name : String) (entry : Override)
    (issue : Issue) : Prop :=
  l.Reaches m ∧ (name, entry) ∈ m.tree ∧ issue ∈ m.entryIssues strict name entry

/-! ### What is reported of a level -/

section

variable {strict : Bool} {issue : Issue}

/-- Only objects and arrays of objects take trees. -/
theorem fieldsOf?_of_takesTree {value : Value} {category : Category}
    (hcategory : value.category? = some category) (h : category.takesTree = true) :
    (∃ fields, value = .object fields) ∨
      ∃ fields rest, value = .array (.object fields :: rest) := by
  match value with
  | .object fields => exact Or.inl ⟨fields, rfl⟩
  | .array (.object fields :: rest) => exact Or.inr ⟨fields, rest, rfl⟩
  | .array (.array _ :: _) => cases hcategory
  | .null | .bool _ | .integer _ | .decimal _ | .text _ | .date _ | .array [] =>
    cases hcategory
    cases h
  | .array (.null :: _) | .array (.bool _ :: _) | .array (.integer _ :: _)
  | .array (.decimal _ :: _) | .array (.text _ :: _) | .array (.date _ :: _) =>
    cases hcategory
    cases h

/-- **What is reported of an entry** is what it gives rise to itself, or else what is reported
of the level below that it opens. -/
theorem issues_eq_or_exists_below {l : Level} {name : String} {entry : Override}
    (hmem : (name, entry) ∈ l.tree) :
    Override.issues strict l.fields l.path name entry = l.entryIssues strict name entry ∨
      ∃ m, l.Below m ∧ entry = .tree m.tree ∧ l.entryIssues strict name entry = [] ∧
        Override.issues strict l.fields l.path name entry =
          Override.entriesIssues strict m.fields m.path m.tree := by
  cases entry with
  | spec text =>
    rw [Override.issues]
    exact Or.inl rfl
  | tree entries =>
    rw [Override.issues]
    unfold entryIssues judgeField
    cases hget : Record.get? name l.fields with
    | none => exact Or.inl rfl
    | some value =>
      cases hcategory : value.category? with
      | none =>
        left
        simp only [hcategory]
      | some category =>
        cases htakes : category.takesTree with
        | false =>
          left
          simp only [hcategory, htakes, Bool.false_eq_true, if_false]
        | true =>
          rcases fieldsOf?_of_takesTree hcategory htakes with ⟨fields, rfl⟩ | ⟨fields, rest, rfl⟩
          · cases hcategory
            exact Or.inr ⟨_, .object hmem hget, rfl, rfl, rfl⟩
          · cases hcategory
            exact Or.inr ⟨_, .objects hmem hget, rfl, rfl, rfl⟩

/-- What an entry itself gives rise to is reported of it. -/
theorem mem_issues_of_mem_entryIssues {l : Level} {name : String} {entry : Override}
    (hmem : (name, entry) ∈ l.tree) (h : issue ∈ l.entryIssues strict name entry) :
    issue ∈ Override.issues strict l.fields l.path name entry := by
  rcases issues_eq_or_exists_below hmem with heq | ⟨_, -, -, hnone, -⟩
  · rwa [heq]
  · rw [hnone] at h
    cases h

/-- What is reported of the level below is reported of the level. -/
theorem Below.mem_entriesIssues {l m : Level} (h : l.Below m)
    (hissue : issue ∈ Override.entriesIssues strict m.fields m.path m.tree) :
    issue ∈ Override.entriesIssues strict l.fields l.path l.tree := by
  cases h with
  | object hmem hget =>
    refine Specimen.mem_entriesIssues hmem ?_
    rw [issues_eq_nodeIssues _ hget]
    exact hissue
  | objects hmem hget =>
    refine Specimen.mem_entriesIssues hmem ?_
    rw [issues_eq_nodeIssues _ hget]
    exact hissue

theorem Reaches.mem_entriesIssues {l m : Level} (h : l.Reaches m)
    (hissue : issue ∈ Override.entriesIssues strict m.fields m.path m.tree) :
    issue ∈ Override.entriesIssues strict l.fields l.path l.tree := by
  induction h using Relation.ReflTransGen.head_induction_on with
  | refl => exact hissue
  | head hbelow _ ih => exact hbelow.mem_entriesIssues ih

mutual

/-- What is reported of an entry, it gives rise to itself or an entry further down does. -/
theorem exists_raises_of_mem_issues : ∀ (entry : Override) (l : Level) (name : String),
    (name, entry) ∈ l.tree → issue ∈ Override.issues strict l.fields l.path name entry →
    ∃ m key other, l.Raises strict m key other issue
  | .spec text, l, name, hmem, h => by
    rw [Override.issues] at h
    exact ⟨l, name, .spec text, .refl, hmem, h⟩
  | .tree entries, l, name, hmem, h => by
    rcases issues_eq_or_exists_below hmem with heq | ⟨⟨fields, path, tree⟩, hbelow, htree, -, heq⟩
    · rw [heq] at h
      exact ⟨l, name, .tree entries, .refl, hmem, h⟩
    · -- the tree is judged entry by entry, one level down
      have htree : entries = tree := Override.tree.inj htree
      subst htree
      rw [heq] at h
      obtain ⟨m, key, other, hreaches, hraises⟩ :=
        exists_raises_of_mem_entriesIssues entries ⟨fields, path, entries⟩ (List.Subset.refl _) h
      exact ⟨m, key, other, .head hbelow hreaches, hraises⟩

theorem exists_raises_of_mem_entriesIssues : ∀ (entries : List (String × Override)) (l : Level),
    entries ⊆ l.tree → issue ∈ Override.entriesIssues strict l.fields l.path entries →
    ∃ m key other, l.Raises strict m key other issue
  | [], l, _, h => by
    rw [Override.entriesIssues] at h
    cases h
  | (name, entry) :: entries, l, hsub, h => by
    obtain ⟨hmem, hrest⟩ := List.cons_subset.mp hsub
    rw [Override.entriesIssues, List.mem_append] at h
    rcases h with h | h
    · exact exists_raises_of_mem_issues entry l name hmem h
    · exact exists_raises_of_mem_entriesIssues entries l hrest h

end

/-- **The issues of a tree are those that its entries give rise to**, at any depth. -/
theorem mem_entriesIssues_iff_raises {l : Level} :
    issue ∈ Override.entriesIssues strict l.fields l.path l.tree ↔
      ∃ m name entry, l.Raises strict m name entry issue := by
  constructor
  · exact exists_raises_of_mem_entriesIssues l.tree l (List.Subset.refl _)
  · rintro ⟨m, name, entry, hreaches, hmem, hissue⟩
    exact hreaches.mem_entriesIssues
      (Specimen.mem_entriesIssues hmem (mem_issues_of_mem_entryIssues hmem hissue))

end

end Level

/-- **The errors of a report are the errors that entries give rise to.** -/
theorem Overrides.mem_errors_validate_iff {strict : Bool} {fields : List (String × Value)}
    {overrides : Overrides} {issue : Issue} :
    issue ∈ (Overrides.validate (.object fields) overrides strict).errors ↔
      issue.severity = .error ∧
        ∃ m name entry, (Level.root fields overrides).Raises strict m name entry issue := by
  rw [Overrides.validate, Report.errors_ofIssues, List.mem_filter, decide_eq_true_iff, and_comm]
  exact and_congr_right fun _ =>
    Level.mem_entriesIssues_iff_raises (l := Level.root fields overrides)

end Specimen

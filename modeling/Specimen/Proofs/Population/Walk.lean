import Specimen.Generation.Populate
import Specimen.Proofs.Generation.Admission
import Specimen.Proofs.Generation.Obedience

/-!
# The walk over a template

What population does at each kind of node, and the induction along its walk.  Statements
about whole templates are proved from these alone.

## Main definitions

* `Value.IsLeaf`, `Value.IsNested` — a value of its own; an array that starts with an array.
* `Overrides.Skips tree name` — the tree leaves the named field out.
* `populateObject` — the specimen of an object whose tree is known.

## Main statements

* `populate_induction` — the induction along the walk.
* `populate_object`, `populate_objects`, `populate_leaf`, … — one equation a kind of node.
* `treeOf_eq_ok`, `checkNames_eq_ok`, `generatorOf_eq_ok` — when a node suits its override.
* `treeOf_eq_error`, `checkNames_eq_error`, `generatorOf_eq_error` — how it fails to.
-/

namespace Specimen

/-! ### Kinds of nodes -/

namespace Value

/-- The value is neither an array nor an object. -/
def IsLeaf : Value → Prop
  | .array _ | .object _ => False
  | _ => True

/-- The value is an array that starts with an array. -/
def IsNested (v : Value) : Prop := ∃ items rest, v = .array (.array items :: rest)

/-- Only arrays that start with an array have no category. -/
theorem category?_isNone_iff (v : Value) : v.category?.isNone = true ↔ v.IsNested := by
  constructor
  · intro h
    match v with
    | .array (.array items :: rest) => exact ⟨items, rest, rfl⟩
    | .array [] | .array (.object _ :: _) => cases h
    | .array (.null :: _) | .array (.bool _ :: _) | .array (.integer _ :: _)
    | .array (.decimal _ :: _) | .array (.text _ :: _) | .array (.date _ :: _) => cases h
    | .null | .bool _ | .integer _ | .decimal _ | .text _ | .date _ | .object _ => cases h
  · rintro ⟨items, rest, rfl⟩
    rfl

end Value

/-- The tree has a spec for the named field that leaves it out. -/
def Overrides.Skips (tree : Option Overrides) (name : String) : Prop :=
  ∃ text, tree.bind (Record.get? name) = some (.spec text) ∧ Spec.parse text = .ok .skip

theorem Overrides.any_isSkip_iff (tree : Option Overrides) (name : String) :
    (tree.bind (Record.get? name)).any Override.isSkip = true ↔ Overrides.Skips tree name := by
  unfold Overrides.Skips
  cases tree.bind (Record.get? name) with
  | none => simp
  | some entry =>
    cases entry with
    | spec text => simp [Override.isSkip_spec_iff]
    | tree entries => simp

/-- The induction along the walk over a template: over the nodes, and over the fields of
an object.  Skipped fields are passed over, and the others are nodes themselves. -/
theorem populate_induction {P : FieldPath → Option Override → Value → Prop}
    {Q : FieldPath → Option Overrides → List (String × Value) → Prop}
    (object : ∀ path entry fields, (∀ tree, Q path tree fields) → P path entry (.object fields))
    (empty : ∀ path entry, P path entry (.array []))
    (nested : ∀ path entry items rest, P path entry (.array (.array items :: rest)))
    (objects : ∀ path entry fields rest, (∀ tree, Q path.element tree fields) →
      P path entry (.array (.object fields :: rest)))
    (leaves : ∀ path entry first rest, first.IsLeaf → P path entry (.array (first :: rest)))
    (leaf : ∀ path entry value, value.IsLeaf → P path entry value)
    (nil : ∀ path tree, Q path tree [])
    (refused : ∀ path tree name value fields, value.IsNested →
      Q path tree ((name, value) :: fields))
    (skipped : ∀ path tree name value fields, ¬ value.IsNested → Overrides.Skips tree name →
      Q path tree fields → Q path tree ((name, value) :: fields))
    (kept : ∀ path tree name value fields, ¬ value.IsNested → ¬ Overrides.Skips tree name →
      P (path.child name) (tree.bind (Record.get? name)) value → Q path tree fields →
      Q path tree ((name, value) :: fields)) :
    (∀ path entry value, P path entry value) ∧ ∀ path tree fields, Q path tree fields := by
  -- the last patterns of the definition name no constructor: what is left over is a leaf
  refine populate.mutual_induct P Q object empty nested objects ?_ ?_ nil ?_ ?_ ?_
  · intro path entry first rest harray hobject
    refine leaves path entry first rest ?_
    match first with
    | .array items => exact (harray items rfl).elim
    | .object fields => exact (hobject fields rfl).elim
    | .null | .bool _ | .integer _ | .decimal _ | .text _ | .date _ => trivial
  · intro path entry value hobject hempty _ _ hitems
    refine leaf path entry value ?_
    match value with
    | .object fields => exact (hobject fields rfl).elim
    | .array [] => exact (hempty rfl).elim
    | .array (first :: rest) => exact (hitems first rest rfl).elim
    | .null | .bool _ | .integer _ | .decimal _ | .text _ | .date _ => trivial
  · intro path tree name value fields hnone
    exact refused path tree name value fields ((Value.category?_isNone_iff value).mp hnone)
  · intro path tree name value fields hsome hskip
    exact skipped path tree name value fields
      (fun h => hsome ((Value.category?_isNone_iff value).mpr h))
      ((Overrides.any_isSkip_iff tree name).mp hskip)
  · intro path tree name value fields hsome hkeep
    exact kept path tree name value fields
      (fun h => hsome ((Value.category?_isNone_iff value).mpr h))
      (fun h => hkeep ((Overrides.any_isSkip_iff tree name).mpr h))

/-! ### Equations -/

section Equations

variable {σ : Type} [Random.Source σ] (o : Options) (path : FieldPath)

/-- The specimen of an object whose tree of overrides is known. -/
def populateObject (tree : Option Overrides) (fields : List (String × Value)) :
    Generation σ Value := do
  .ofExcept id (checkNames o.strict fields path tree)
  .object <$> populateFields o path tree fields

theorem populate_object (entry : Option Override) (fields : List (String × Value)) :
    (populate o path entry (.object fields) : Generation σ Value) =
      Generation.ofExcept id (treeOf path entry) >>= fun tree =>
        populateObject o path tree fields := by
  rw [populate]
  rfl

theorem populate_nested (entry : Option Override) (items rest : List Value) :
    (populate o path entry (.array (.array items :: rest)) : Generation σ Value) =
      throw (.value (.nestedArray path.render)) := by
  rw [populate]

theorem populate_objects (entry : Option Override) (fields : List (String × Value))
    (rest : List Value) :
    (populate o path entry (.array (.object fields :: rest)) : Generation σ Value) =
      Generation.ofExcept id (treeOf path entry) >>= fun tree =>
        Value.array <$> Random.times o.elementCount
          (populateObject o path.element tree fields) := by
  rw [populate]
  rfl

theorem populate_leaves (entry : Option Override) {first : Value} (h : first.IsLeaf)
    (rest : List Value) :
    (populate o path entry (.array (first :: rest)) : Generation σ Value) =
      Generation.ofExcept id (generatorOf o.window first path entry) >>= fun generator =>
        Value.array <$> Random.times o.elementCount generator.generate := by
  rw [populate]
  · rintro items rfl
    exact h
  · rintro fields rfl
    exact h

theorem populate_leaf (entry : Option Override) {value : Value} (h : value.IsLeaf) :
    (populate o path entry value : Generation σ Value) =
      Generation.ofExcept id (generatorOf o.window value path entry) >>= fun generator =>
        generator.generate := by
  cases value with
  | array items => exact h.elim
  | object fields => exact h.elim
  | null | bool _ | integer _ | decimal _ | text _ | date _ =>
    rw [populate] <;> simp

variable {name : String} {value : Value} (fields : List (String × Value))

theorem populateFields_refused (tree : Option Overrides) (h : value.IsNested) :
    (populateFields o path tree ((name, value) :: fields) :
      Generation σ (List (String × Value))) =
      throw (.value (.nestedArray (path.child name).render)) := by
  rw [populateFields, if_pos ((Value.category?_isNone_iff value).mpr h)]

theorem populateFields_skipped {tree : Option Overrides} (h : ¬ value.IsNested)
    (hskip : Overrides.Skips tree name) :
    (populateFields o path tree ((name, value) :: fields) :
      Generation σ (List (String × Value))) = populateFields o path tree fields := by
  rw [populateFields, if_neg (fun hn => h ((Value.category?_isNone_iff value).mp hn)),
    if_pos ((Overrides.any_isSkip_iff tree name).mpr hskip)]

theorem populateFields_kept {tree : Option Overrides} (h : ¬ value.IsNested)
    (hkeep : ¬ Overrides.Skips tree name) :
    (populateFields o path tree ((name, value) :: fields) :
      Generation σ (List (String × Value))) =
      populate o (path.child name) (tree.bind (Record.get? name)) value >>= fun made =>
        populateFields o path tree fields >>= fun others => pure ((name, made) :: others) := by
  rw [populateFields, if_neg (fun hn => h ((Value.category?_isNone_iff value).mp hn)),
    if_neg (fun hs => hkeep ((Overrides.any_isSkip_iff tree name).mp hs))]

end Equations

/-! ### Nodes and their overrides -/

/-- The rule may be used for a leaf: it makes values of the kind of the leaf, where the two
kinds of numbers are one and a text may stand for a date.  An open leaf takes any rule. -/
def Spec.Rule.Fits : Spec.Rule → Value → Prop
  | _, .null => True
  | .boolean, .bool _ => True
  | .string _, .text _ => True
  | .string _, .date _ => True
  | .integer _, .integer _ => True
  | .integer _, .decimal _ => True
  | .decimal _, .integer _ => True
  | .decimal _, .decimal _ => True
  | .date, .date _ => True
  | _, _ => False

theorem Spec.Rule.isSkip_eq_false_iff {rule : Spec.Rule} : rule.isSkip = false ↔ rule ≠ .skip := by
  rw [Bool.eq_false_iff, Ne, Spec.Rule.isSkip_iff]

theorem Spec.Rule.suits_iff_fits {rule : Spec.Rule} {value : Value} (h : value.IsLeaf)
    (hskip : rule ≠ .skip) :
    rule.suits (value.category?.getD .null) = true ↔ rule.Fits value := by
  cases rule with
  | skip => exact (hskip rfl).elim
  | boolean | date | string _ | integer _ | decimal _ =>
    cases value with
    | array items => exact h.elim
    | object fields => exact h.elim
    | null | bool _ | integer _ | decimal _ | text _ | date _ =>
      simp [Spec.Rule.suits, Spec.Rule.Fits, Value.category?]

/-- The rule that a leaf asks for: that of its spec, which has to fit and to make values,
or else the one for values of its kind.  An open leaf without a spec asks for none. -/
inductive RuleFor : Option Override → Value → Spec.Rule → Prop
  | spec {text : String} {rule : Spec.Rule} {value : Value} : Spec.parse text = .ok rule →
    rule ≠ .skip → rule.Fits value → RuleFor (some (.spec text)) value rule
  | bool (b : Bool) : RuleFor none (.bool b) .boolean
  | text (s : String) : RuleFor none (.text s) (.string none)
  | integer (n : Int64) : RuleFor none (.integer n) (.integer .any)
  | decimal (x : Binary64) : RuleFor none (.decimal x) (.decimal .any)
  | date (d : Date) : RuleFor none (.date d) .date

theorem implicitRule?_eq_some_iff {value : Value} {rule : Spec.Rule} :
    Generator.implicitRule? value = some rule ↔ RuleFor none value rule := by
  constructor
  · intro h
    cases value with
    | bool b => cases h; exact .bool b
    | text s => cases h; exact .text s
    | integer n => cases h; exact .integer n
    | decimal x => cases h; exact .decimal x
    | date d => cases h; exact .date d
    | null | array _ | object _ => cases h
  · intro h
    cases h <;> rfl

/-- A tree or nothing may stand where a tree is needed. -/
theorem treeOf_eq_ok {path : FieldPath} {entry : Option Override} {tree : Option Overrides} :
    treeOf path entry = .ok tree ↔ entry = tree.map .tree := by
  cases entry with
  | none => cases tree <;> simp [treeOf]
  | some entry =>
    cases entry with
    | spec text => cases tree <;> simp [treeOf]
    | tree entries => cases tree <;> simp [treeOf]

theorem treeOf_eq_error {path : FieldPath} {entry : Option Override} {e : GenerationError} :
    treeOf path entry = .error e ↔
      (∃ text, entry = some (.spec text)) ∧ e = .misshapedOverride path.render .tree := by
  cases entry with
  | none => simp [treeOf]
  | some entry =>
    cases entry with
    | spec text => simp [treeOf, eq_comm]
    | tree entries => simp [treeOf]

/-- Names are refused only in strict mode, and only those that no field has. -/
theorem checkNames_eq_ok {strict : Bool} {fields : List (String × Value)} {path : FieldPath}
    {tree : Option Overrides} :
    checkNames strict fields path tree = .ok () ↔
      (strict = true →
        ∀ name ∈ Record.names (tree.getD []), Record.contains name fields = true) := by
  unfold checkNames
  cases hfind : (Record.names (tree.getD [])).find? fun name => !Record.contains name fields with
  | none =>
    simp only [List.find?_eq_none, Bool.not_eq_true', Bool.not_eq_false] at hfind
    exact ⟨fun _ _ => hfind, fun _ => rfl⟩
  | some name =>
    -- an unknown name was found, which matters in strict mode only
    have hmem := List.mem_of_find?_eq_some hfind
    have hmissing := List.find?_some hfind
    cases strict with
    | false => simp
    | true =>
      simp only [if_pos, reduceCtorEq, true_imp_iff, false_iff, not_forall]
      refine ⟨name, hmem, ?_⟩
      simpa using hmissing

/-- A name is refused because it stands in the tree and is no field. -/
theorem checkNames_eq_error {strict : Bool} {fields : List (String × Value)} {path : FieldPath}
    {tree : Option Overrides} {e : GenerationError}
    (h : checkNames strict fields path tree = .error e) :
    strict = true ∧ ∃ name ∈ Record.names (tree.getD []), Record.get? name fields = none ∧
      e = .unknownOverride (path.child name).render := by
  unfold checkNames at h
  split at h
  · next name hfind =>
    split at h
    · next hstrict =>
      cases h
      have hmissing := List.find?_some hfind
      refine ⟨hstrict, name, List.mem_of_find?_eq_some hfind, ?_, rfl⟩
      simpa [Record.contains] using hmissing
    · cases h
  · cases h

private theorem generatorOf_spec (window : UInt32) (value : Value) (path : FieldPath)
    (text : String) :
    generatorOf window value path (some (.spec text)) =
      ((Generator.resolve text window).bind fun generator =>
        (Spec.check text generator.rule (value.category?.getD .null)).bind fun _ =>
          .ok generator).mapError (.spec path.render) := rfl

/-- A leaf gets a generator exactly when it asks for a rule. -/
theorem generatorOf_eq_ok {window : UInt32} {value : Value} {path : FieldPath}
    {entry : Option Override} {g : Generator} (h : value.IsLeaf) :
    generatorOf window value path entry = .ok g ↔
      g.window = window ∧ RuleFor entry value g.rule := by
  obtain ⟨rule, window'⟩ := g
  cases entry with
  | none =>
    rw [← implicitRule?_eq_some_iff]
    simp only [generatorOf, Generator.implicit?]
    cases Generator.implicitRule? value with
    | none => simp
    | some rule' => simp [and_comm, eq_comm]
  | some entry =>
    cases entry with
    | tree entries =>
      refine ⟨nofun, ?_⟩
      rintro ⟨-, hrule⟩
      cases hrule
    | spec text =>
      rw [generatorOf_spec]
      constructor
      · intro hok
        cases hresolve : Generator.resolve text window with
        | error e => rw [hresolve] at hok; cases hok
        | ok g =>
          obtain ⟨hparse, hskip, hwindow⟩ := Generator.resolve_eq_ok.mp hresolve
          have hne := Spec.Rule.isSkip_eq_false_iff.mp hskip
          -- resolved, so it is left to pass the check against the leaf
          rw [hresolve, Except.bind, Spec.check] at hok
          split at hok
          · next hsuits =>
            cases hok
            exact ⟨hwindow, .spec hparse hne ((Spec.Rule.suits_iff_fits h hne).mp hsuits)⟩
          · cases hok
      · rintro ⟨rfl, hrule⟩
        cases hrule with
        | spec hparse hskip hfits =>
          have hresolve : Generator.resolve text window' = .ok ⟨rule, window'⟩ :=
            Generator.resolve_eq_ok.mpr ⟨hparse, Spec.Rule.isSkip_eq_false_iff.mpr hskip, rfl⟩
          rw [hresolve, Except.bind, Spec.check,
            if_pos ((Spec.Rule.suits_iff_fits h hskip).mpr hfits)]
          rfl

/-- A leaf is refused for its spec, for a tree in place of a spec, or for being open. -/
theorem generatorOf_eq_error {window : UInt32} {value : Value} {path : FieldPath}
    {entry : Option Override} {e : GenerationError}
    (h : generatorOf window value path entry = .error e) :
    (∃ text source, entry = some (.spec text) ∧ e = .spec path.render source ∧
      (Spec.parse text = .error source ∨ Spec.parse text = .ok .skip ∨
        ∃ rule, Spec.parse text = .ok rule ∧ rule ≠ .skip ∧
          Spec.check text rule (value.category?.getD .null) = .error source)) ∨
      (∃ entries, entry = some (.tree entries) ∧ e = .misshapedOverride path.render .spec) ∨
      (entry = none ∧ e = .unsupportedField path.render (value.category?.getD .null)) := by
  cases entry with
  | none =>
    simp only [generatorOf] at h
    split at h
    · cases h
    · cases h
      exact Or.inr (Or.inr ⟨rfl, rfl⟩)
  | some entry =>
    cases entry with
    | tree entries =>
      cases h
      exact Or.inr (Or.inl ⟨entries, rfl, rfl⟩)
    | spec text =>
      refine Or.inl ⟨text, ?_⟩
      rw [generatorOf_spec, Generator.resolve] at h
      cases hparse : Spec.parse text with
      | error source =>
        rw [hparse] at h
        cases h
        exact ⟨source, rfl, rfl, Or.inl rfl⟩
      | ok rule =>
        rw [hparse] at h
        by_cases hskip : rule = .skip
        · subst hskip
          cases h
          exact ⟨_, rfl, rfl, Or.inr (Or.inl rfl)⟩
        · have hnot := Spec.Rule.isSkip_eq_false_iff.mpr hskip
          -- the rule is resolved, so the check has failed
          change Except.mapError _ (Except.bind (if rule.isSkip = true then _ else _) _) = _ at h
          rw [hnot, if_neg Bool.false_ne_true, Except.bind] at h
          cases hcheck : Spec.check text rule (value.category?.getD .null) with
          | ok u => rw [hcheck] at h; cases h
          | error source =>
            rw [hcheck] at h
            cases h
            exact ⟨source, rfl, rfl, Or.inr (Or.inr ⟨rule, rfl, hskip, hcheck⟩)⟩

end Specimen

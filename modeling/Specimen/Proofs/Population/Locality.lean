import Specimen.Proofs.Population.Walk
import Specimen.Proofs.Record
import Specimen.Validation.Finding

/-!
# Places in templates and overrides

Population goes down a template and its overrides together.  A place is the names of the
fields on the way down, where an array is entered at its first object; it leads to an object
of the template and to the tree of overrides for it.  What population makes of the whole
depends on a place only through what it makes of that object under that tree, so a change
there that population does not see can be made at any depth.

## Main definitions

* `Value.fieldsAt? place v`, `Overrides.treeAt? place t` — what lies at a place.
* `Value.modifyAt f place v`, `Overrides.modifyAt g place t` — a change at a place.
* `populateField` — the part of one field in the specimen of an object.

## Main statements

* `populateFields_append`, `populateFields_congr` — an object is populated field by field.
* `populate_modifyAt` — what is not seen at a place is not seen at all.
-/

namespace Specimen

/-! ### Places -/

namespace Value

/-- Changes the fields of an object, or those of the first object of an array. -/
def mapFields (f : List (String × Value) → List (String × Value)) : Value → Value
  | .object fields => .object (f fields)
  | .array (.object fields :: rest) => .array (.object (f fields) :: rest)
  | other => other

/-- The fields at a place. -/
def fieldsAt? : List String → Value → Option (List (String × Value))
  | [], v => fieldsOf? v
  | name :: place, v => (fieldsOf? v).bind fun fields =>
    (Record.get? name fields).bind (fieldsAt? place)

/-- The value with the fields at a place changed. -/
def modifyAt (f : List (String × Value) → List (String × Value)) : List String → Value → Value
  | [], v => v.mapFields f
  | name :: place, v => v.mapFields (Record.modify name (modifyAt f place))

end Value

/-- Changes a tree, and leaves a spec as it is. -/
def Override.mapTree (g : Overrides → Overrides) : Override → Override
  | .spec text => .spec text
  | .tree entries => .tree (g entries)

theorem Override.asTree?_eq_some_iff {entry : Override} {entries : Overrides} :
    entry.asTree? = some entries ↔ entry = .tree entries := by
  cases entry <;> simp [asTree?]

namespace Overrides

/-- The tree at a place. -/
def treeAt? : List String → Overrides → Option Overrides
  | [], tree => some tree
  | name :: place, tree => (Record.get? name tree).bind fun entry =>
    entry.asTree?.bind (treeAt? place)

/-- The overrides with the tree at a place changed. -/
def modifyAt (g : Overrides → Overrides) : List String → Overrides → Overrides
  | [], tree => g tree
  | name :: place, tree => Record.modify name (Override.mapTree (modifyAt g place)) tree

end Overrides

/-! ### Nodes -/

namespace Value

theorem mapFields_id (v : Value) : v.mapFields id = v := by
  unfold mapFields
  split <;> rfl

/-- Changing nothing at a place changes nothing. -/
theorem modifyAt_id (place : List String) (v : Value) : v.modifyAt id place = v := by
  induction place generalizing v with
  | nil => exact v.mapFields_id
  | cons name place ih =>
    rw [modifyAt, funext ih]
    change v.mapFields (Record.modify name id) = v
    rw [funext (Record.modify_id name)]
    exact v.mapFields_id

/-- Every field of a value in order is in order. -/
theorem wellFormed_of_mem {name : String} {value : Value} :
    ∀ {fields : List (String × Value)}, WellFormedFields fields →
      (name, value) ∈ fields → value.WellFormed := by
  intro fields
  induction fields with
  | nil => exact fun _ hmem => nomatch hmem
  | cons head rest ih =>
    obtain ⟨key, other⟩ := head
    rintro ⟨hhead, hrest⟩ hmem
    rcases List.mem_cons.mp hmem with heq | hmem
    · cases heq
      exact hhead
    · exact ih hrest hmem

/-- Objects and arrays of objects are the nodes with fields. -/
theorem fieldsOf?_eq_some_iff {v : Value} {fields : List (String × Value)} :
    fieldsOf? v = some fields ↔
      v = .object fields ∨ ∃ rest, v = .array (.object fields :: rest) := by
  constructor
  · intro h
    match v with
    | .object _ =>
      cases h
      exact Or.inl rfl
    | .array (.object _ :: rest) =>
      cases h
      exact Or.inr ⟨rest, rfl⟩
    | .null | .bool _ | .integer _ | .decimal _ | .text _ | .date _ | .array []
    | .array (.array _ :: _) | .array (.null :: _) | .array (.bool _ :: _)
    | .array (.integer _ :: _) | .array (.decimal _ :: _) | .array (.text _ :: _)
    | .array (.date _ :: _) => cases h
  · rintro (rfl | ⟨rest, rfl⟩) <;> rfl

/-- The fields of a value in order are a record in order. -/
theorem wellFormed_of_fieldsOf? {v : Value} {fields : List (String × Value)} (h : v.WellFormed)
    (hfields : fieldsOf? v = some fields) : (Value.object fields).WellFormed := by
  rcases fieldsOf?_eq_some_iff.mp hfields with rfl | ⟨rest, rfl⟩
  · exact h
  · exact h.1

/-- So are the fields at a place. -/
theorem wellFormed_of_fieldsAt? {place : List String} :
    ∀ {v : Value} {fields : List (String × Value)}, v.WellFormed →
      v.fieldsAt? place = some fields → (Value.object fields).WellFormed := by
  induction place with
  | nil =>
    intro v fields hwf hfields
    exact wellFormed_of_fieldsOf? hwf hfields
  | cons name place ih =>
    intro v fields hwf hfields
    obtain ⟨all, hall, hfields⟩ := Option.bind_eq_some_iff.mp hfields
    obtain ⟨value, hvalue, hfields⟩ := Option.bind_eq_some_iff.mp hfields
    have hvalues := (wellFormed_of_fieldsOf? hwf hall).2
    exact ih (wellFormed_of_mem hvalues (Record.mem_of_get? hvalue)) hfields

/-- Leaves and arrays of leaves have no fields. -/
theorem fieldsOf?_leaf {v : Value} (h : v.IsLeaf) : fieldsOf? v = none := by
  cases v with
  | array items => exact h.elim
  | object fields => exact h.elim
  | null | bool _ | integer _ | decimal _ | text _ | date _ => rfl

theorem fieldsOf?_leaves {first : Value} (h : first.IsLeaf) (rest : List Value) :
    fieldsOf? (.array (first :: rest)) = none := by
  cases first with
  | array items => exact h.elim
  | object fields => exact h.elim
  | null | bool _ | integer _ | decimal _ | text _ | date _ => rfl

/-- A change of the fields leaves a node of the same kind. -/
theorem isNested_mapFields {f : List (String × Value) → List (String × Value)} {v : Value} :
    (v.mapFields f).IsNested ↔ v.IsNested := by
  constructor
  · rintro ⟨items, rest, h⟩
    match v with
    | .array (.array _ :: _) => exact ⟨_, _, rfl⟩
    | .array (.object _ :: _) => simp [mapFields] at h
    | .null | .bool _ | .integer _ | .decimal _ | .text _ | .date _ | .object _ | .array []
    | .array (.null :: _) | .array (.bool _ :: _) | .array (.integer _ :: _)
    | .array (.decimal _ :: _) | .array (.text _ :: _) | .array (.date _ :: _) => cases h
  · rintro ⟨items, rest, rfl⟩
    exact ⟨items, rest, rfl⟩

end Value

/-! ### Fields -/

section Fields

variable {σ : Type} [Random.Source σ] {o : Options} {path : FieldPath}

/-- The part of one field in the specimen of an object: nothing, if it is left out. -/
def populateField (o : Options) (path : FieldPath) (name : String) (entry : Option Override)
    (value : Value) : Generation σ (Option Value) :=
  if value.category?.isNone then throw (.value (.nestedArray (path.child name).render))
  else if entry.any Override.isSkip then pure none
  else some <$> populate o (path.child name) entry value

theorem populateFields_cons (tree : Option Overrides) (name : String) (value : Value)
    (fields : List (String × Value)) :
    (populateFields o path tree ((name, value) :: fields) :
      Generation σ (List (String × Value))) =
      populateField o path name (tree.bind (Record.get? name)) value >>= fun made =>
        ((made.map fun value => (name, value)).toList ++ ·) <$>
          populateFields o path tree fields := by
  rw [populateFields, populateField]
  split
  · rfl
  · split
    · simp
    · simp

/-- Fields are populated in their order, the later ones behind the earlier ones. -/
theorem populateFields_append (tree : Option Overrides) (earlier later : List (String × Value)) :
    (populateFields o path tree (earlier ++ later) : Generation σ (List (String × Value))) =
      populateFields o path tree earlier >>= fun made =>
        (made ++ ·) <$> populateFields o path tree later := by
  induction earlier with
  | nil => simp [populateFields_nil]
  | cons field earlier ih =>
    rw [List.cons_append, populateFields_cons, populateFields_cons, ih]
    simp

/-- An object is populated field by field: the specimens of two lists of fields agree when
the parts of the fields do. -/
theorem populateFields_congr {tree tree' : Option Overrides} (f : String × Value → Value) :
    ∀ {fields : List (String × Value)},
      (∀ name value, (name, value) ∈ fields →
        (populateField o path name (tree.bind (Record.get? name)) value :
          Generation σ (Option Value)) =
          populateField o path name (tree'.bind (Record.get? name)) (f (name, value))) →
      (populateFields o path tree fields : Generation σ (List (String × Value))) =
        populateFields o path tree' (fields.map fun field => (field.1, f field)) := by
  intro fields
  induction fields with
  | nil =>
    intro _
    rw [List.map_nil, populateFields_nil, populateFields_nil]
  | cons field fields ih =>
    intro h
    obtain ⟨name, value⟩ := field
    rw [List.map_cons, populateFields_cons, populateFields_cons,
      h name value List.mem_cons_self,
      ih fun name value hmem => h name value (List.mem_cons_of_mem _ hmem)]

/-- The same fields under two trees. -/
theorem populateFields_tree_congr {tree tree' : Option Overrides} {fields : List (String × Value)}
    (h : ∀ name value, (name, value) ∈ fields →
      (populateField o path name (tree.bind (Record.get? name)) value :
        Generation σ (Option Value)) =
        populateField o path name (tree'.bind (Record.get? name)) value) :
    (populateFields o path tree fields : Generation σ (List (String × Value))) =
      populateFields o path tree' fields := by
  have hfields := populateFields_congr Prod.snd h
  rwa [List.map_id'] at hfields

/-- The part of a field is settled by three things: whether its value may stand in a template,
whether it is left out, and what its value is populated with. -/
theorem populateField_congr {name : String} {entry entry' : Option Override} {value value' : Value}
    (hnested : value.IsNested ↔ value'.IsNested)
    (hskip : entry.any Override.isSkip = entry'.any Override.isSkip)
    (hrun : (populate o (path.child name) entry value : Generation σ Value) =
      populate o (path.child name) entry' value') :
    (populateField o path name entry value : Generation σ (Option Value)) =
      populateField o path name entry' value' := by
  have hcategory : value.category?.isNone = value'.category?.isNone := by
    rw [Bool.eq_iff_iff, Value.category?_isNone_iff, Value.category?_isNone_iff, hnested]
  rw [populateField, populateField, hcategory, hskip, hrun]

/-- Two trees are checked alike if the first name that is no field is the same. -/
theorem checkNames_eq_of_find {strict : Bool} {tree tree' : Option Overrides}
    {fields fields' : List (String × Value)}
    (h : ((Record.names (tree.getD [])).find? fun name => !Record.contains name fields) =
      (Record.names (tree'.getD [])).find? fun name => !Record.contains name fields') :
    checkNames strict fields path tree = checkNames strict fields' path tree' := by
  rw [checkNames, checkNames, h]

end Fields

/-! ### Changes at a place -/

section Changes

variable {σ : Type} [Random.Source σ] {o : Options}

/-- An object under a tree, or under nothing. -/
theorem populate_object_map (path : FieldPath) (tree : Option Overrides)
    (fields : List (String × Value)) :
    (populate o path (tree.map .tree) (.object fields) : Generation σ Value) =
      populateObject o path tree fields := by
  rw [populate_object, treeOf_eq_ok.mpr rfl, Generation.ofExcept_ok, pure_bind]

/-- An array of objects under a tree, or under nothing. -/
theorem populate_objects_map (path : FieldPath) (tree : Option Overrides)
    (fields : List (String × Value)) (rest : List Value) :
    (populate o path (tree.map .tree) (.array (.object fields :: rest)) : Generation σ Value) =
      Value.array <$> Random.times o.elementCount
        (populateObject o path.element tree fields) := by
  rw [populate_objects, treeOf_eq_ok.mpr rfl, Generation.ofExcept_ok, pure_bind]

/-- A specimen of an object at the root. -/
theorem create_object (overrides : Option Overrides) (fields : List (String × Value)) :
    (create o (.object fields) overrides : Generation σ Value) =
      populateObject o .root overrides fields :=
  populate_object_map .root overrides fields

/-- An array of objects at the root. -/
theorem create_objects (overrides : Option Overrides) (fields : List (String × Value))
    (rest : List Value) :
    (create o (.array (.object fields :: rest)) overrides : Generation σ Value) =
      Value.array <$> Random.times o.elementCount
        (populateObject o FieldPath.root.element overrides fields) :=
  populate_objects_map .root overrides fields rest

/-- A node with fields is populated alike when the object of the node is. -/
theorem populate_mapFields {tree tree' : Option Overrides} {v : Value}
    {fields : List (String × Value)} {f : List (String × Value) → List (String × Value)}
    (hfields : fieldsOf? v = some fields)
    (h : ∀ path, (populateObject o path tree fields : Generation σ Value) =
      populateObject o path tree' (f fields)) (path : FieldPath) :
    (populate o path (tree.map .tree) v : Generation σ Value) =
      populate o path (tree'.map .tree) (v.mapFields f) := by
  rcases Value.fieldsOf?_eq_some_iff.mp hfields with rfl | ⟨rest, rfl⟩
  · rw [Value.mapFields, populate_object_map, populate_object_map, h]
  · rw [Value.mapFields, populate_objects_map, populate_objects_map, h]

/-- Under two trees a node with fields is populated alike when the object of the node is. -/
theorem populate_tree_congr {tree tree' : Option Overrides} {v : Value}
    {fields : List (String × Value)} (hfields : fieldsOf? v = some fields)
    (h : ∀ path, (populateObject o path tree fields : Generation σ Value) =
      populateObject o path tree' fields) (path : FieldPath) :
    (populate o path (tree.map .tree) v : Generation σ Value) =
      populate o path (tree'.map .tree) v := by
  have hnode := @populate_mapFields σ _ o tree tree' v fields id hfields h path
  rwa [Value.mapFields_id] at hnode

/-- The step down to a field: a change below the field is not seen in the object, if it is
not seen in the field. -/
theorem populateObject_modify {name : String} {value : Value} {entries : Overrides}
    {fields : List (String × Value)} {tree : Overrides} {f : Value → Value}
    {g : Overrides → Overrides} (hsorted : Record.Sorted fields)
    (hvalue : Record.get? name fields = some value)
    (hentry : Record.get? name tree = some (.tree entries))
    (hnested : (f value).IsNested ↔ value.IsNested)
    (h : ∀ path, (populate o path (some (.tree entries)) value : Generation σ Value) =
      populate o path (some (.tree (g entries))) (f value)) (path : FieldPath) :
    (populateObject o path (some tree) fields : Generation σ Value) =
      populateObject o path (some (Record.modify name (Override.mapTree g) tree))
        (Record.modify name f fields) := by
  have hnames : checkNames o.strict fields path (some tree) =
      checkNames o.strict (Record.modify name f fields) path
        (some (Record.modify name (Override.mapTree g) tree)) := by
    refine checkNames_eq_of_find ?_
    simp only [Option.getD_some, Record.names_modify, Record.contains_modify]
  rw [populateObject, populateObject, hnames]
  refine congrArg (fun run => _ >>= fun _ => Value.object <$> run) ?_
  refine populateFields_congr (fun field => if field.1 = name then f field.2 else field.2) ?_
  intro key other hmem
  dsimp only [Option.bind_some]
  rw [Record.get?_modify]
  by_cases hkey : key = name
  · -- the field itself: the names are unique, so its value is the one that was looked up
    subst hkey
    obtain rfl := Record.eq_of_mem hsorted hvalue hmem
    rw [if_pos rfl, if_pos rfl, hentry]
    exact populateField_congr hnested.symm rfl (h (path.child key))
  · rw [if_neg hkey, if_neg (Ne.symm hkey)]

/-- **A change that population does not see at a place, it does not see at all.** -/
theorem populate_modifyAt {sub : Overrides} {fields : List (String × Value)}
    {f : List (String × Value) → List (String × Value)} {g : Overrides → Overrides}
    (h : ∀ path, (populateObject o path (some sub) fields : Generation σ Value) =
      populateObject o path (some (g sub)) (f fields)) :
    ∀ {place : List String} {v : Value} {tree : Overrides}, v.WellFormed →
      v.fieldsAt? place = some fields → tree.treeAt? place = some sub → ∀ path : FieldPath,
      (populate o path (some (.tree tree)) v : Generation σ Value) =
        populate o path (some (.tree (tree.modifyAt g place))) (v.modifyAt f place) := by
  -- on the way up from the place, each object differs in one field and in the tree for it
  intro place
  induction place with
  | nil =>
    intro v tree _ hfields htree
    cases htree
    exact @populate_mapFields σ _ o (some sub) (some (g sub)) v fields f hfields h
  | cons name place ih =>
    intro v tree hwf hfields htree
    obtain ⟨all, hall, hfields⟩ := Option.bind_eq_some_iff.mp hfields
    obtain ⟨value, hvalue, hfields⟩ := Option.bind_eq_some_iff.mp hfields
    obtain ⟨entry, hentry, htree⟩ := Option.bind_eq_some_iff.mp htree
    obtain ⟨entries, hentries, htree⟩ := Option.bind_eq_some_iff.mp htree
    obtain ⟨hsorted, hvalues⟩ := Value.wellFormed_of_fieldsOf? hwf hall
    obtain rfl := Override.asTree?_eq_some_iff.mp hentries
    have hbelow := ih (Value.wellFormed_of_mem hvalues (Record.mem_of_get? hvalue)) hfields htree
    have hnested : (value.modifyAt f place).IsNested ↔ value.IsNested := by
      cases place <;> exact Value.isNested_mapFields
    exact @populate_mapFields σ _ o (some tree) (some (tree.modifyAt g (name :: place))) v all
      (Record.modify name (Value.modifyAt f place)) hall
      (populateObject_modify hsorted hvalue hentry hnested hbelow)

end Changes

end Specimen

import Specimen.Override.Json

/-!
# The written form of overrides

A spec is written as a string and a tree as an object, without a tag that says which is which.
None is needed: a string is never an object, so what is read is what was written, at every depth.
One value of another kind, anywhere inside, and the whole is refused.

The equations hold for lists of entries in any order.  What is built step by step is in order
besides, with every name once, as it is in the objects of JSON.

## Main definitions

* `Json.IsOverride`, `Json.IsOverrides` — the format, told without a reader.
* `Override.Built`, `Overrides.Built` — what can be built by adding and collecting entries.

## Main statements

* `Override.ofJson?_eq_some_iff` — reading accepts what writing produces, and nothing else.
* `Override.exists_ofJson?_iff` — this is the format.
* `Overrides.Built.wellFormed` — what is built is in order.
* `Overrides.ofJson?_exact` — overrides and their written form.
-/

namespace Specimen

/-! ### The format -/

/-- A string, or an object all of whose members are of this form again. -/
inductive Json.IsOverride : Json → Prop
  | string (text : String) : IsOverride (.string text)
  | object {members : List (String × Json)} :
    (∀ name value, (name, value) ∈ members → IsOverride value) → IsOverride (.object members)

/-- An object all of whose members are strings or such objects again. -/
def Json.IsOverrides (json : Json) : Prop :=
  json.IsOverride ∧ ∃ members, json = .object members

@[simp] theorem Json.isOverride_object_iff {members : List (String × Json)} :
    (Json.object members).IsOverride ↔
      ∀ name value, (name, value) ∈ members → value.IsOverride := by
  constructor
  · rintro (_ | hmembers)
    exact hmembers
  · exact .object

namespace Override

/-! ### Reading what was written -/

mutual

/-- An override is read back from its written form. -/
theorem ofJson?_toJson : ∀ entry : Override, ofJson? entry.toJson = some entry
  | .spec text => by rw [toJson, ofJson?]
  | .tree entries => by
    rw [toJson, ofJson?, ofMembers?_toMembers entries, Option.map_some]

theorem ofMembers?_toMembers : ∀ entries : List (String × Override),
    ofMembers? (toMembers entries) = some entries
  | [] => by rw [toMembers, ofMembers?]
  | (name, entry) :: entries => by
    rw [toMembers, ofMembers?, ofJson?_toJson entry, ofMembers?_toMembers entries]
    rfl

end

/-! ### Writing what was read -/

theorem ofMembers?_cons_eq_some {name : String} {value : Json} {members : List (String × Json)}
    {entries : List (String × Override)} :
    ofMembers? ((name, value) :: members) = some entries ↔
      ∃ entry rest, ofJson? value = some entry ∧ ofMembers? members = some rest ∧
        entries = (name, entry) :: rest := by
  rw [ofMembers?]
  cases ofJson? value with
  | none => simp
  | some entry =>
    cases ofMembers? members with
    | none => simp
    | some rest => simp [eq_comm]

mutual

/-- What is read as an override is its written form. -/
theorem toJson_of_ofJson? : ∀ {json : Json} {entry : Override},
    ofJson? json = some entry → entry.toJson = json
  | .string text, _, h => by
    rw [ofJson?] at h
    cases h
    rw [toJson]
  | .object members, _, h => by
    rw [ofJson?] at h
    obtain ⟨entries, hentries, rfl⟩ := Option.map_eq_some_iff.mp h
    rw [toJson, toMembers_of_ofMembers? hentries]
  | .null, _, h | .bool _, _, h | .number _, _, h | .array _, _, h => by
    simp [ofJson?] at h

theorem toMembers_of_ofMembers? : ∀ {members : List (String × Json)}
    {entries : List (String × Override)},
    ofMembers? members = some entries → toMembers entries = members
  | [], _, h => by
    rw [ofMembers?] at h
    cases h
    rw [toMembers]
  | (name, value) :: members, _, h => by
    obtain ⟨entry, rest, hentry, hrest, rfl⟩ := ofMembers?_cons_eq_some.mp h
    rw [toMembers, toJson_of_ofJson? hentry, toMembers_of_ofMembers? hrest]

end

/-- **Reading accepts what writing produces, and nothing else.** -/
theorem ofJson?_eq_some_iff {json : Json} {entry : Override} :
    ofJson? json = some entry ↔ entry.toJson = json := by
  constructor
  · exact toJson_of_ofJson?
  · rintro rfl
    exact ofJson?_toJson entry

/-! ### What is accepted -/

mutual

/-- **What is accepted is the format**: one value that is neither a string nor an object, at any
depth, is enough to have the whole refused. -/
theorem exists_ofJson?_iff : ∀ json : Json, (∃ entry, ofJson? json = some entry) ↔ json.IsOverride
  | .string text => by
    rw [ofJson?]
    exact iff_of_true ⟨_, rfl⟩ (.string text)
  | .object members => by
    rw [ofJson?, Json.isOverride_object_iff, ← exists_ofMembers?_iff members]
    cases ofMembers? members <;> simp
  | .null | .bool _ | .number _ | .array _ => by
    exact iff_of_false (by simp [ofJson?]) nofun

theorem exists_ofMembers?_iff : ∀ members : List (String × Json),
    (∃ entries, ofMembers? members = some entries) ↔
      ∀ name value, (name, value) ∈ members → value.IsOverride
  | [] => by simp [ofMembers?]
  | (name, value) :: members => by
    have hvalue := exists_ofJson?_iff value
    have hmembers := exists_ofMembers?_iff members
    simp only [ofMembers?_cons_eq_some, List.mem_cons, Prod.mk.injEq]
    constructor
    · rintro ⟨_, entry, rest, hentry, hrest, -⟩ other value' (⟨-, rfl⟩ | hmem)
      · exact hvalue.mp ⟨entry, hentry⟩
      · exact hmembers.mp ⟨rest, hrest⟩ other value' hmem
    · intro h
      obtain ⟨entry, hentry⟩ := hvalue.mpr (h name value (Or.inl ⟨rfl, rfl⟩))
      obtain ⟨rest, hrest⟩ := hmembers.mpr fun other value' hmem => h other value' (Or.inr hmem)
      exact ⟨_, entry, rest, hentry, hrest, rfl⟩

end

/-! ### Building -/

theorem wellFormedEntries_insert {name : String} {entry : Override}
    {entries : List (String × Override)} (hentry : entry.WellFormed)
    (h : WellFormedEntries entries) : WellFormedEntries (Record.insert name entry entries) := by
  induction entries with
  | nil => exact ⟨hentry, trivial⟩
  | cons head rest ih =>
    obtain ⟨key, old⟩ := head
    obtain ⟨hold, hrest⟩ := h
    simp only [Record.insert]
    split
    · exact ⟨hentry, hold, hrest⟩
    · split
      · exact ⟨hentry, hrest⟩
      · exact ⟨hold, ih hrest⟩

/-- One more entry keeps a tree in order. -/
theorem wellFormed_insert {name : String} {entry : Override} {t : Overrides}
    (hentry : entry.WellFormed) (h : (tree t).WellFormed) :
    (tree (t.insert name entry)).WellFormed :=
  ⟨Record.sorted_insert name entry h.1, wellFormedEntries_insert hentry h.2⟩

/-- Collected entries are in order, whichever order they came in. -/
theorem wellFormed_ofList {pairs : List (String × Override)}
    (h : ∀ name entry, (name, entry) ∈ pairs → entry.WellFormed) :
    (tree (Record.ofList pairs)).WellFormed := by
  refine ⟨Record.sorted_ofList pairs, ?_⟩
  suffices hfold : ∀ entries, WellFormedEntries entries → WellFormedEntries
      (pairs.foldl (fun entries pair => Record.insert pair.1 pair.2 entries) entries) from
    hfold [] trivial
  induction pairs with
  | nil => exact fun _ hentries => hentries
  | cons pair pairs ih =>
    intro entries hentries
    have hpair := h pair.1 pair.2 List.mem_cons_self
    exact ih (fun name entry hmem => h name entry (List.mem_cons_of_mem _ hmem)) _
      (wellFormedEntries_insert hpair hentries)

end Override

mutual

/-- A spec, or a tree that was built. -/
inductive Override.Built : Override → Prop
  | spec (text : String) : Override.Built (.spec text)
  | tree {t : Overrides} : Overrides.Built t → Override.Built (.tree t)

/-- Overrides that were built by adding entries one by one, by collecting pairs, or by both in
turn. -/
inductive Overrides.Built : Overrides → Prop
  | empty : Overrides.Built .empty
  | withSpec {t : Overrides} (name text : String) :
    Overrides.Built t → Overrides.Built (t.withSpec name text)
  | withTree {t u : Overrides} (name : String) :
    Overrides.Built t → Overrides.Built u → Overrides.Built (t.withTree name u)
  | insert {t : Overrides} {entry : Override} (name : String) :
    Overrides.Built t → Override.Built entry → Overrides.Built (t.insert name entry)
  | collect {pairs : List (String × Override)} :
    (∀ name entry, (name, entry) ∈ pairs → Override.Built entry) →
    Overrides.Built (Record.ofList pairs)

end

mutual

theorem Override.Built.wellFormed : ∀ {entry : Override}, entry.Built → entry.WellFormed
  | _, .spec _ => trivial
  | _, .tree h => h.wellFormed

/-- **What is built is in order**, with every name once. -/
theorem Overrides.Built.wellFormed : ∀ {t : Overrides}, t.Built → (Override.tree t).WellFormed
  | _, .empty => ⟨List.Pairwise.nil, trivial⟩
  | _, .withSpec _ _ h => Override.wellFormed_insert trivial h.wellFormed
  | _, .withTree _ h hu => Override.wellFormed_insert hu.wellFormed h.wellFormed
  | _, .insert _ h hentry => Override.wellFormed_insert hentry.wellFormed h.wellFormed
  | _, .collect hpairs =>
    Override.wellFormed_ofList fun name entry hmem => (hpairs name entry hmem).wellFormed

end

/-! ### Overrides and JSON -/

namespace Overrides

/-- At the top the format asks for an object. -/
theorem ofJson?_eq_some_iff_tree {json : Json} {t : Overrides} :
    ofJson? json = some t ↔ Override.ofJson? json = some (.tree t) := by
  cases json <;> simp [ofJson?, Override.ofJson?]

theorem toJson_eq_tree (t : Overrides) : t.toJson = (Override.tree t).toJson := by
  rw [toJson, Override.toJson]

/-- **Overrides and their written form.**  What is accepted is an object whose members are
strings or such objects again, and all else is refused; what is accepted is the written form of
what is read; and whatever was built is read back from its written form. -/
theorem ofJson?_exact (json : Json) :
    ((∃ t, ofJson? json = some t) ↔ json.IsOverrides) ∧
      (ofJson? json = none ↔ ¬ json.IsOverrides) ∧
      (∀ t, ofJson? json = some t ↔ t.toJson = json) ∧
      ∀ t : Overrides, t.Built →
        (Override.tree t).WellFormed ∧ ofJson? t.toJson = some t := by
  have hread : ∀ (json : Json) (t : Overrides), ofJson? json = some t ↔ t.toJson = json := by
    intro json t
    rw [ofJson?_eq_some_iff_tree, Override.ofJson?_eq_some_iff, toJson_eq_tree]
  have haccepts : (∃ t, ofJson? json = some t) ↔ json.IsOverrides := by
    rw [Json.IsOverrides, ← Override.exists_ofJson?_iff]
    cases json with
    | object members =>
      rw [ofJson?, Override.ofJson?]
      cases Override.ofMembers? members <;> simp
    | null | bool | number | string | array => simp [ofJson?]
  refine ⟨haccepts, ?_, hread json, fun t ht => ⟨ht.wellFormed, (hread _ t).mpr rfl⟩⟩
  rw [← haccepts, Option.eq_none_iff_forall_ne_some, not_exists]

/-- An empty tree is not lost inside another one. -/
theorem ofJson?_exact_nested :
    (Override.tree ((empty.withTree "tags" empty).withSpec "name" "string[3]")).WellFormed ∧
      ofJson? (.object [("name", .string "string[3]"), ("tags", .object [])])
        = some ((empty.withTree "tags" empty).withSpec "name" "string[3]") :=
  (ofJson?_exact .null).2.2.2 _ (.withSpec _ _ (.withTree _ .empty .empty))

end Overrides

end Specimen

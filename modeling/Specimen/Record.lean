/-!
# Records

A record maps names to values.  It is kept as a list of entries in increasing order
of their names, which is the order of code points, so that equal records are equal
lists and every walk over a record is in name order.

The trees of this library nest records inside themselves, which needs a plain list
in their declarations; the functions here work on such lists.

## Main definitions

* `Record.Sorted` — the names are strictly increasing.
* `Record.get? name entries` — the value under a name.
* `Record.insert name value entries` — adds an entry, replacing one of that name.
* `Record.ofList pairs` — the record of the given pairs, where the last one of a name
  counts.

## Main statements

* `Record.get?_insert` — looking up after an insertion.
* `Record.sorted_insert`, `Record.sorted_ofList` — the order is kept.
-/

namespace Specimen.Record

variable {α : Type}

/-- The names of the entries are strictly increasing. -/
def Sorted (entries : List (String × α)) : Prop :=
  entries.Pairwise fun a b => a.1 < b.1

/-- The names of the entries. -/
def names (entries : List (String × α)) : List String := entries.map (·.1)

/-- The value under the name, if there is one. -/
def get? (name : String) : List (String × α) → Option α
  | [] => none
  | (key, value) :: rest => if key = name then some value else get? name rest

/-- An entry with the name exists. -/
def contains (name : String) (entries : List (String × α)) : Bool :=
  (get? name entries).isSome

/-- Adds an entry at its place; an entry of the same name is replaced. -/
def insert (name : String) (value : α) : List (String × α) → List (String × α)
  | [] => [(name, value)]
  | (key, old) :: rest =>
    if name < key then (name, value) :: (key, old) :: rest
    else if key = name then (name, value) :: rest
    else (key, old) :: insert name value rest

/-- The record of the given pairs.  Of several pairs with one name the last counts. -/
def ofList (pairs : List (String × α)) : List (String × α) :=
  pairs.foldl (fun entries pair => insert pair.1 pair.2 entries) []

/-! ### Lookup -/

@[simp] theorem get?_nil (name : String) : get? name ([] : List (String × α)) = none := rfl

theorem get?_cons (name key : String) (value : α) (rest : List (String × α)) :
    get? name ((key, value) :: rest) = if key = name then some value else get? name rest := rfl

@[simp] theorem get?_cons_self (name : String) (value : α) (rest : List (String × α)) :
    get? name ((name, value) :: rest) = some value := by
  simp [get?_cons]

@[simp] theorem insert_nil (name : String) (value : α) :
    insert name value [] = [(name, value)] := rfl

/-- An insertion is seen under its own name and nowhere else. -/
theorem get?_insert (name other : String) (value : α) (entries : List (String × α)) :
    get? other (insert name value entries)
      = if name = other then some value else get? other entries := by
  induction entries with
  | nil => rfl
  | cons entry rest ih =>
    obtain ⟨key, old⟩ := entry
    simp only [insert]
    split
    · rfl
    · split
      · rename_i h
        subst h
        by_cases h' : key = other <;> simp [get?_cons, h']
      · rename_i h
        rw [get?_cons, ih, get?_cons]
        by_cases h' : key = other
        · subst h'
          simp [Ne.symm h]
        · simp [h']

/-! ### Order -/

/-- An inserted entry is the new one or an old one. -/
theorem mem_insert {name : String} {value : α} {entries : List (String × α)}
    {entry : String × α} (h : entry ∈ insert name value entries) :
    entry = (name, value) ∨ entry ∈ entries := by
  induction entries with
  | nil => exact Or.inl (List.mem_singleton.mp h)
  | cons head rest ih =>
    obtain ⟨key, old⟩ := head
    simp only [insert] at h
    split at h
    · exact List.mem_cons.mp h
    · split at h
      · rcases List.mem_cons.mp h with h | h
        · exact Or.inl h
        · exact Or.inr (List.mem_cons_of_mem _ h)
      · rcases List.mem_cons.mp h with h | h
        · exact Or.inr (h ▸ List.mem_cons_self ..)
        · exact (ih h).imp id (List.mem_cons_of_mem _)

/-- Insertion keeps the order. -/
theorem sorted_insert (name : String) (value : α) {entries : List (String × α)}
    (h : Sorted entries) : Sorted (insert name value entries) := by
  induction entries with
  | nil => exact List.pairwise_singleton _ _
  | cons head rest ih =>
    obtain ⟨key, old⟩ := head
    obtain ⟨hkey, hrest⟩ := List.pairwise_cons.mp h
    simp only [insert]
    split
    · rename_i hlt
      refine List.pairwise_cons.mpr ⟨fun entry hentry => ?_, h⟩
      rcases List.mem_cons.mp hentry with rfl | hentry
      · exact hlt
      · exact String.lt_trans hlt (hkey entry hentry)
    · split
      · rename_i heq
        exact List.pairwise_cons.mpr ⟨fun entry hentry => heq ▸ hkey entry hentry, hrest⟩
      · rename_i hge hne
        refine List.pairwise_cons.mpr ⟨fun entry hentry => ?_, ih hrest⟩
        rcases mem_insert hentry with rfl | hentry
        · rcases Std.lt_trichotomy name key with hlt | heq | hgt
          · exact absurd hlt hge
          · exact absurd heq.symm hne
          · exact hgt
        · exact hkey entry hentry

/-- The record of a list of pairs is in order. -/
theorem sorted_ofList (pairs : List (String × α)) : Sorted (ofList pairs) := by
  suffices h : ∀ entries : List (String × α), Sorted entries →
      Sorted (pairs.foldl (fun entries pair => insert pair.1 pair.2 entries) entries) from
    h [] List.Pairwise.nil
  induction pairs with
  | nil => exact fun _ h => h
  | cons pair pairs ih => exact fun entries h => ih _ (sorted_insert _ _ h)

end Specimen.Record

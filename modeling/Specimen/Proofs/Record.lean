import Specimen.Record

/-!
# Entries of records

How looking up, the names and the entries of a record belong together.  Looking up gives an
entry of the list; the converse needs that the names are in order, for then no name occurs
twice.  Dropping an entry, or changing it in its place, is seen under its own name only.

## Main definitions

* `Record.erase name entries` — the record without the entry under a name.
* `Record.modify name f entries` — the record with that entry changed by `f`.
* `Record.before key entries`, `Record.since key entries` — the record, cut at a name.

## Main statements

* `Record.mem_of_get?`, `Record.mem_names_of_get?` — what is looked up is there.
* `Record.get?_of_mem`, `Record.eq_of_mem` — what is there is looked up, if the record is in
  order.
* `Record.get?_erase`, `Record.get?_modify` — looking up after a change.
* `Record.before_append_since`, `Record.before_congr` — the part before a name, and what it
  depends on.
-/

namespace Specimen.Record

variable {α : Type} {name : String} {value : α} {entries : List (String × α)}

theorem mem_of_get? (h : get? name entries = some value) : (name, value) ∈ entries := by
  induction entries with
  | nil => cases h
  | cons entry rest ih =>
    obtain ⟨key, other⟩ := entry
    rw [get?_cons] at h
    split at h
    · next hkey =>
      cases h
      rw [hkey]
      exact List.mem_cons_self
    · exact List.mem_cons_of_mem _ (ih h)

theorem mem_names_of_mem (h : (name, value) ∈ entries) : name ∈ names entries :=
  List.mem_map.mpr ⟨(name, value), h, rfl⟩

theorem exists_of_mem_names (h : name ∈ names entries) : ∃ value, (name, value) ∈ entries := by
  obtain ⟨⟨key, value⟩, hmem, rfl⟩ := List.mem_map.mp h
  exact ⟨value, hmem⟩

theorem mem_names_of_get? (h : get? name entries = some value) : name ∈ names entries :=
  mem_names_of_mem (mem_of_get? h)

/-- In a record that is in order the entry under a name is the only one. -/
theorem get?_of_mem (hsorted : Sorted entries) (hmem : (name, value) ∈ entries) :
    get? name entries = some value := by
  induction entries with
  | nil => cases hmem
  | cons entry rest ih =>
    obtain ⟨key, other⟩ := entry
    obtain ⟨hkey, hrest⟩ := List.pairwise_cons.mp hsorted
    rw [get?_cons]
    rcases List.mem_cons.mp hmem with heq | hmem
    · cases heq
      exact if_pos rfl
    · have hne : key ≠ name := by
        rintro rfl
        exact String.lt_irrefl key (hkey (key, value) hmem)
      rw [if_neg hne]
      exact ih hrest hmem

theorem eq_of_mem {other : α} (hsorted : Sorted entries) (hget : get? name entries = some value)
    (hmem : (name, other) ∈ entries) : other = value := by
  have hother := get?_of_mem hsorted hmem
  rw [hget] at hother
  exact (Option.some.inj hother).symm

/-- In a record that is in order no later entry has the name of the first one. -/
theorem get?_eq_none_of_sorted (h : Sorted ((name, value) :: entries)) :
    get? name entries = none := by
  refine Option.eq_none_iff_forall_not_mem.mpr fun other hget => ?_
  have hlt := (List.pairwise_cons.mp h).1 _ (mem_of_get? hget)
  exact String.lt_irrefl name hlt

/-- A search among the names does not see an insertion whose name it does not look for. -/
theorem find?_names_insert {p : String → Bool} (hname : p name = false) (value : α)
    (entries : List (String × α)) :
    (names (insert name value entries)).find? p = (names entries).find? p := by
  rw [names, names]
  induction entries with
  | nil => simp [hname]
  | cons entry rest ih =>
    obtain ⟨key, old⟩ := entry
    rw [insert]
    split
    · rw [List.map_cons, List.find?_cons_of_neg (by simp [hname])]
    · split
      · next hkey =>
        subst hkey
        rfl
      · rw [List.map_cons, List.map_cons, List.find?_cons, List.find?_cons, ih]

/-! ### Dropping and changing entries -/

/-- The record without the entry under the name. -/
def erase (name : String) (entries : List (String × α)) : List (String × α) :=
  entries.filter fun entry => entry.1 ≠ name

/-- The record with the entry under the name changed, if there is one. -/
def modify (name : String) (f : α → α) (entries : List (String × α)) : List (String × α) :=
  entries.map fun entry => (entry.1, if entry.1 = name then f entry.2 else entry.2)

theorem erase_cons_self (name : String) (value : α) (rest : List (String × α)) :
    erase name ((name, value) :: rest) = erase name rest :=
  List.filter_cons_of_neg (by simp)

theorem erase_cons_of_ne {key : String} (h : key ≠ name) (value : α)
    (rest : List (String × α)) :
    erase name ((key, value) :: rest) = (key, value) :: erase name rest :=
  List.filter_cons_of_pos (by simpa using h)

theorem get?_erase (name other : String) (entries : List (String × α)) :
    get? other (erase name entries) = if name = other then none else get? other entries := by
  induction entries with
  | nil => simp [erase]
  | cons entry rest ih =>
    obtain ⟨key, value⟩ := entry
    by_cases hkey : key = name
    · subst hkey
      rw [erase_cons_self, ih, get?_cons]
      split <;> rfl
    · rw [erase_cons_of_ne hkey, get?_cons, get?_cons, ih]
      by_cases hother : key = other
      · subst hother
        simp [Ne.symm hkey]
      · simp [hother]

theorem contains_erase_of_ne {other : String} (h : name ≠ other) (entries : List (String × α)) :
    contains other (erase name entries) = contains other entries := by
  rw [contains, contains, get?_erase, if_neg h]

theorem names_erase (name : String) (entries : List (String × α)) :
    names (erase name entries) = (names entries).filter fun key => key ≠ name := by
  rw [names, names, erase, List.filter_map]
  rfl

theorem get?_modify (name other : String) (f : α → α) (entries : List (String × α)) :
    get? other (modify name f entries)
      = if name = other then (get? other entries).map f else get? other entries := by
  induction entries with
  | nil => simp [modify]
  | cons entry rest ih =>
    obtain ⟨key, value⟩ := entry
    rw [modify] at ih ⊢
    rw [List.map_cons, get?_cons, get?_cons, ih]
    by_cases hother : key = other
    · subst hother
      by_cases hkey : key = name
      · simp [hkey]
      · simp [hkey, Ne.symm hkey]
    · simp [hother]

theorem names_modify (name : String) (f : α → α) (entries : List (String × α)) :
    names (modify name f entries) = names entries := by
  rw [names, modify, List.map_map]
  rfl

theorem contains_modify (name other : String) (f : α → α) (entries : List (String × α)) :
    contains other (modify name f entries) = contains other entries := by
  rw [contains, contains, get?_modify]
  split
  · exact Option.isSome_map
  · rfl

/-- Changing an entry to itself changes nothing. -/
theorem modify_id (name : String) (entries : List (String × α)) :
    modify name id entries = entries := by
  simp [modify]

/-! ### Entries before a name -/

/-- The entries with names before the given one. -/
def before (key : String) (entries : List (String × α)) : List (String × α) :=
  entries.filter fun entry => entry.1 < key

/-- The entries with the other names. -/
def since (key : String) (entries : List (String × α)) : List (String × α) :=
  entries.filter fun entry => ¬ entry.1 < key

theorem sorted_before (key : String) (h : Sorted entries) : Sorted (before key entries) :=
  List.Pairwise.filter _ h

theorem Sorted.nodup (h : Sorted entries) : entries.Nodup := by
  refine List.Pairwise.imp ?_ h
  rintro entry _ hlt rfl
  exact String.lt_irrefl _ hlt

theorem mem_before_iff {key : String} (hsorted : Sorted entries) :
    (name, value) ∈ before key entries ↔ name < key ∧ get? name entries = some value := by
  rw [before, List.mem_filter, decide_eq_true_iff, and_comm]
  exact and_congr_right fun _ => ⟨get?_of_mem hsorted, mem_of_get?⟩

theorem get?_append (name : String) (entries more : List (String × α)) :
    get? name (entries ++ more) = (get? name entries).or (get? name more) := by
  induction entries with
  | nil => rfl
  | cons entry rest ih =>
    obtain ⟨key, value⟩ := entry
    rw [List.cons_append, get?_cons, get?_cons, ih]
    split <;> rfl

/-- A record that is in order can be cut at a name. -/
theorem before_append_since (key : String) (h : Sorted entries) :
    before key entries ++ since key entries = entries := by
  induction entries with
  | nil => rfl
  | cons entry rest ih =>
    obtain ⟨hentry, hrest⟩ := List.pairwise_cons.mp h
    by_cases hlt : entry.1 < key
    · rw [before, since, List.filter_cons_of_pos (by simpa using hlt),
        List.filter_cons_of_neg (by simpa using hlt), List.cons_append]
      exact congrArg (entry :: ·) (ih hrest)
    · -- once the name is reached, no entry lies before it any more
      have hlater : ∀ other ∈ entry :: rest, ¬ other.1 < key := by
        intro other hmem hother
        rcases List.mem_cons.mp hmem with rfl | hmem
        · exact hlt hother
        · exact hlt (String.lt_trans (hentry other hmem) hother)
      rw [before, since, List.filter_eq_nil_iff.mpr (by simpa using hlater),
        List.filter_eq_self.mpr (by simpa using hlater), List.nil_append]

/-- Records in which the same is found before a name have the same entries before it. -/
theorem before_congr {key : String} {other : List (String × α)} (hsorted : Sorted entries)
    (hother : Sorted other)
    (h : ∀ name, name < key → get? name entries = get? name other) :
    before key entries = before key other := by
  have hmem : ∀ entry, entry ∈ before key entries ↔ entry ∈ before key other := by
    rintro ⟨name, value⟩
    rw [mem_before_iff hsorted, mem_before_iff hother]
    exact and_congr_right fun hname => by rw [h name hname]
  have hperm := (List.perm_ext_iff_of_nodup (sorted_before key hsorted).nodup
    (sorted_before key hother).nodup).mpr hmem
  refine hperm.eq_of_pairwise ?_ (sorted_before key hsorted) (sorted_before key hother)
  intro _ _ _ _ hlt hgt
  exact (String.lt_irrefl _ (String.lt_trans hlt hgt)).elim

end Specimen.Record

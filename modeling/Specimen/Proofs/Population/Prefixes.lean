import Specimen.Proofs.Population.Conformance
import Specimen.Proofs.Population.Locality
import Specimen.Proofs.Text.ByteOrder
import Specimen.Random.Script

/-!
# Earlier fields

The fields of an object are populated in the order of their names.  What is made of the fields
before a name, and how much is drawn for them, depends on those fields and on the overrides for
them alone.  Two templates that are the same before a name therefore have specimens that are the
same before it, whatever comes later in the one and in the other.

## Main statements

* `exists_populateFields_before` — population of an object passes every name on its way.
* `populateFields_before_congr` — it does so in the same way for objects that are the same before
  the name.
* `create_agrees_before` — so their specimens agree before it, in the order of bytes.
-/

namespace Specimen

open Specimen.Random (Source)

section

variable {σ : Type} [Source σ] {o : Options} {path : FieldPath} {tree tree' : Option Overrides}
  {fields fields' made : List (String × Value)} {s t : σ} {key : String}

/-- Nothing is made under a name that no field has. -/
theorem get?_eq_none_of_populateFields (h : populateFields o path tree fields s = .ok made t)
    {name : String} (hname : name ∉ Record.names fields) : Record.get? name made = none := by
  refine Option.eq_none_iff_forall_not_mem.mpr fun value hvalue => hname ?_
  have hconform := populate_conforms.2 path tree fields s t made h
  exact ((hconform.names name).mp (Record.mem_names_of_get? hvalue)).1

/-- **Population of an object passes every name on its way.**  Where it does, the fields before the
name have been made, and what has been made of them stays. -/
theorem exists_populateFields_before (hsorted : Record.Sorted fields)
    (h : populateFields o path tree fields s = .ok made t) (key : String) :
    ∃ earlier u, populateFields o path tree (Record.before key fields) s = .ok earlier u ∧
      ∀ name, name < key → Record.get? name made = Record.get? name earlier := by
  rw [← Record.before_append_since key hsorted, populateFields_append] at h
  obtain ⟨earlier, u, hearlier, hmap⟩ := Generation.bind_eq_ok.mp h
  obtain ⟨later, hlater, rfl⟩ := Generation.map_eq_ok.mp hmap
  refine ⟨earlier, u, hearlier, fun name hname => ?_⟩
  have hnone : Record.get? name later = none := by
    refine get?_eq_none_of_populateFields hlater fun hmem => ?_
    obtain ⟨value, hvalue⟩ := Record.exists_of_mem_names hmem
    rw [Record.since, List.mem_filter, decide_eq_true_iff] at hvalue
    exact hvalue.2 hname
  rw [Record.get?_append, hnone, Option.or_none]

/-- Objects that are the same before a name are populated alike before it. -/
theorem populateFields_before_congr (hsorted : Record.Sorted fields)
    (hsorted' : Record.Sorted fields')
    (hfields : ∀ name, name < key → Record.get? name fields = Record.get? name fields')
    (hentries : ∀ name, name < key → Record.contains name fields = true →
      tree.bind (Record.get? name) = tree'.bind (Record.get? name)) :
    (populateFields o path tree (Record.before key fields) :
      Generation σ (List (String × Value))) =
      populateFields o path tree' (Record.before key fields') := by
  rw [← Record.before_congr hsorted hsorted' hfields]
  refine populateFields_tree_congr fun name value hmem => ?_
  obtain ⟨hname, hvalue⟩ := (Record.mem_before_iff hsorted).mp hmem
  rw [hentries name hname (by rw [Record.contains, hvalue]; rfl)]

/-- A specimen of an object has the specimens of its fields. -/
theorem exists_populateFields_of_create {overrides : Option Overrides} {specimen : Value}
    (h : create o (.object fields) overrides s = .ok specimen t) :
    ∃ made, specimen = .object made ∧
      populateFields o .root overrides fields s = .ok made t := by
  rw [create_object, populateObject] at h
  obtain ⟨-, -, hmap⟩ := Generation.ofExcept_bind_eq_ok.mp h
  obtain ⟨made, hmade, rfl⟩ := Generation.map_eq_ok.mp hmap
  exact ⟨made, rfl, hmade⟩

/-- **Later fields do not disturb earlier ones.**  If two objects have the same fields before a
name, in the order of bytes, and the same overrides for those fields, then the specimens that are
made of them from the same state are the same before that name. -/
theorem create_agrees_before (key : String) {overrides overrides' : Option Overrides}
    {specimen specimen' : Value} {t' : σ} (hsorted : Record.Sorted fields)
    (hsorted' : Record.Sorted fields')
    (hfields : ∀ name, Text.bytes name < Text.bytes key →
      Record.get? name fields = Record.get? name fields')
    (hentries : ∀ name, Text.bytes name < Text.bytes key → Record.contains name fields = true →
      overrides.bind (Record.get? name) = overrides'.bind (Record.get? name))
    (h : create o (.object fields) overrides s = .ok specimen t)
    (h' : create o (.object fields') overrides' s = .ok specimen' t') :
    ∃ made made', specimen = .object made ∧ specimen' = .object made' ∧
      ∀ name, Text.bytes name < Text.bytes key →
        Record.get? name made = Record.get? name made' := by
  simp only [Text.bytes_lt_bytes_iff] at hfields hentries ⊢
  obtain ⟨made, rfl, hmade⟩ := exists_populateFields_of_create h
  obtain ⟨made', rfl, hmade'⟩ := exists_populateFields_of_create h'
  refine ⟨made, made', rfl, rfl, fun name hname => ?_⟩
  obtain ⟨earlier, u, hearlier, hget⟩ := exists_populateFields_before hsorted hmade key
  obtain ⟨earlier', u', hearlier', hget'⟩ := exists_populateFields_before hsorted' hmade' key
  -- both runs pass the name with the same specimens, and in the same state
  rw [populateFields_before_congr hsorted hsorted' hfields hentries, hearlier'] at hearlier
  cases hearlier
  rw [hget name hname, hget' name hname]

end

set_option maxRecDepth 1024 in
/-- Behind the same two fields, the second of which is left out, one object has a field that is
left out too and the other one has an array. -/
theorem create_agrees_before_hats :
    create .default (.object [("age", .integer 1), ("fur", .bool true), ("hats", .null)])
        (some [("age", .spec "integer < 5"), ("fur", .spec "skip"), ("hats", .spec "skip")])
        (Random.Script.ofWords [0, 0, 0, 0] 0) =
      .ok (.object [("age", .integer (-995))]) ⟨[0, 0, 0], 0, 1⟩ ∧
    create .default
        (.object [("age", .integer 1), ("fur", .bool true), ("legs", .array [.bool true])])
        (some [("age", .spec "integer < 5"), ("fur", .spec "skip")])
        (Random.Script.ofWords [0, 0, 0, 0] 0) =
      .ok (.object [("age", .integer (-995)),
        ("legs", .array [.bool true, .bool true, .bool true])]) ⟨[], 0, 4⟩ ∧
    ∀ name, Text.bytes name < Text.bytes "g" →
      Record.get? name [("age", Value.integer (-995))] =
        Record.get? name [("age", .integer (-995)),
          ("legs", .array [.bool true, .bool true, .bool true])] := by
  have hats : create .default (.object [("age", .integer 1), ("fur", .bool true), ("hats", .null)])
      (some [("age", .spec "integer < 5"), ("fur", .spec "skip"), ("hats", .spec "skip")])
      (Random.Script.ofWords [0, 0, 0, 0] 0) =
    .ok (.object [("age", .integer (-995))]) ⟨[0, 0, 0], 0, 1⟩ := by
    with_unfolding_all rfl
  have legs : create .default
      (.object [("age", .integer 1), ("fur", .bool true), ("legs", .array [.bool true])])
      (some [("age", .spec "integer < 5"), ("fur", .spec "skip")])
      (Random.Script.ofWords [0, 0, 0, 0] 0) =
    .ok (.object [("age", .integer (-995)),
      ("legs", .array [.bool true, .bool true, .bool true])]) ⟨[], 0, 4⟩ := by
    with_unfolding_all rfl
  have hlater : ∀ name, Text.bytes name < Text.bytes "g" → "hats" ≠ name ∧ "legs" ≠ name := by
    intro name hname
    rw [Text.bytes_lt_bytes_iff] at hname
    constructor <;> rintro rfl <;> exact absurd hname (by decide)
  obtain ⟨made, made', hmade, hmade', hagree⟩ := create_agrees_before "g"
    (by unfold Record.Sorted; decide) (by unfold Record.Sorted; decide)
    (fun name hname => by simp [Record.get?_cons, hlater name hname])
    (fun name hname _ => by simp [Record.get?_cons, hlater name hname]) hats legs
  cases hmade
  cases hmade'
  exact ⟨hats, legs, hagree⟩

end Specimen

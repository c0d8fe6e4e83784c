import Specimen.Proofs.Date.Text
import Specimen.Value.Json

/-!
# Values that survive JSON

A value is faithful if it is the same after it was written to JSON and read again.  Arrays
and objects are written item by item and field by field, so a tree is faithful when its
leaves are.  A leaf is lost in one of three ways: a decimal that is not finite has no JSON
form, a text that looks like a date is read as one, and a date may not be recognised in its
written form.

## Main definitions

* `Value.leaves v` — the leaves of a tree.
* `Value.Leafwise P` — a property that a tree has when its leaves have it.
* `Value.Faithful v` — the value is the same after writing and reading.

## Main statements

* `Leafwise.iff_leaves` — such a property is one of the leaves alone.
* `leafwise_faithful` — being faithful is.
* `faithful_decimal_iff`, `faithful_text_iff`, `faithful_date_iff` — which leaves are faithful.
-/

namespace Specimen.Value

/-! ### Leaves -/

mutual

/-- The leaves of a tree, in their order. -/
def leaves : Value → List Value
  | .array items => leavesOfItems items
  | .object fields => leavesOfFields fields
  | leaf => [leaf]

/-- The leaves of the items of an array. -/
def leavesOfItems : List Value → List Value
  | [] => []
  | item :: items => item.leaves ++ leavesOfItems items

/-- The leaves of the fields of an object. -/
def leavesOfFields : List (String × Value) → List Value
  | [] => []
  | (_, value) :: fields => value.leaves ++ leavesOfFields fields

end

theorem mem_leavesOfItems {items : List Value} {leaf : Value} :
    leaf ∈ leavesOfItems items ↔ ∃ item ∈ items, leaf ∈ item.leaves := by
  induction items with
  | nil => simp [leavesOfItems]
  | cons item items ih => simp [leavesOfItems, ih]

theorem forall_mem_fields_cons {P : Value → Prop} {name : String} {value : Value}
    {fields : List (String × Value)} :
    (∀ other value', (other, value') ∈ (name, value) :: fields → P value') ↔
      P value ∧ ∀ other value', (other, value') ∈ fields → P value' := by
  simp [or_imp, forall_and]

/-- A tree has the property when the trees right below it have. -/
structure Leafwise (P : Value → Prop) : Prop where
  array : ∀ items, P (.array items) ↔ ∀ item ∈ items, P item
  object : ∀ fields, P (.object fields) ↔ ∀ name value, (name, value) ∈ fields → P value

section

variable {P : Value → Prop}

mutual

/-- **A leafwise property is one of the leaves alone.** -/
theorem Leafwise.iff_leaves (h : Leafwise P) : ∀ v : Value, P v ↔ ∀ leaf ∈ v.leaves, P leaf
  | .array items => (h.array items).trans (h.items_iff_leaves items)
  | .object fields => (h.object fields).trans (h.fields_iff_leaves fields)
  | .null | .bool _ | .integer _ | .decimal _ | .text _ | .date _ => by simp [leaves]

theorem Leafwise.items_iff_leaves (h : Leafwise P) : ∀ items : List Value,
    (∀ item ∈ items, P item) ↔ ∀ leaf ∈ leavesOfItems items, P leaf
  | [] => by simp [leavesOfItems]
  | item :: items => by
    rw [List.forall_mem_cons, h.iff_leaves item, h.items_iff_leaves items, leavesOfItems,
      List.forall_mem_append]

theorem Leafwise.fields_iff_leaves (h : Leafwise P) : ∀ fields : List (String × Value),
    (∀ name value, (name, value) ∈ fields → P value) ↔ ∀ leaf ∈ leavesOfFields fields, P leaf
  | [] => by simp [leavesOfFields]
  | (name, value) :: fields => by
    rw [forall_mem_fields_cons, h.iff_leaves value, h.fields_iff_leaves fields, leavesOfFields,
      List.forall_mem_append]

end

end

/-! ### Faithful values -/

/-- Written to JSON and read again, the value is the same. -/
def Faithful (v : Value) : Prop := ∃ json, v.toJson = .ok json ∧ ofJson json = v

theorem toItems_cons_eq_ok {item : Value} {items : List Value} {jsons : List Json} :
    toItems (item :: items) = .ok jsons ↔
      ∃ json rest, item.toJson = .ok json ∧ toItems items = .ok rest ∧ jsons = json :: rest := by
  rw [toItems]
  cases item.toJson with
  | error e => simp [bind, Except.bind]
  | ok json =>
    cases toItems items with
    | error e => simp [bind, Except.bind]
    | ok rest => simp [bind, Except.bind, pure, Except.pure, eq_comm]

theorem toMembers_cons_eq_ok {name : String} {value : Value} {fields : List (String × Value)}
    {members : List (String × Json)} :
    toMembers ((name, value) :: fields) = .ok members ↔
      ∃ json rest, value.toJson = .ok json ∧ toMembers fields = .ok rest ∧
        members = (name, json) :: rest := by
  rw [toMembers]
  cases value.toJson with
  | error e => simp [bind, Except.bind]
  | ok json =>
    cases toMembers fields with
    | error e => simp [bind, Except.bind]
    | ok rest => simp [bind, Except.bind, pure, Except.pure, eq_comm]

/-- Items survive JSON together when each of them does. -/
theorem faithful_items_iff (items : List Value) :
    (∃ jsons, toItems items = .ok jsons ∧ ofItems jsons = items) ↔
      ∀ item ∈ items, item.Faithful := by
  induction items with
  | nil => simp [toItems, ofItems]
  | cons item items ih =>
    rw [List.forall_mem_cons, ← ih]
    constructor
    · rintro ⟨_, h, heq⟩
      obtain ⟨json, rest, hjson, hrest, rfl⟩ := toItems_cons_eq_ok.mp h
      rw [ofItems] at heq
      obtain ⟨hitem, hitems⟩ := List.cons.inj heq
      exact ⟨⟨json, hjson, hitem⟩, rest, hrest, hitems⟩
    · rintro ⟨⟨json, hjson, hitem⟩, rest, hrest, hitems⟩
      refine ⟨json :: rest, toItems_cons_eq_ok.mpr ⟨json, rest, hjson, hrest, rfl⟩, ?_⟩
      rw [ofItems, hitem, hitems]

/-- Fields survive JSON together when the value of each of them does. -/
theorem faithful_fields_iff (fields : List (String × Value)) :
    (∃ members, toMembers fields = .ok members ∧ ofMembers members = fields) ↔
      ∀ name value, (name, value) ∈ fields → value.Faithful := by
  induction fields with
  | nil => simp [toMembers, ofMembers]
  | cons field fields ih =>
    obtain ⟨name, value⟩ := field
    rw [forall_mem_fields_cons, ← ih]
    constructor
    · rintro ⟨_, h, heq⟩
      obtain ⟨json, rest, hjson, hrest, rfl⟩ := toMembers_cons_eq_ok.mp h
      rw [ofMembers] at heq
      obtain ⟨hfield, hfields⟩ := List.cons.inj heq
      exact ⟨⟨json, hjson, (Prod.mk.inj hfield).2⟩, rest, hrest, hfields⟩
    · rintro ⟨⟨json, hjson, hvalue⟩, rest, hrest, hfields⟩
      refine ⟨(name, json) :: rest, toMembers_cons_eq_ok.mpr ⟨json, rest, hjson, hrest, rfl⟩, ?_⟩
      rw [ofMembers, hvalue, hfields]

theorem faithful_array_iff (items : List Value) :
    (array items).Faithful ↔ ∀ item ∈ items, item.Faithful := by
  rw [← faithful_items_iff, Faithful, toJson]
  cases toItems items <;> simp [Except.map, ofJson]

theorem faithful_object_iff (fields : List (String × Value)) :
    (object fields).Faithful ↔ ∀ name value, (name, value) ∈ fields → value.Faithful := by
  rw [← faithful_fields_iff, Faithful, toJson]
  cases toMembers fields <;> simp [Except.map, ofJson]

/-- **Whether a tree is faithful is a matter of its leaves.** -/
theorem leafwise_faithful : Leafwise Faithful := ⟨faithful_array_iff, faithful_object_iff⟩

/-! ### Faithful leaves -/

theorem faithful_null : null.Faithful := ⟨.null, toJson_null, ofJson_null⟩

theorem faithful_bool (b : Bool) : (bool b).Faithful := ⟨.bool b, by rw [toJson], by rw [ofJson]⟩

/-- An integer fits into JSON, and is told from the decimals there. -/
theorem faithful_integer (n : Int64) : (integer n).Faithful := by
  refine ⟨.number (.ofInt64 n), by rw [toJson], ?_⟩
  rw [ofJson, Json.Number.ofInt64, ofNumber, if_pos n.toInt_lt, Int64.ofInt_toInt]

/-- A decimal has a JSON form if it is finite. -/
theorem faithful_decimal_iff (x : Binary64) : (decimal x).Faithful ↔ x.isFinite = true := by
  rw [Faithful, toJson, Json.Number.ofBinary64?]
  split
  · next n hn =>
    split at hn
    · next h =>
      cases hn
      simp [ofJson, ofNumber, h]
    · cases hn
  · next hn =>
    split at hn
    · cases hn
    · next h => simp [h]

/-- A text is read as one unless it is recognised as a date. -/
theorem faithful_text_iff (s : String) : (text s).Faithful ↔ Date.ofText? s = none := by
  rw [Faithful, toJson]
  cases h : Date.ofText? s <;> simp [ofJson, ofString, h]

/-- A date has to be recognised in its written form. -/
theorem faithful_date_iff (d : Date) : (date d).Faithful ↔ Date.ofText? d.text = some d := by
  rw [Faithful, toJson]
  cases h : Date.ofText? d.text <;> simp [ofJson, ofString, h]

end Specimen.Value

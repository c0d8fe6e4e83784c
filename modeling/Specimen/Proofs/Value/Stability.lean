import Specimen.Proofs.Binary64.Nearest
import Specimen.Proofs.Population.Walk
import Specimen.Proofs.Value.Faithful

/-!
# Writing and reading again

A value has a JSON form if its decimals are finite, and the form is read as the same value if
its dates have years of four digits and none of its texts is one that is recognised as a date.
Both are matters of the leaves.

What was read from JSON has finite decimals and no text that is recognised as a date, so it can
be written, and it is the same again if its dates have years of four digits.  Dates with other
years do occur: a year with a sign, in front of a month and a day of one digit each, fits into
ten bytes.  Such a date is written with more bytes than it was read from, and the second reading
takes it for a text.  From then on nothing changes any more.

## Main definitions

* `Value.Read leaf` — the leaf may have been read from JSON.

## Main statements

* `exists_toJson_iff`, `toJson_eq_error` — when a value can be written, and how it fails to.
* `faithful_iff` — when it is the same after writing and reading.
* `toJson_ofJson_exact` — writing and reading, exactly.
* `ofJson_toJson_ofJson_iff` — reading, writing and reading again.
-/

namespace Specimen.Value

/-! ### Leaves -/

mutual

theorem isLeaf_of_mem_leaves : ∀ (v : Value) {leaf : Value}, leaf ∈ v.leaves → leaf.IsLeaf
  | .array items, _, h => by
    rw [leaves] at h
    exact isLeaf_of_mem_leavesOfItems items h
  | .object fields, _, h => by
    rw [leaves] at h
    exact isLeaf_of_mem_leavesOfFields fields h
  | .null, _, h | .bool _, _, h | .integer _, _, h | .decimal _, _, h | .text _, _, h
  | .date _, _, h => by
    simp only [leaves, List.mem_singleton] at h
    subst h
    trivial

theorem isLeaf_of_mem_leavesOfItems : ∀ (items : List Value) {leaf : Value},
    leaf ∈ leavesOfItems items → leaf.IsLeaf
  | [], _, h => by
    rw [leavesOfItems] at h
    cases h
  | item :: items, _, h => by
    rw [leavesOfItems] at h
    exact (List.mem_append.mp h).elim (isLeaf_of_mem_leaves item)
      (isLeaf_of_mem_leavesOfItems items)

theorem isLeaf_of_mem_leavesOfFields : ∀ (fields : List (String × Value)) {leaf : Value},
    leaf ∈ leavesOfFields fields → leaf.IsLeaf
  | [], _, h => by
    rw [leavesOfFields] at h
    cases h
  | (_, value) :: fields, _, h => by
    rw [leavesOfFields] at h
    exact (List.mem_append.mp h).elim (isLeaf_of_mem_leaves value)
      (isLeaf_of_mem_leavesOfFields fields)

end

/-- A leafwise property is judged by any property that is the same for leaves. -/
theorem Leafwise.iff_forall_leaves {P Q : Value → Prop} (h : Leafwise P)
    (hleaf : ∀ leaf : Value, leaf.IsLeaf → (P leaf ↔ Q leaf)) (v : Value) :
    P v ↔ ∀ leaf ∈ v.leaves, Q leaf :=
  (h.iff_leaves v).trans
    (forall₂_congr fun leaf hmem => hleaf leaf (isLeaf_of_mem_leaves v hmem))

/-! ### Writing and reading -/

section Rewritten

variable {R : Value → Prop}

theorem rewritten_items_iff (items : List Value) :
    (∃ jsons, toItems items = .ok jsons ∧ ∀ item ∈ ofItems jsons, R item) ↔
      ∀ item ∈ items, ∃ json, item.toJson = .ok json ∧ R (ofJson json) := by
  induction items with
  | nil => simp [toItems, ofItems]
  | cons item items ih =>
    rw [List.forall_mem_cons, ← ih]
    constructor
    · rintro ⟨_, h, hR⟩
      obtain ⟨json, rest, hjson, hrest, rfl⟩ := toItems_cons_eq_ok.mp h
      rw [ofItems, List.forall_mem_cons] at hR
      exact ⟨⟨json, hjson, hR.1⟩, rest, hrest, hR.2⟩
    · rintro ⟨⟨json, hjson, hitem⟩, rest, hrest, hitems⟩
      refine ⟨json :: rest, toItems_cons_eq_ok.mpr ⟨json, rest, hjson, hrest, rfl⟩, ?_⟩
      rw [ofItems, List.forall_mem_cons]
      exact ⟨hitem, hitems⟩

theorem rewritten_fields_iff (fields : List (String × Value)) :
    (∃ members, toMembers fields = .ok members ∧
        ∀ name value, (name, value) ∈ ofMembers members → R value) ↔
      ∀ name value, (name, value) ∈ fields → ∃ json, value.toJson = .ok json ∧ R (ofJson json) := by
  induction fields with
  | nil => simp [toMembers, ofMembers]
  | cons field fields ih =>
    obtain ⟨name, value⟩ := field
    rw [forall_mem_fields_cons, ← ih]
    constructor
    · rintro ⟨_, h, hR⟩
      obtain ⟨json, rest, hjson, hrest, rfl⟩ := toMembers_cons_eq_ok.mp h
      rw [ofMembers, forall_mem_fields_cons] at hR
      exact ⟨⟨json, hjson, hR.1⟩, rest, hrest, hR.2⟩
    · rintro ⟨⟨json, hjson, hvalue⟩, rest, hrest, hfields⟩
      refine ⟨(name, json) :: rest, toMembers_cons_eq_ok.mpr ⟨json, rest, hjson, hrest, rfl⟩, ?_⟩
      rw [ofMembers, forall_mem_fields_cons]
      exact ⟨hvalue, hfields⟩

/-- **What holds of a tree after writing and reading is a matter of its leaves**, if it is one
of the leaves at all. -/
theorem Leafwise.rewritten (h : Leafwise R) :
    Leafwise fun v => ∃ json, v.toJson = .ok json ∧ R (ofJson json) where
  array items := by
    rw [← rewritten_items_iff, toJson]
    cases toItems items <;> simp [Except.map, ofJson, h.array]
  object fields := by
    rw [← rewritten_fields_iff, toJson]
    cases toMembers fields <;> simp [Except.map, ofJson, h.object]

end Rewritten

/-! ### Which values can be written -/

/-- **A value can be written exactly when its decimals are finite.** -/
theorem exists_toJson_iff (v : Value) :
    (∃ json, v.toJson = .ok json) ↔ ∀ x, .decimal x ∈ v.leaves → x.isFinite = true := by
  have hall : Leafwise fun _ => True := ⟨by simp, by simp⟩
  have hleaf : ∀ leaf : Value, leaf.IsLeaf → ((∃ json, leaf.toJson = .ok json ∧ True) ↔
      ∀ x, leaf = .decimal x → x.isFinite = true) := by
    intro leaf h
    cases leaf with
    | array items => exact h.elim
    | object fields => exact h.elim
    | decimal x =>
      cases hfinite : x.isFinite <;> simp [toJson, Json.Number.ofBinary64?, hfinite]
    | null | bool _ | integer _ | text _ | date _ => simp [toJson]
  have hleaves := hall.rewritten.iff_forall_leaves hleaf v
  simp only [and_true] at hleaves
  rw [hleaves]
  exact ⟨fun h x hmem => h _ hmem x rfl, fun h leaf hmem x heq => h x (heq ▸ hmem)⟩

private theorem except_bind_eq_error {α β : Type} {x : Except Error α} {f : α → Except Error β}
    {e : Error} (h : x >>= f = .error e) : x = .error e ∨ ∃ a, f a = .error e := by
  cases x with
  | error e' =>
    cases h
    exact Or.inl rfl
  | ok a => exact Or.inr ⟨a, h⟩

mutual

/-- A value that cannot be written has a number that is not finite. -/
theorem toJson_eq_error : ∀ {v : Value} {e : Error}, v.toJson = .error e → e = .nonFinite
  | .array items, e, h => by
    rw [toJson] at h
    cases hitems : toItems items with
    | ok jsons => rw [hitems] at h; cases h
    | error e' =>
      rw [hitems] at h
      cases h
      exact toItems_eq_error hitems
  | .object fields, e, h => by
    rw [toJson] at h
    cases hfields : toMembers fields with
    | ok members => rw [hfields] at h; cases h
    | error e' =>
      rw [hfields] at h
      cases h
      exact toMembers_eq_error hfields
  | .decimal x, e, h => by
    rw [toJson] at h
    split at h
    · cases h
    · cases h
      rfl
  | .null, _, h | .bool _, _, h | .integer _, _, h | .text _, _, h | .date _, _, h => by
    rw [toJson] at h
    cases h

theorem toItems_eq_error : ∀ {items : List Value} {e : Error},
    toItems items = .error e → e = .nonFinite
  | [], _, h => by
    rw [toItems] at h
    cases h
  | item :: items, e, h => by
    rw [toItems] at h
    rcases except_bind_eq_error h with hitem | ⟨json, h⟩
    · exact toJson_eq_error hitem
    · rcases except_bind_eq_error h with hitems | ⟨jsons, h⟩
      · exact toItems_eq_error hitems
      · cases h

theorem toMembers_eq_error : ∀ {fields : List (String × Value)} {e : Error},
    toMembers fields = .error e → e = .nonFinite
  | [], _, h => by
    rw [toMembers] at h
    cases h
  | (name, value) :: fields, e, h => by
    rw [toMembers] at h
    rcases except_bind_eq_error h with hvalue | ⟨json, h⟩
    · exact toJson_eq_error hvalue
    · rcases except_bind_eq_error h with hfields | ⟨members, h⟩
      · exact toMembers_eq_error hfields
      · cases h

end

/-! ### Which values are read as they were written -/

/-- **A value is the same after writing and reading exactly when** its decimals are finite, its
dates have years of four digits, and its texts are not recognised as dates. -/
theorem faithful_iff (v : Value) :
    v.Faithful ↔ (∀ x, .decimal x ∈ v.leaves → x.isFinite = true) ∧
      (∀ d, .date d ∈ v.leaves → 0 ≤ d.year ∧ d.year ≤ 9999) ∧
      ∀ s, .text s ∈ v.leaves → Date.ofText? s = none := by
  rw [leafwise_faithful.iff_leaves v]
  constructor
  · intro h
    exact ⟨fun x hmem => (faithful_decimal_iff x).mp (h _ hmem),
      fun d hmem => Date.ofText?_text_iff.mp ((faithful_date_iff d).mp (h _ hmem)),
      fun s hmem => (faithful_text_iff s).mp (h _ hmem)⟩
  · rintro ⟨hdecimal, hdate, htext⟩ leaf hmem
    have hleaf := isLeaf_of_mem_leaves v hmem
    cases leaf with
    | array items => exact hleaf.elim
    | object fields => exact hleaf.elim
    | null => exact faithful_null
    | bool b => exact faithful_bool b
    | integer n => exact faithful_integer n
    | decimal x => exact (faithful_decimal_iff x).mpr (hdecimal x hmem)
    | text s => exact (faithful_text_iff s).mpr (htext s hmem)
    | date d => exact (faithful_date_iff d).mpr (Date.ofText?_text (hdate d hmem))

/-- What a value is read as again depends on its one JSON form. -/
theorem faithful_iff_of_toJson {v : Value} {json : Json} (h : v.toJson = .ok json) :
    v.Faithful ↔ ofJson json = v := by
  rw [Faithful, h]
  simp

/-- **Writing and reading, exactly.**  A value can be written if its decimals are finite, and
otherwise one of them is what the failure is about.  When it is written, it is read as it was
if its dates have years of four digits and its texts are not recognised as dates, and only
then. -/
theorem toJson_ofJson_exact (v : Value) :
    ((∃ json, v.toJson = .ok json) ↔ ∀ x, .decimal x ∈ v.leaves → x.isFinite = true) ∧
      (v.toJson = .error .nonFinite ↔ ∃ x, .decimal x ∈ v.leaves ∧ x.isFinite = false) ∧
      ∀ json, v.toJson = .ok json →
        (ofJson json = v ↔ (∀ d, .date d ∈ v.leaves → 0 ≤ d.year ∧ d.year ≤ 9999) ∧
          ∀ s, .text s ∈ v.leaves → Date.ofText? s = none) := by
  have hwritten := exists_toJson_iff v
  refine ⟨hwritten, ?_, fun json hjson => ?_⟩
  · constructor
    · intro herror
      by_contra hfinite
      push Not at hfinite
      obtain ⟨json, hjson⟩ := hwritten.mpr fun x hmem => by simpa using hfinite x hmem
      rw [herror] at hjson
      cases hjson
    · rintro ⟨x, hmem, hfinite⟩
      cases hjson : v.toJson with
      | error e => rw [toJson_eq_error hjson]
      | ok json =>
        rw [hwritten.mp ⟨json, hjson⟩ x hmem] at hfinite
        cases hfinite
  · rw [← faithful_iff_of_toJson hjson, faithful_iff]
    exact and_iff_right (hwritten.mp ⟨json, hjson⟩)

/-- The year after the last one of four digits is written with a sign, and lost. -/
theorem toJson_ofJson_exact_far_year :
    ofJson (.object [("day", .string "+10000-01-01")]) ≠
      .object [("day", .date ⟨10000, 1, 1, by decide⟩)] := by
  intro h
  have hwritten : (object [("day", .date ⟨10000, 1, 1, by decide⟩)]).toJson =
      .ok (.object [("day", .string "+10000-01-01")]) := by with_unfolding_all rfl
  have hyears := (((toJson_ofJson_exact _).2.2 _ hwritten).mp h).1 ⟨10000, 1, 1, by decide⟩
    (by simp [leaves, leavesOfFields])
  exact absurd hyears.2 (by decide)

/-! ### What is read from JSON -/

/-- The leaf may have been read from JSON: a decimal is finite, and a text is not recognised as
a date. -/
def Read : Value → Prop
  | .decimal x => x.isFinite = true
  | .text s => Date.ofText? s = none
  | _ => True

/-- Every number that is read is an integer or finite. -/
theorem read_ofNumber (n : Json.Number) : ∀ leaf ∈ (ofNumber n).leaves, leaf.Read := by
  cases n with
  | real x hfinite => simpa [ofNumber, leaves, Read] using hfinite
  | integer n hfits =>
    rw [ofNumber]
    split
    · simp [leaves, Read]
    · have hfinite : (Binary64.ofInt n).isFinite = true :=
        Binary64.isFinite_ofInt (e := 64) (by decide) (by omega)
      simpa [leaves, Read] using hfinite

/-- A string that is recognised as a date is read as one, so the texts are the others. -/
theorem read_ofString (s : String) : ∀ leaf ∈ (ofString s).leaves, leaf.Read := by
  rw [ofString]
  split
  · simp [leaves, Read]
  · next hnone => simpa [leaves, Read] using hnone

mutual

/-- **The leaves of what is read from JSON.** -/
theorem read_ofJson : ∀ (json : Json), ∀ leaf ∈ (ofJson json).leaves, leaf.Read
  | .null | .bool _ => by simp [ofJson, leaves, Read]
  | .number n => by
    rw [ofJson]
    exact read_ofNumber n
  | .string s => by
    rw [ofJson]
    exact read_ofString s
  | .array items => by
    rw [ofJson, leaves]
    exact read_ofItems items
  | .object members => by
    rw [ofJson, leaves]
    exact read_ofMembers members

theorem read_ofItems : ∀ (items : List Json), ∀ leaf ∈ leavesOfItems (ofItems items), leaf.Read
  | [] => by simp [ofItems, leavesOfItems]
  | item :: items => by
    rw [ofItems, leavesOfItems, List.forall_mem_append]
    exact ⟨read_ofJson item, read_ofItems items⟩

theorem read_ofMembers : ∀ (members : List (String × Json)),
    ∀ leaf ∈ leavesOfFields (ofMembers members), leaf.Read
  | [] => by simp [ofMembers, leavesOfFields]
  | (_, value) :: members => by
    rw [ofMembers, leavesOfFields, List.forall_mem_append]
    exact ⟨read_ofJson value, read_ofMembers members⟩

end

/-- A leaf that was read is written and read again as one that stays the same from then on. -/
theorem Read.rewritten_faithful {leaf : Value} (h : leaf.Read) (hleaf : leaf.IsLeaf) :
    ∃ json, leaf.toJson = .ok json ∧ (ofJson json).Faithful := by
  have hstable : leaf.Faithful → ∃ json, leaf.toJson = .ok json ∧ (ofJson json).Faithful := by
    rintro ⟨json, hjson, heq⟩
    exact ⟨json, hjson, by rw [heq]; exact ⟨json, hjson, heq⟩⟩
  cases leaf with
  | array items => exact hleaf.elim
  | object fields => exact hleaf.elim
  | null => exact hstable faithful_null
  | bool b => exact hstable (faithful_bool b)
  | integer n => exact hstable (faithful_integer n)
  | decimal x => exact hstable ((faithful_decimal_iff x).mpr h)
  | text s => exact hstable ((faithful_text_iff s).mpr h)
  | date d =>
    by_cases hyear : 0 ≤ d.year ∧ d.year ≤ 9999
    · exact hstable ((faithful_date_iff d).mpr (Date.ofText?_text hyear))
    · -- the written form is too long for a date, and stays the text that it is read as
      have hnone := Date.ofText?_text_eq_none hyear
      refine ⟨.string d.text, by rw [toJson], ?_⟩
      rw [ofJson, ofString, hnone]
      exact (faithful_text_iff _).mpr hnone

/-- **Reading, writing and reading again.**  What was read from JSON can be written, and it is
read as the same value exactly when its dates have years of four digits.  In any case the second
reading is stable. -/
theorem ofJson_toJson_ofJson_iff (json : Json) :
    ∃ written, (ofJson json).toJson = .ok written ∧
      (ofJson written = ofJson json ↔
        ∀ d, .date d ∈ (ofJson json).leaves → 0 ≤ d.year ∧ d.year ≤ 9999) ∧
      ∃ rewritten, (ofJson written).toJson = .ok rewritten ∧ ofJson rewritten = ofJson written := by
  have hread := read_ofJson json
  obtain ⟨written, hwritten, hstable⟩ :=
    (leafwise_faithful.rewritten.iff_leaves (ofJson json)).mpr fun leaf hmem =>
      (hread leaf hmem).rewritten_faithful (isLeaf_of_mem_leaves _ hmem)
  refine ⟨written, hwritten, ?_, hstable⟩
  rw [← faithful_iff_of_toJson hwritten, faithful_iff]
  constructor
  · exact fun h => h.2.1
  · exact fun h => ⟨fun x hmem => hread _ hmem, h, fun s hmem => hread _ hmem⟩

/-- **A date that does not stay one.**  With a sign the year may have more than four digits, and
without zeros in front of month and day the text has ten bytes. -/
theorem ofJson_signed_year :
    ofJson (.string "+12345-1-1") = .date ⟨12345, 1, 1, by decide⟩ ∧
      (ofJson (.string "+12345-1-1")).toJson = .ok (.string "+12345-01-01") ∧
      ofJson (.string "+12345-01-01") = .text "+12345-01-01" ∧
      ofJson (.string "+12345-01-01") ≠ ofJson (.string "+12345-1-1") := by
  have hread : ofJson (.string "+12345-1-1") = .date ⟨12345, 1, 1, by decide⟩ := by decide +kernel
  have hreread : ofJson (.string "+12345-01-01") = .text "+12345-01-01" := by decide +kernel
  refine ⟨hread, by with_unfolding_all rfl, hreread, ?_⟩
  rw [hread, hreread]
  exact Value.noConfusion

end Specimen.Value

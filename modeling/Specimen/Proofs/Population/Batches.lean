import Mathlib.Data.UInt
import Specimen.Proofs.Population.Locality
import Specimen.Proofs.Population.Relocation
import Specimen.Random.Script

/-!
# Batches, sequences and arrays

Specimens come in numbers in three ways: as a batch, as batches one after another, and as the
elements of an array.  They are the same specimens each time.  A batch goes on drawing where
the one before it stopped, and an array draws for its elements what a batch of them draws; for
the elements of an array of values of their own one generator serves for all, where a batch
looks for it anew.

An element and a specimen lie at different paths, so their errors are the same but for the path.

## Main statements

* `createMany_add` — batches one after another are one batch.
* `create_elements_follows` — a batch follows the array of its specimens, errors included.
* `create_array_of_leaf` — an array of values of their own is a batch of them.
* `createMany_batches` — batches, sequences and arrays agree.
-/

namespace Specimen

open Specimen.Random (Source)

/-- An array is made exactly when its items are. -/
theorem array_map_eq_ok_iff {σ : Type} {x : Generation σ (List Value)} {items : List Value}
    {s t : σ} :
    (Value.array <$> x) s = .ok (.array items) t ↔ x s = .ok items t := by
  rw [Generation.map_eq_ok]
  constructor
  · rintro ⟨items', hitems, heq⟩
    cases heq
    exact hitems
  · intro hitems
    exact ⟨items, hitems, rfl⟩

section

variable {σ : Type} [Source σ] (o : Options) (overrides : Option Overrides)

/-- **Batches one after another are one batch**, whether specimens are made or one of them fails. -/
theorem createMany_add (template : Value) (m n : Nat) :
    (createMany o template (m + n) overrides : Generation σ (List Value)) =
      createMany o template m overrides >>= fun first =>
        (first ++ ·) <$> createMany o template n overrides :=
  Generation.times_add m n _

/-- **A batch of specimens of an object follows the array of them**, and its errors are those of
the elements, moved to the root. -/
theorem create_elements_follows (fields : List (String × Value)) (rest : List Value) :
    Generation.Relocates FieldPath.root.element .root (σ := σ)
      (create o (.array (.object fields :: rest)) overrides)
      (Value.array <$> createMany o (.object fields) o.elementCount overrides) := by
  rw [create_objects, createMany, create_object]
  exact ((populateObject_relocates FieldPath.root.element .root overrides fields).times
    o.elementCount).map Value.array

/-- The array of specimens follows the batch likewise. -/
theorem createMany_elements_follows (fields : List (String × Value)) (rest : List Value) :
    Generation.Relocates .root FieldPath.root.element (σ := σ)
      (Value.array <$> createMany o (.object fields) o.elementCount overrides)
      (create o (.array (.object fields :: rest)) overrides) := by
  rw [create_objects, createMany, create_object]
  exact ((populateObject_relocates .root FieldPath.root.element overrides fields).times
    o.elementCount).map Value.array

/-- Only an open leaf has no generator of its own. -/
theorem exists_generatorOf_none {leaf : Value} (hleaf : leaf.IsLeaf) (hopen : leaf ≠ .null)
    (path : FieldPath) : ∃ g, generatorOf o.window leaf path none = .ok g := by
  cases leaf with
  | null => exact (hopen rfl).elim
  | array items => exact hleaf.elim
  | object fields => exact hleaf.elim
  | bool _ | integer _ | decimal _ | text _ | date _ => exact ⟨_, rfl⟩

/-- **An array of leaves is a batch of them.**  The generator that the elements share is the one
that each specimen of the batch looks for. -/
theorem create_array_of_leaf {leaf : Value} (hleaf : leaf.IsLeaf) (hopen : leaf ≠ .null)
    (rest : List Value) :
    (create o (.array (leaf :: rest)) none : Generation σ Value) =
      Value.array <$> createMany o leaf o.elementCount none := by
  obtain ⟨g, hg⟩ := exists_generatorOf_none o hleaf hopen .root
  have hone : (create o leaf none : Generation σ Value) = g.generate := by
    rw [create, Option.map_none, populate_leaf o .root none hleaf, hg, Generation.ofExcept_ok,
      pure_bind]
  rw [createMany, hone, create, Option.map_none, populate_leaves o .root none hleaf, hg,
    Generation.ofExcept_ok, pure_bind]

variable (s : σ)

/-- **Batches, sequences and arrays agree.**  A batch is the sequence of any two batches that have
its number of specimens together.  An array of objects is a batch of specimens of the object, under
the same overrides, and an array of leaves that are not open is a batch of the leaf. -/
theorem createMany_batches (template : Value) :
    (∀ m n specimens t, createMany o template (m + n) overrides s = .ok specimens t ↔
      ∃ first second u, createMany o template m overrides s = .ok first u ∧
        createMany o template n overrides u = .ok second t ∧ specimens = first ++ second) ∧
    (∀ fields rest specimens t,
      create o (.array (.object fields :: rest)) overrides s = .ok (.array specimens) t ↔
        createMany o (.object fields) o.elementCount overrides s = .ok specimens t) ∧
    ∀ leaf rest specimens t, leaf.IsLeaf → leaf ≠ .null →
      (create o (.array (leaf :: rest)) none s = .ok (.array specimens) t ↔
        createMany o leaf o.elementCount none s = .ok specimens t) := by
  refine ⟨fun m n specimens t => ?_, fun fields rest specimens t => ?_,
    fun leaf rest specimens t hleaf hopen => ?_⟩
  · rw [createMany_add, Generation.bind_eq_ok]
    constructor
    · rintro ⟨first, u, hfirst, hmap⟩
      obtain ⟨second, hsecond, rfl⟩ := Generation.map_eq_ok.mp hmap
      exact ⟨first, second, u, hfirst, hsecond, rfl⟩
    · rintro ⟨first, second, u, hfirst, hsecond, rfl⟩
      exact ⟨first, u, hfirst, Generation.map_eq_ok.mpr ⟨second, hsecond, rfl⟩⟩
  · rw [← array_map_eq_ok_iff]
    exact ⟨(create_elements_follows o overrides fields rest).ok,
      (createMany_elements_follows o overrides fields rest).ok⟩
  · rw [create_array_of_leaf o hleaf hopen, array_map_eq_ok_iff]

end

set_option maxRecDepth 1024 in
/-- Three truth values, as a batch and so as an array. -/
theorem createMany_batches_truths :
    (Value.bool true).IsLeaf ∧ Value.bool true ≠ .null ∧
      createMany .default (.bool true) 3 none (Random.Script.ofWords [0, 2 ^ 63, 0] 0) =
        .ok [.bool true, .bool false, .bool true] ⟨[], 0, 3⟩ ∧
      create .default (.array [.bool true]) none (Random.Script.ofWords [0, 2 ^ 63, 0] 0) =
        .ok (.array [.bool true, .bool false, .bool true]) ⟨[], 0, 3⟩ := by
  have hbatch : createMany .default (.bool true) 3 none (Random.Script.ofWords [0, 2 ^ 63, 0] 0) =
      .ok [.bool true, .bool false, .bool true] ⟨[], 0, 3⟩ := by
    with_unfolding_all rfl
  have hopen : Value.bool true ≠ .null := by simp
  have harray := (createMany_batches .default none (Random.Script.ofWords [0, 2 ^ 63, 0] 0)
    (.bool true)).2.2 (.bool true) [] [.bool true, .bool false, .bool true] ⟨[], 0, 3⟩
  exact ⟨trivial, hopen, hbatch, (harray trivial hopen).mpr hbatch⟩

end Specimen

import Specimen.Proofs.Population.Success

/-!
# Failure is no matter of luck

Population checks and draws in turn: what a field needs is looked at when the walk comes to
it, behind everything that was drawn for the fields before.  Nevertheless the values drawn
decide nothing.  Where population fails, it fails for the same field and in the same way
whatever the random source is, and from whichever state it starts.

So one specimen stands for a batch of them: a batch fails in its first specimen or not at all.

## Main statements

* `exists_create_endsIn` — one end is settled for all sources alike.
* `create_fails_alike` — failure does not depend on the source, nor on the size of a batch.
-/

namespace Specimen

open Specimen.Random (Source)

section

variable (o : Options) (template : Value) (overrides : Option Overrides)

/-- **How the population of a template ends is settled for all sources alike.** -/
theorem exists_create_endsIn :
    ∃ fault, ∀ (σ : Type) [Source σ],
      (create o template overrides : Generation σ Value).EndsIn fault := by
  obtain ⟨fault, hends, -⟩ := (settled_populate o).1 .root (overrides.map .tree) template
  exact ⟨fault, fun σ _ => hends σ⟩

/-- **Failure does not depend on luck.**  Population that fails from one source fails from
every other one too, with the same error.  A batch fails exactly where its first specimen
does, and so it never fails once a specimen has been made. -/
theorem create_fails_alike {σ σ' : Type} [Source σ] [Source σ'] (s : σ) (s' : σ') :
    (∀ e, (∃ t, create o template overrides s = .error e t) ↔
        ∃ t, create o template overrides s' = .error e t) ∧
      (∀ count e t, createMany o template (count + 1) overrides s = .error e t ↔
        create o template overrides s = .error e t) ∧
      ∀ count specimen t, create o template overrides s = .ok specimen t →
        ∃ specimens u, createMany o template count overrides s' = .ok specimens u ∧
          specimens.length = count := by
  obtain ⟨fault, hends⟩ := exists_create_endsIn o template overrides
  refine ⟨fun e => ?_, fun count e t => ?_, fun count specimen t hok => ?_⟩
  · rw [(hends σ).error_iff s e, (hends σ').error_iff s' e]
  · exact (hends σ).times_succ_eq_error_iff
  · -- a specimen was made, so the settled end is no error, and neither is that of a batch
    have hnone : fault = none := ((hends σ).ok_iff s).mp ⟨specimen, t, hok⟩
    have hbatch := (hends σ').times count
    rw [hnone, ite_self] at hbatch
    obtain ⟨specimens, u, hspecimens⟩ := hbatch s'
    exact ⟨specimens, u, hspecimens, (Generation.times_eq_ok hspecimens).1⟩

end

end Specimen

import Specimen.Proofs.Generation.Runs

/-!
# Runs in lockstep

Two generations may draw the same words for the same values and yet not be equal, because
they name things differently where they fail, or because one of them gives up where the other
goes on.  A second generation follows a first one if it is in step with it as long as the first
one goes: with its values, and with the state of the source.  Where the first one fails, the
second fails there too with an error that is related to the first, unless the error is one
that excuses it from following any further.

Following is built up like the generations themselves.

## Main definitions

* `Generation.Follows excused R x y` — `y` follows `x`.

## Main statements

* `Generation.Follows.bind`, `Generation.Follows.times` — sequences and repeated runs of
  generations that follow each other follow each other.
-/

namespace Specimen.Generation

variable {σ α β : Type} {excused : GenerationError → Prop}
  {R : GenerationError → GenerationError → Prop}

/-- Where `x` ends with a value, `y` ends with it too; where `x` fails, the error is excused or
`y` fails with a related one.  Either way the source is left in the same state. -/
structure Follows (excused : GenerationError → Prop)
    (R : GenerationError → GenerationError → Prop) (x y : Generation σ α) : Prop where
  ok : ∀ {s t a}, x s = .ok a t → y s = .ok a t
  error : ∀ {s t e}, x s = .error e t → excused e ∨ ∃ e', R e e' ∧ y s = .error e' t

namespace Follows

/-- A generation follows itself, if its own errors are related to themselves. -/
theorem refl {x : Generation σ α} (h : ∀ {s t e}, x s = .error e t → R e e) :
    Follows excused R x x :=
  ⟨id, fun he => Or.inr ⟨_, h he, he⟩⟩

theorem pure (a : α) : Follows excused R (pure a : Generation σ α) (pure a) :=
  ⟨id, nofun⟩

theorem throw {e e' : GenerationError} (h : R e e') :
    Follows excused R (throw e : Generation σ α) (throw e') := by
  refine ⟨nofun, fun he => Or.inr ⟨e', ?_⟩⟩
  cases he
  exact ⟨h, rfl⟩

/-- Behind an error that is excused there may be anything. -/
theorem of_excused {e : GenerationError} (h : excused e) (y : Generation σ α) :
    Follows excused R (MonadExcept.throw e) y := by
  refine ⟨nofun, fun he => Or.inl ?_⟩
  cases he
  exact h

/-- The relation may be replaced by a coarser one. -/
theorem mono {R' : GenerationError → GenerationError → Prop} {x y : Generation σ α}
    (h : Follows excused R x y) (hR : ∀ e e', R e e' → R' e e') : Follows excused R' x y := by
  refine ⟨h.ok, fun he => ?_⟩
  rcases h.error he with hexcused | ⟨e', hrelated, he'⟩
  · exact Or.inl hexcused
  · exact Or.inr ⟨e', hR _ e' hrelated, he'⟩

/-- Sequences follow each other step by step. -/
theorem bind {x y : Generation σ α} {f g : α → Generation σ β} (h : Follows excused R x y)
    (hnext : ∀ a, Follows excused R (f a) (g a)) : Follows excused R (x >>= f) (y >>= g) := by
  constructor
  · intro s t b hb
    obtain ⟨a, u, ha, hb⟩ := bind_eq_ok.mp hb
    exact bind_eq_ok.mpr ⟨a, u, h.ok ha, (hnext a).ok hb⟩
  · intro s t e he
    -- the first part fails and takes the whole with it, or it does not and the second part fails
    rcases bind_eq_error.mp he with he | ⟨a, u, ha, he⟩
    · rcases h.error he with hexcused | ⟨e', hrelated, he'⟩
      · exact Or.inl hexcused
      · exact Or.inr ⟨e', hrelated, bind_eq_error.mpr (Or.inl he')⟩
    · rcases (hnext a).error he with hexcused | ⟨e', hrelated, he'⟩
      · exact Or.inl hexcused
      · exact Or.inr ⟨e', hrelated, bind_eq_error.mpr (Or.inr ⟨a, u, h.ok ha, he'⟩)⟩

theorem map {x y : Generation σ α} (h : Follows excused R x y) (f : α → β) :
    Follows excused R (f <$> x) (f <$> y) := by
  rw [map_eq_pure_bind, map_eq_pure_bind]
  exact h.bind fun a => .pure (f a)

/-- Repeated runs follow each other turn by turn. -/
theorem times {x y : Generation σ α} (h : Follows excused R x y) (n : Nat) :
    Follows excused R (Random.times n x) (Random.times n y) := by
  induction n with
  | zero => exact .pure []
  | succ n ih => exact h.bind fun first => ih.bind fun others => .pure (first :: others)

end Follows

end Specimen.Generation

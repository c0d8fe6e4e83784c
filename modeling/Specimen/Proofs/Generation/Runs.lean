import Specimen.Generation.Error
import Specimen.Proofs.Random.Uniform

/-!
# Runs of generations

A generation started in a state of its source ends with a value or with an error.
This module takes the runs of composed generations apart, so that no later proof
opens the monad, and says when the end of a run is settled before it starts.

## Main definitions

* `Generation.EndsIn x r` — wherever `x` starts, it ends with a value if `r` is `none`,
  and with the error in `r` otherwise.

## Main statements

* `Generation.bind_eq_ok`, `Generation.bind_eq_error` — how a sequence of two runs ends.
* `Generation.times_eq_ok`, `Generation.times_eq_error_iff` — how a repeated run ends.
* `Generation.times_add` — a repeated run cut into two.
* `Generation.EndsIn.bind`, `Generation.EndsIn.times` — settled ends compose.
* `Generation.EndsIn.times_succ_eq_error_iff` — a repeated run fails in its first turn.
-/

namespace Specimen

namespace Generation

variable {σ α β : Type}

/-! ### How composed runs end -/

@[simp] theorem pure_apply (a : α) (s : σ) : (pure a : Generation σ α) s = .ok a s := rfl

@[simp] theorem throw_apply (e : GenerationError) (s : σ) :
    (throw e : Generation σ α) s = .error e s := rfl

/-- A sequence ends with a value when both its parts do. -/
theorem bind_eq_ok {x : Generation σ α} {f : α → Generation σ β} {s t : σ} {b : β} :
    (x >>= f) s = .ok b t ↔ ∃ a u, x s = .ok a u ∧ f a u = .ok b t := by
  change EStateM.bind x f s = _ ↔ _
  unfold EStateM.bind
  cases h : x s with
  | ok a u =>
    constructor
    · intro hf
      exact ⟨a, u, rfl, hf⟩
    · rintro ⟨a', u', hau, hf⟩
      cases hau
      exact hf
  | error e u => simp

/-- A sequence fails when its first part does, or its second part behind it. -/
theorem bind_eq_error {x : Generation σ α} {f : α → Generation σ β} {s t : σ}
    {e : GenerationError} :
    (x >>= f) s = .error e t ↔
      x s = .error e t ∨ ∃ a u, x s = .ok a u ∧ f a u = .error e t := by
  change EStateM.bind x f s = _ ↔ _
  unfold EStateM.bind
  cases h : x s with
  | ok a u =>
    constructor
    · intro hf
      exact Or.inr ⟨a, u, rfl, hf⟩
    · rintro (h' | ⟨a', u', hau, hf⟩)
      · cases h'
      · cases hau
        exact hf
  | error e' u => simp

theorem map_eq_ok {x : Generation σ α} {g : α → β} {s t : σ} {b : β} :
    (g <$> x) s = .ok b t ↔ ∃ a, x s = .ok a t ∧ g a = b := by
  change EStateM.map g x s = _ ↔ _
  unfold EStateM.map
  cases h : x s with
  | ok a u =>
    constructor
    · intro hg
      cases hg
      exact ⟨a, rfl, rfl⟩
    · rintro ⟨a', hau, rfl⟩
      cases hau
      rfl
  | error e u => simp

theorem map_eq_error {x : Generation σ α} {g : α → β} {s t : σ} {e : GenerationError} :
    (g <$> x) s = .error e t ↔ x s = .error e t := by
  change EStateM.map g x s = _ ↔ _
  unfold EStateM.map
  cases h : x s with
  | ok a u => simp
  | error e' u => simp

theorem ofExcept_eq_ok {ε : Type} {f : ε → GenerationError} {r : Except ε α} {s t : σ} {a : α} :
    (ofExcept f r : Generation σ α) s = .ok a t ↔ r = .ok a ∧ s = t := by
  cases r with
  | ok b => simp
  | error e => simp

theorem ofExcept_eq_error {ε : Type} {f : ε → GenerationError} {r : Except ε α} {s t : σ}
    {e : GenerationError} :
    (ofExcept f r : Generation σ α) s = .error e t ↔ ∃ e', r = .error e' ∧ f e' = e ∧ s = t := by
  cases r with
  | ok b => simp
  | error e' => simp

/-- Behind a computation that takes no state, a sequence succeeds when both its parts do. -/
theorem ofExcept_bind_eq_ok {ε : Type} {f : ε → GenerationError} {r : Except ε α}
    {g : α → Generation σ β} {s t : σ} {b : β} :
    (ofExcept f r >>= g) s = .ok b t ↔ ∃ a, r = .ok a ∧ g a s = .ok b t := by
  rw [bind_eq_ok]
  constructor
  · rintro ⟨a, u, hr, hg⟩
    obtain ⟨ha, rfl⟩ := ofExcept_eq_ok.mp hr
    exact ⟨a, ha, hg⟩
  · rintro ⟨a, ha, hg⟩
    exact ⟨a, s, ofExcept_eq_ok.mpr ⟨ha, rfl⟩, hg⟩

/-- Either the computation that takes no state fails, or what follows it. -/
theorem ofExcept_bind_eq_error {ε : Type} {f : ε → GenerationError} {r : Except ε α}
    {g : α → Generation σ β} {s t : σ} {e : GenerationError}
    (h : (ofExcept f r >>= g) s = .error e t) :
    (∃ e', r = .error e' ∧ f e' = e) ∨ ∃ a, r = .ok a ∧ g a s = .error e t := by
  rcases bind_eq_error.mp h with hr | ⟨a, u, hr, hg⟩
  · obtain ⟨e', he, hf, -⟩ := ofExcept_eq_error.mp hr
    exact Or.inl ⟨e', he, hf⟩
  · obtain ⟨ha, rfl⟩ := ofExcept_eq_ok.mp hr
    exact Or.inr ⟨a, ha, hg⟩

/-- A drawn value has the property that all values of the draw have. -/
theorem of_draw_eq_ok {x : Random.Draw σ α} {P : α → Prop} (hx : x.Always P) {s t : σ} {a : α}
    (h : draw x s = .ok a t) : P a := by
  rw [draw_apply] at h
  cases h
  exact hx s

/-- A repeated run ends with as many values as it has turns, each the value of one turn. -/
theorem times_eq_ok {x : Generation σ α} : ∀ {n : Nat} {s t : σ} {items : List α},
    Random.times n x s = .ok items t →
      items.length = n ∧ ∀ a ∈ items, ∃ u v, x u = .ok a v := by
  intro n
  induction n with
  | zero =>
    intro s t items h
    simp only [Random.times, pure_apply, EStateM.Result.ok.injEq] at h
    obtain ⟨rfl, -⟩ := h
    exact ⟨rfl, fun a ha => absurd ha (List.not_mem_nil)⟩
  | succ n ih =>
    intro s t items h
    simp only [Random.times, bind_eq_ok, pure_apply, EStateM.Result.ok.injEq] at h
    obtain ⟨first, u, hfirst, others, v, hothers, rfl, rfl⟩ := h
    obtain ⟨hlen, hall⟩ := ih hothers
    refine ⟨by rw [List.length_cons, hlen], fun a ha => ?_⟩
    rcases List.mem_cons.mp ha with rfl | ha
    · exact ⟨s, u, hfirst⟩
    · exact hall a ha

/-- A repeated run fails because one of its turns does. -/
theorem times_eq_error {x : Generation σ α} : ∀ {n : Nat} {s t : σ} {e : GenerationError},
    Random.times n x s = .error e t → 0 < n ∧ ∃ u, x u = .error e t := by
  intro n
  induction n with
  | zero => intro s t e h; simp [Random.times] at h
  | succ n ih =>
    intro s t e h
    refine ⟨Nat.succ_pos n, ?_⟩
    simp only [Random.times, bind_eq_error, pure_apply, reduceCtorEq, and_false, exists_false,
      or_false] at h
    rcases h with hfirst | ⟨first, u, -, hothers⟩
    · exact ⟨s, hfirst⟩
    · exact (ih hothers).2

/-- A repeated run fails in the first of its turns that does, behind the turns before. -/
theorem times_eq_error_iff {x : Generation σ α} {n : Nat} {s t : σ} {e : GenerationError} :
    Random.times n x s = .error e t ↔
      ∃ items u, items.length < n ∧ Random.times items.length x s = .ok items u ∧
        x u = .error e t := by
  induction n generalizing s with
  | zero => simp [Random.times]
  | succ n ih =>
    rw [Random.times, bind_eq_error]
    constructor
    · rintro (hfirst | ⟨first, u, hfirst, hothers⟩)
      · exact ⟨[], s, Nat.succ_pos n, rfl, hfirst⟩
      · have hlater := (bind_eq_error.mp hothers).resolve_right (by simp)
        obtain ⟨items, v, hlt, hitems, hturn⟩ := ih.mp hlater
        refine ⟨first :: items, v, Nat.succ_lt_succ hlt, ?_, hturn⟩
        exact bind_eq_ok.mpr ⟨first, u, hfirst, bind_eq_ok.mpr ⟨items, v, hitems, rfl⟩⟩
    · rintro ⟨items, v, hlt, hitems, hturn⟩
      cases items with
      | nil =>
        cases hitems
        exact Or.inl hturn
      | cons first items =>
        obtain ⟨first', u, hfirst, hothers⟩ := bind_eq_ok.mp hitems
        obtain ⟨items', w, hitems, hpure⟩ := bind_eq_ok.mp hothers
        cases hpure
        refine Or.inr ⟨first, u, hfirst, bind_eq_error.mpr (Or.inl (ih.mpr ?_))⟩
        exact ⟨items, v, Nat.lt_of_succ_lt_succ hlt, hitems, hturn⟩

/-- As many turns as two repeated runs have together are the one run behind the other. -/
theorem times_add (m n : Nat) (x : Generation σ α) :
    Random.times (m + n) x =
      Random.times m x >>= fun first => (first ++ ·) <$> Random.times n x := by
  induction m with
  | zero => simp [Random.times]
  | succ m ih => simp [Nat.succ_add, Random.times, ih]

/-! ### Settled ends -/

/-- Wherever the run starts, it ends with a value, or with the error that is given. -/
def EndsIn (x : Generation σ α) : Option GenerationError → Prop
  | none => ∀ s, ∃ a t, x s = .ok a t
  | some e => ∀ s, ∃ t, x s = .error e t

theorem endsIn_pure (a : α) : (pure a : Generation σ α).EndsIn none := fun s => ⟨a, s, rfl⟩

theorem endsIn_throw (e : GenerationError) : (throw e : Generation σ α).EndsIn (some e) :=
  fun s => ⟨s, rfl⟩

theorem endsIn_draw (x : Random.Draw σ α) : (draw x).EndsIn none :=
  fun _ => ⟨_, _, rfl⟩

/-- The run succeeds exactly when its settled end is no error. -/
theorem EndsIn.ok_iff {x : Generation σ α} {r : Option GenerationError} (h : x.EndsIn r) (s : σ) :
    (∃ a t, x s = .ok a t) ↔ r = none := by
  cases r with
  | none => exact ⟨fun _ => rfl, fun _ => h s⟩
  | some e =>
    obtain ⟨t, ht⟩ := h s
    simp [ht]

/-- A run that fails has the error it is settled to end in. -/
theorem EndsIn.eq_of_error {x : Generation σ α} {r : Option GenerationError} (h : x.EndsIn r)
    {s t : σ} {e : GenerationError} (he : x s = .error e t) : r = some e := by
  cases r with
  | none =>
    obtain ⟨a, u, ha⟩ := h s
    rw [ha] at he
    cases he
  | some e' =>
    obtain ⟨u, hu⟩ := h s
    rw [hu] at he
    cases he
    rfl

/-- The run fails with an error exactly when it is settled to end in that error. -/
theorem EndsIn.error_iff {x : Generation σ α} {r : Option GenerationError} (h : x.EndsIn r) (s : σ)
    (e : GenerationError) : (∃ t, x s = .error e t) ↔ r = some e := by
  constructor
  · rintro ⟨t, ht⟩
    exact h.eq_of_error ht
  · rintro rfl
    exact h s

theorem EndsIn.map {x : Generation σ α} {r : Option GenerationError} (h : x.EndsIn r) (g : α → β) :
    (g <$> x).EndsIn r := by
  cases r with
  | none =>
    intro s
    obtain ⟨a, t, ha⟩ := h s
    exact ⟨g a, t, map_eq_ok.mpr ⟨a, ha, rfl⟩⟩
  | some e =>
    intro s
    obtain ⟨t, ht⟩ := h s
    exact ⟨t, map_eq_error.mpr ht⟩

theorem EndsIn.pure_bind {a : α} {f : α → Generation σ β} {r : Option GenerationError}
    (h : (f a).EndsIn r) : (pure a >>= f).EndsIn r := h

theorem EndsIn.bind_error {x : Generation σ α} {e : GenerationError} (h : x.EndsIn (some e))
    (f : α → Generation σ β) : (x >>= f).EndsIn (some e) := by
  intro s
  obtain ⟨t, ht⟩ := h s
  exact ⟨t, bind_eq_error.mpr (Or.inl ht)⟩

/-- Behind a part that cannot fail, the rest settles the end. -/
theorem EndsIn.bind {x : Generation σ α} {f : α → Generation σ β} {r : Option GenerationError}
    (hx : x.EndsIn none) (hf : ∀ a, (f a).EndsIn r) : (x >>= f).EndsIn r := by
  cases r with
  | none =>
    intro s
    obtain ⟨a, u, ha⟩ := hx s
    obtain ⟨b, t, hb⟩ := hf a u
    exact ⟨b, t, bind_eq_ok.mpr ⟨a, u, ha, hb⟩⟩
  | some e =>
    intro s
    obtain ⟨a, u, ha⟩ := hx s
    obtain ⟨t, ht⟩ := hf a u
    exact ⟨t, bind_eq_error.mpr (Or.inr ⟨a, u, ha, ht⟩)⟩

theorem EndsIn.bind_pure {x : Generation σ α} {r : Option GenerationError} (h : x.EndsIn r)
    (g : α → β) : (x >>= fun a => pure (g a)).EndsIn r := by
  cases r with
  | none => exact h.bind fun a => endsIn_pure (g a)
  | some e => exact h.bind_error _

/-- Behind a draw, the rest need only settle the end for values that can be drawn. -/
theorem EndsIn.draw_bind {x : Random.Draw σ α} {P : α → Prop} {f : α → Generation σ β}
    {r : Option GenerationError} (hx : x.Always P) (hf : ∀ a, P a → (f a).EndsIn r) :
    (draw x >>= f).EndsIn r := by
  cases r with
  | none =>
    intro s
    obtain ⟨b, t, hb⟩ := hf (x s).1 (hx s) (x s).2
    exact ⟨b, t, bind_eq_ok.mpr ⟨_, _, draw_apply x s, hb⟩⟩
  | some e =>
    intro s
    obtain ⟨t, ht⟩ := hf (x s).1 (hx s) (x s).2
    exact ⟨t, bind_eq_error.mpr (Or.inr ⟨_, _, draw_apply x s, ht⟩)⟩

/-- A repeated run ends like its first turn, unless it has no turn at all. -/
theorem EndsIn.times {x : Generation σ α} {r : Option GenerationError} (h : x.EndsIn r) (n : Nat) :
    (Random.times n x).EndsIn (if n = 0 then none else r) := by
  induction n with
  | zero => exact endsIn_pure []
  | succ n ih =>
    rw [if_neg (Nat.succ_ne_zero n)]
    -- a turn that fails is the last one
    cases r with
    | none =>
      rw [ite_self] at ih
      exact h.bind fun first => ih.bind fun others => endsIn_pure (first :: others)
    | some e => exact h.bind_error _

/-- Where the end of one turn is settled, a repeated run fails in its first turn or not at
all. -/
theorem EndsIn.times_succ_eq_error_iff {x : Generation σ α} {r : Option GenerationError}
    (h : x.EndsIn r) {n : Nat} {s t : σ} {e : GenerationError} :
    Random.times (n + 1) x s = .error e t ↔ x s = .error e t := by
  rw [Random.times, bind_eq_error]
  constructor
  · rintro (hfirst | ⟨first, u, hfirst, hothers⟩)
    · exact hfirst
    · rcases bind_eq_error.mp hothers with hothers | ⟨others, v, -, hpure⟩
      · -- a turn behind the first one cannot fail, for the first one did not
        obtain ⟨-, v, hlater⟩ := times_eq_error hothers
        obtain ⟨w, hw⟩ := (h.error_iff s e).mpr (h.eq_of_error hlater)
        rw [hw] at hfirst
        cases hfirst
      · cases hpure
  · exact Or.inl

end Generation

end Specimen

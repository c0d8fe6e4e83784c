import Specimen.FieldPath
import Specimen.Proofs.Text.Characters

/-!
# Paths and their steps

A path is written step by step, each name as it is.  So a path can be taken apart again if no name
holds one of the three signs that steps are written with: a name ends where the next step begins.

What the written form does not show is the root.  It has no text of its own inside a path and the
text `$` outside, and both are names that a field of the root may have.

## Main definitions

* `FieldPath.Step.chars` — how a step is written behind other steps.
* `FieldPath.Plain steps` — the names hold no signs, and the first one is not empty.

## Main statements

* `FieldPath.flatMap_chars_inj` — plain steps are told apart by their characters.
* `FieldPath.trail_ofSteps_inj` — so are plain steps from the root.
* `FieldPath.render_ofSteps_eq_iff` — the root and the field `$` are the only two places with one
  written form.
-/

namespace Specimen.FieldPath

/-! ### Steps behind other steps -/

/-- The character is one of the signs that steps are written with. -/
def isSign (c : Char) : Bool := c == '.' || c == '[' || c == ']'

/-- A name without any of the signs. -/
def Step.IsPlain : Step → Prop
  | .child name => ∀ c ∈ name.toList, isSign c = false
  | .element => True

/-- How a step is written behind other steps. -/
def Step.chars : Step → List Char
  | .child name => '.' :: name.toList
  | .element => ['[', ']']

/-- What is written behind a step begins with a sign. -/
theorem isSign_of_head?_flatMap {steps : List Step} {c : Char}
    (h : c ∈ (steps.flatMap Step.chars).head?) : isSign c = true := by
  cases steps with
  | nil => cases h
  | cons step steps =>
    cases step with
    | child name =>
      cases h
      decide
    | element =>
      cases h
      decide

/-- A name ends where the next step begins. -/
theorem name_append_inj {name other : List Char} {steps more : List Step}
    (hname : ∀ c ∈ name, isSign c = false) (hother : ∀ c ∈ other, isSign c = false)
    (h : name ++ steps.flatMap Step.chars = other ++ more.flatMap Step.chars) :
    name = other ∧ steps.flatMap Step.chars = more.flatMap Step.chars := by
  have hrun : ∀ {cs : List Char} (steps : List Step), (∀ c ∈ cs, isSign c = false) →
      (cs ++ steps.flatMap Step.chars).takeWhile (!isSign ·) = cs ∧
        (cs ++ steps.flatMap Step.chars).dropWhile (!isSign ·) = steps.flatMap Step.chars := by
    intro cs steps hcs
    refine Text.run_append (fun c hc => by simp [hcs c hc]) fun c hc => ?_
    simp [isSign_of_head?_flatMap hc]
  obtain ⟨htake, hdrop⟩ := hrun steps hname
  obtain ⟨htake', hdrop'⟩ := hrun more hother
  rw [h] at htake hdrop
  exact ⟨htake.symm.trans htake', hdrop.symm.trans hdrop'⟩

/-- **Plain steps are told apart by their characters.** -/
theorem flatMap_chars_inj {steps more : List Step} (hsteps : ∀ step ∈ steps, step.IsPlain)
    (hmore : ∀ step ∈ more, step.IsPlain)
    (h : steps.flatMap Step.chars = more.flatMap Step.chars) : steps = more := by
  induction steps generalizing more with
  | nil =>
    cases more with
    | nil => rfl
    | cons step more => cases step <;> simp [Step.chars] at h
  | cons step steps ih =>
    obtain ⟨hstep, hbelow⟩ := List.forall_mem_cons.mp hsteps
    cases more with
    | nil => cases step <;> simp [Step.chars] at h
    | cons other more =>
      obtain ⟨hother, hbelow'⟩ := List.forall_mem_cons.mp hmore
      rw [List.flatMap_cons, List.flatMap_cons] at h
      cases step with
      | child name =>
        cases other with
        | child name' =>
          obtain ⟨hname, hrest⟩ := name_append_inj hstep hother (List.cons.inj h).2
          rw [String.toList_inj.mp hname, ih hbelow hbelow' hrest]
        | element => exact absurd (List.cons.inj h).1 (by decide)
      | element =>
        cases other with
        | child name' => exact absurd (List.cons.inj h).1 (by decide)
        | element => rw [ih hbelow hbelow' (List.cons.inj (List.cons.inj h).2).2]

/-! ### Steps from the root -/

/-- The names of the steps hold no signs, and the first step does not go to the field with the
empty name. -/
def Plain (steps : List Step) : Prop :=
  (∀ step ∈ steps, step.IsPlain) ∧ steps.head? ≠ some (.child "")

/-- Behind a path that is not the root, steps are written one behind the other. -/
theorem toList_trail_foldl {path : FieldPath} (h : path.trail ≠ "") (steps : List Step) :
    (steps.foldl step path).trail.toList = path.trail.toList ++ steps.flatMap Step.chars := by
  induction steps generalizing path with
  | nil => rw [List.flatMap_nil, List.append_nil, List.foldl_nil]
  | cons next steps ih =>
    have hnext : (path.step next).trail.toList = path.trail.toList ++ next.chars := by
      cases next with
      | child name => simp [step, child, h, Step.chars]
      | element => simp [step, element, Step.chars]
    have hne : (path.step next).trail ≠ "" := by
      intro hempty
      rw [hempty] at hnext
      exact h (String.toList_eq_nil_iff.mp (List.append_eq_nil_iff.mp hnext.symm).1)
    rw [List.foldl_cons, ih hne, hnext, List.flatMap_cons, List.append_assoc]

/-- Plain steps as they are written from the root, with the dot that a name in front lacks. -/
def dotted : List Char → List Char
  | [] => []
  | c :: cs => if isSign c then c :: cs else '.' :: c :: cs

theorem flatMap_chars_eq_dotted {steps : List Step} (h : Plain steps) :
    steps.flatMap Step.chars = dotted (ofSteps steps).trail.toList := by
  cases steps with
  | nil => rfl
  | cons next steps =>
    rw [ofSteps, List.foldl_cons, List.flatMap_cons]
    cases next with
    | child name =>
      have hname : name ≠ "" := fun hempty => h.2 (by rw [hempty]; rfl)
      obtain ⟨c, cs, hchars⟩ := List.exists_cons_of_ne_nil (String.toList_eq_nil_iff.not.mpr hname)
      -- the name has a character, which is no sign
      have hc : isSign c = false := h.1 _ List.mem_cons_self c (hchars ▸ List.mem_cons_self)
      have htrail : (root.step (.child name)).trail = name := rfl
      rw [toList_trail_foldl (by rwa [htrail]), htrail, Step.chars, hchars]
      simp [dotted, hc]
    | element =>
      have hne : (root.step .element).trail ≠ "" := by decide
      rw [toList_trail_foldl hne]
      rfl

/-- **Plain steps from the root are told apart by the path they lead to.** -/
theorem trail_ofSteps_inj {steps more : List Step} (hsteps : Plain steps) (hmore : Plain more)
    (h : (ofSteps steps).trail = (ofSteps more).trail) : steps = more := by
  refine flatMap_chars_inj hsteps.1 hmore.1 ?_
  rw [flatMap_chars_eq_dotted hsteps, flatMap_chars_eq_dotted hmore, h]

/-! ### The root -/

/-- Paths are written alike only if they are the same, or if one is the root and the other one
the name that is written like the root. -/
theorem render_eq_iff {path path' : FieldPath} :
    path.render = path'.render ↔ path.trail = path'.trail ∨
      (path.trail = "" ∧ path'.trail = "$") ∨ (path.trail = "$" ∧ path'.trail = "") := by
  simp only [render, String.isEmpty_iff]
  split <;> split <;> grind

/-- The field `$` of the root. -/
theorem trail_ofSteps_eq_dollar_iff {steps : List Step} (h : Plain steps) :
    (ofSteps steps).trail = "$" ↔ steps = [.child "$"] := by
  constructor
  · have hdollar : Plain [.child "$"] := by simp [Plain, Step.IsPlain, isSign]
    exact fun htrail => trail_ofSteps_inj h hdollar htrail
  · rintro rfl
    rfl

theorem trail_ofSteps_eq_empty_iff {steps : List Step} (h : Plain steps) :
    (ofSteps steps).trail = "" ↔ steps = [] := by
  constructor
  · have hnil : Plain [] := by simp [Plain]
    exact fun htrail => trail_ofSteps_inj h hnil htrail
  · rintro rfl
    rfl

/-- **Plain steps are told apart by the written form of their path**, except that the root and
the field `$` of the root are written alike. -/
theorem render_ofSteps_eq_iff {steps more : List Step} (hsteps : Plain steps)
    (hmore : Plain more) :
    (ofSteps steps).render = (ofSteps more).render ↔ steps = more ∨
      (steps = [] ∧ more = [.child "$"]) ∨ (steps = [.child "$"] ∧ more = []) := by
  rw [render_eq_iff, trail_ofSteps_eq_empty_iff hsteps, trail_ofSteps_eq_empty_iff hmore,
    trail_ofSteps_eq_dollar_iff hsteps, trail_ofSteps_eq_dollar_iff hmore]
  refine or_congr_left ⟨trail_ofSteps_inj hsteps hmore, ?_⟩
  rintro rfl
  rfl

end Specimen.FieldPath

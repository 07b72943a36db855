import Mathlib.Logic.Basic

/-! Systems with visible and silent steps, and when two of them show the same.
A step is labelled with what can be seen of it, or with nothing. What a run shows is the list
of its labels. One system simulates another when each step of the one is matched by a run of
the other that shows the same; two states that simulate each other show the same.
-/

namespace Simulations

variable {State Other Label : Type} {step : State → Option Label → State → Prop}
  {matched : Other → Option Label → Other → Prop} {before middle after : State}
  {first second labels : List Label}

/-- A run that shows these labels, with any number of silent steps between them. -/
inductive Shows (step : State → Option Label → State → Prop) : State → List Label → State → Prop
  | nil {state : State} : Shows step state [] state
  | step {before middle after : State} {label : Option Label} {labels : List Label}
    (first : step before label middle) (rest : Shows step middle labels after)
    : Shows step before (label.toList ++ labels) after

namespace Shows

theorem single {label : Option Label} (taken : step before label after)
    : Shows step before label.toList after := by
  have run : Shows step before (label.toList ++ []) after := .step taken .nil
  rwa [List.append_nil] at run

/-- Two runs one after the other, by induction on the first. -/
theorem append (early : Shows step before first middle) (late : Shows step middle second after)
    : Shows step before (first ++ second) after := by
  induction early with
  | nil => exact late
  | step taken rest ih =>
      rw [List.append_assoc]
      exact .step taken (ih late)

/-- What every step keeps holds at the end of a run, by induction on the run. -/
theorem keeps {keep : State → Prop} (run : Shows step before labels after)
    (preserves : ∀ before label after, step before label after → keep before → keep after)
    (initial : keep before)
    : keep after := by
  induction run with
  | nil => exact initial
  | step taken rest ih => exact ih (preserves _ _ _ taken initial)

end Shows

/-- Each step from related states is matched by a run that shows the same. -/
def Simulates (step : State → Option Label → State → Prop)
    (matched : Other → Option Label → Other → Prop) (related : State → Other → Prop)
    : Prop :=
  ∀ before other label after, related before other → step before label after →
    ∃ next, Shows matched other label.toList next ∧ related after next

/-- What a run shows, its simulation can show, by induction on the run. -/
theorem Simulates.shows {related : State → Other → Prop} (simulates : Simulates step matched related)
    (run : Shows step before labels after) {other : Other} (start : related before other)
    : ∃ next, Shows matched other labels next ∧ related after next := by
  induction run generalizing other with
  | nil => exact ⟨other, .nil, start⟩
  | step taken rest ih =>
      obtain ⟨next, early, still⟩ := simulates _ _ _ _ start taken
      obtain ⟨last, late, ends⟩ := ih still
      exact ⟨last, early.append late, ends⟩

end Simulations

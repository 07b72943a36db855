import Mathlib.Data.List.Basic

/-! Histories in which one event follows the other.
An event is anything with a step relation: one call of a program, a request that is served
alone, a task of a scheduler. What every event preserves holds at the end of a history, and
a history can be cut at each of its events.
-/

namespace Atomic

variable {World Event : Type} {step weaker : World → Event → World → Prop}
  {before after : World} {events earlier later : List Event} {event : Event}

/-- These events, one after the other, lead from one world to another. -/
inductive Sequence (step : World → Event → World → Prop) : World → List Event → World → Prop
  | nil {world : World} : Sequence step world [] world
  | cons {before middle after : World} {event : Event} {more : List Event}
    (first : step before event middle) (rest : Sequence step middle more after)
    : Sequence step before (event :: more) after

namespace Sequence

@[simp] theorem nil_iff : Sequence step before [] after ↔ after = before := by
  constructor
  · intro run
    cases run
    rfl
  · rintro rfl
    exact .nil

@[simp] theorem cons_iff
    : Sequence step before (event :: later) after
      ↔ ∃ middle, step before event middle ∧ Sequence step middle later after := by
  constructor
  · intro run
    cases run with
    | cons first rest => exact ⟨_, first, rest⟩
  · rintro ⟨middle, first, rest⟩
    exact .cons first rest

/-- A history in two parts, by induction on the first part. -/
theorem append_iff
    : Sequence step before (earlier ++ later) after
      ↔ ∃ middle, Sequence step before earlier middle ∧ Sequence step middle later after := by
  induction earlier generalizing before with
  | nil => simp
  | cons event more ih =>
      simp only [List.cons_append, cons_iff, ih]
      constructor
      · rintro ⟨next, first, middle, early, late⟩
        exact ⟨middle, ⟨next, first, early⟩, late⟩
      · rintro ⟨middle, ⟨next, first, early⟩, late⟩
        exact ⟨next, first, middle, early, late⟩

/-- A history of some events is one of any events that step as these do, by induction. -/
theorem weaken (run : Sequence step before events after)
    (implies : ∀ event ∈ events, ∀ before after, step before event after → weaker before event after)
    : Sequence weaker before events after := by
  induction run with
  | nil => exact .nil
  | cons first rest ih =>
      refine .cons (implies _ List.mem_cons_self _ _ first) (ih ?_)
      exact fun event member => implies event (List.mem_cons_of_mem _ member)

/-- What each of the events preserves, all of them preserve; by induction on the history. -/
theorem keeps (run : Sequence step before events after) (keep : World → Prop)
    (preserves : ∀ event ∈ events, ∀ before after, step before event after → keep before → keep after)
    (initial : keep before)
    : keep after := by
  induction run with
  | nil => exact initial
  | cons first rest ih =>
      refine ih (fun event member => preserves event (List.mem_cons_of_mem _ member)) ?_
      exact preserves _ List.mem_cons_self _ _ first initial

/-- A relation between worlds that each event respects holds between both ends, by induction. -/
theorem relates {relation : World → World → Prop} (run : Sequence step before events after)
    (refl : ∀ world, relation world world)
    (trans : ∀ {first second third}, relation first second → relation second third → relation first third)
    (steps : ∀ event ∈ events, ∀ before after, step before event after → relation before after)
    : relation before after :=
  run.keeps (relation before)
    (fun event member _ _ taken related => trans related (steps event member _ _ taken))
    (refl before)

/-- What is kept of the events so far and the world they led to, by induction on the history
with any events before it.
-/
theorem history (run : Sequence step before events after) (keep : List Event → World → Prop)
    (preserves : ∀ past before event after, step before event after → keep past before →
      keep (past ++ [event]) after)
    (initial : keep [] before)
    : keep events after := by
  have along {before after : World} {events : List Event} (run : Sequence step before events after)
      : ∀ past, keep past before → keep (past ++ events) after := by
    induction run with
    | nil =>
        intro past kept
        rwa [List.append_nil]
    | @cons before middle after event more first rest ih =>
        intro past kept
        simpa using ih (past ++ [event]) (preserves past _ _ _ first kept)
  simpa using along run [] initial

/-- A history whose every step another system follows, under an invariant, is a history of that
system; by induction.
-/
theorem simulates {Shown Label : Type} {follows : Shown → Label → Shown → Prop}
    (run : Sequence step before events after) (keep : World → Prop) (view : World → Shown)
    (label : Event → Label)
    (steps : ∀ event ∈ events, ∀ before after, step before event after → keep before →
      follows (view before) (label event) (view after) ∧ keep after)
    (initial : keep before)
    : Sequence follows (view before) (events.map label) (view after) ∧ keep after := by
  induction run with
  | nil => exact ⟨.nil, initial⟩
  | cons first rest ih =>
      obtain ⟨taken, kept⟩ := steps _ List.mem_cons_self _ _ first initial
      obtain ⟨more, final⟩ :=
        ih (fun event member => steps event (List.mem_cons_of_mem _ member)) kept
      exact ⟨.cons taken more, final⟩

/-- A history cut at one of its events. -/
theorem cut (run : Sequence step before events after) (member : event ∈ events)
    : ∃ earlier later middle next, events = earlier ++ event :: later
        ∧ Sequence step before earlier middle ∧ step middle event next
        ∧ Sequence step next later after := by
  obtain ⟨earlier, later, rfl⟩ := List.append_of_mem member
  obtain ⟨middle, early, late⟩ := append_iff.mp run
  obtain ⟨next, taken, rest⟩ := cons_iff.mp late
  exact ⟨earlier, later, middle, next, rfl, early, taken, rest⟩

/-- Two different events of a history, in the order in which they happened. -/
theorem before_or_after {first second : Event} (firstIn : first ∈ events) (secondIn : second ∈ events)
    (different : first ≠ second)
    : (∃ earlier later, events = earlier ++ first :: later ∧ second ∈ later)
      ∨ ∃ earlier later, events = earlier ++ second :: later ∧ first ∈ later := by
  obtain ⟨earlier, later, rfl⟩ := List.append_of_mem firstIn
  rcases List.mem_append.mp secondIn with early | late
  · obtain ⟨front, back, rfl⟩ := List.append_of_mem early
    exact .inr ⟨front, back ++ first :: later, by simp, by simp⟩
  · rcases List.mem_cons.mp late with rfl | rest
    · exact absurd rfl different
    · exact .inl ⟨earlier, later, rfl, rest⟩

end Sequence

end Atomic

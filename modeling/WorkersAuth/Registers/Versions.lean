import Mathlib.Data.List.Induction

/-! A register whose value is replaced by installing a version and rewritten in place.
Installing makes a new version current. A revision names the version it was computed from
and changes the register only while that version is current, so one that comes too late
changes nothing.
-/

namespace Registers

/-- What is done to the register: a version is installed, or a version's value rewritten. -/
inductive VersionEvent (ν α : Type) where
  | install (version : ν) (value : α)
  | revise (version : ν) (value : α)

variable {ν α : Type}

/-- What was installed last. -/
def installed (events : List (VersionEvent ν α)) : Option (ν × α) :=
  events.foldl
    (fun last event =>
      match event with
      | .install version value => some (version, value)
      | .revise .. => last)
    none

/-- Every revision of a version keeps what the value installed under it stands for. -/
def Honest (keeps : α → α → Prop) (events : List (VersionEvent ν α)) : Prop :=
  ∀ before version value after, events = before ++ .revise version value :: after
    → ∀ first, .install version first ∈ before → keeps first value

variable {keeps : α → α → Prop} {events before after : List (VersionEvent ν α)}
  {event : VersionEvent ν α} {version : ν} {value : α}

@[simp] theorem installed_install (events : List (VersionEvent ν α)) (version : ν) (value : α)
    : installed (events ++ [.install version value]) = some (version, value) := by
  simp [installed]

@[simp] theorem installed_revise (events : List (VersionEvent ν α)) (version : ν) (value : α)
    : installed (events ++ [.revise version value]) = installed events := by
  simp [installed]

/-- What was installed last is among the events, and nothing was installed after it; by
induction on the events from the end.
-/
theorem installed_split (last : installed events = some (version, value))
    : ∃ before after, events = before ++ .install version value :: after
      ∧ ∀ event ∈ after, ∀ other first, event ≠ .install other first := by
  induction events using List.reverseRecOn with
  | nil => simp [installed] at last
  | append_singleton events event ih =>
      cases event with
      | install other first =>
          rw [installed_install] at last
          cases last
          exact ⟨events, [], rfl, by simp⟩
      | revise other revised =>
          rw [installed_revise] at last
          obtain ⟨before, after, rfl, quiet⟩ := ih last
          refine ⟨before, after ++ [.revise other revised], by simp, fun event member => ?_⟩
          rcases List.mem_append.mp member with old | new
          · exact quiet event old
          · cases List.mem_singleton.mp new
            exact fun _ _ same => by cases same

/-- Honesty is of the whole history and so of its beginning. -/
theorem Honest.earlier (honest : Honest keeps events) (earlier : before <+: events)
    : Honest keeps before := by
  obtain ⟨rest, rfl⟩ := earlier
  rintro first version value after rfl
  exact honest first version value (after ++ rest) (by simp)

/-- One more event keeps a history honest, when a revision keeps what was installed. -/
theorem Honest.append (honest : Honest keeps events)
    (revision : ∀ version value, event = .revise version value
      → ∀ first, .install version first ∈ events → keeps first value)
    : Honest keeps (events ++ [event]) := by
  intro before version value after split
  rcases List.eq_nil_or_concat after with rfl | ⟨shorter, last, rfl⟩
  · obtain ⟨rfl, same⟩ := List.append_inj' split rfl
    exact revision version value (List.singleton_inj.mp same)
  · rw [List.concat_eq_append, ← List.cons_append, ← List.append_assoc] at split
    exact honest before version value shorter (List.append_inj' split rfl).1

theorem honest_nil : Honest keeps ([] : List (VersionEvent ν α)) := by
  intro before version value after split
  simp at split

variable [DecidableEq ν]

/-- The register after one event. -/
def VersionEvent.apply (register : Option (ν × α)) : VersionEvent ν α → Option (ν × α)
  | .install version value => some (version, value)
  | .revise version value =>
      if register.map Prod.fst = some version then some (version, value) else register

/-- The register after some events, oldest first. -/
def current (events : List (VersionEvent ν α)) : Option (ν × α) :=
  events.foldl VersionEvent.apply none

@[simp] theorem current_append (events : List (VersionEvent ν α)) (event : VersionEvent ν α)
    : current (events ++ [event]) = event.apply (current events) := by
  simp [current]

/-- The version that is current is the one installed last, by induction on the events from
the end.
-/
theorem current_version (events : List (VersionEvent ν α))
    : (current events).map Prod.fst = (installed events).map Prod.fst := by
  induction events using List.reverseRecOn with
  | nil => rfl
  | append_singleton events event ih =>
      cases event with
      | install version value => simp [VersionEvent.apply]
      | revise version value =>
          rw [current_append, installed_revise, ← ih]
          simp only [VersionEvent.apply]
          split
          · next same => simp [same]
          · rfl

/-- Something is current once something was installed, by induction on the events from the end. -/
theorem current_isSome_iff
    : (current events).isSome ↔ ∃ version value, .install version value ∈ events := by
  induction events using List.reverseRecOn with
  | nil => simp [current]
  | append_singleton events event ih =>
      rw [current_append]
      cases event with
      | install version value => exact ⟨fun _ => ⟨version, value, by simp⟩, fun _ => rfl⟩
      | revise version value =>
          have same : ((VersionEvent.revise version value).apply (current events)).isSome
              = (current events).isSome := by
            cases now : current events with
            | none => simp [VersionEvent.apply]
            | some pair =>
                simp only [VersionEvent.apply]
                split <;> rfl
          rw [same, ih]
          simp

/-- The current value stands for what the value installed last stood for, however often it
was rewritten; by induction on the events from the end.
-/
theorem Honest.current_keeps (honest : Honest keeps events) (refl : ∀ value, keeps value value)
    (now : current events = some (version, value))
    : ∃ first, installed events = some (version, first) ∧ keeps first value := by
  induction events using List.reverseRecOn generalizing value with
  | nil => simp [current] at now
  | append_singleton events event ih =>
      have earlier : Honest keeps events := honest.earlier (List.prefix_append _ _)
      rw [current_append] at now
      cases event with
      | install other first =>
          cases now
          exact ⟨value, installed_install .., refl value⟩
      | revise other revised =>
          rw [installed_revise]
          simp only [VersionEvent.apply] at now
          split at now
          · next same =>
              cases now
              obtain ⟨⟨_, first⟩, last, rfl⟩ := Option.map_eq_some_iff.mp (current_version events ▸ same)
              obtain ⟨before, after, split, _⟩ := installed_split last
              exact ⟨first, last, honest events _ _ [] rfl first (by simp [split])⟩
          · exact ih earlier now

end Registers

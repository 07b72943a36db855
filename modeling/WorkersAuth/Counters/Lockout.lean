import Mathlib.Data.List.Basic
import Mathlib.Data.Nat.Basic

/-! Lockout guards.
A guard counts the attempts granted since its last reset and can be locked once they are
used up. Attempts are granted one at a time and only while the guard is open, so the
attempts of any run are bounded by its resets.
-/

namespace Counters

variable {τ : Type}

/-- The attempts granted since the last reset, and the lock. -/
structure Guard (τ : Type) where
  failed : Nat
  lockedAt : Option τ

/-- What happens to a guard: an attempt is granted or refused, a lock is tried, a reset. -/
inductive GuardEvent (τ : Type) where
  | grant
  | refuse
  | lock (now : τ)
  | reset
  deriving DecidableEq

namespace GuardEvent

/-- The guard after an event. A guard that does not exist yet is created by the first grant. -/
def apply (max : Nat) : GuardEvent τ → Option (Guard τ) → Option (Guard τ)
  | .grant, none => some ⟨1, none⟩
  | .grant, some guard => some { guard with failed := guard.failed + 1 }
  | .refuse, guard => guard
  | .lock now, guard =>
      guard.map (fun guard =>
        if max ≤ guard.failed then { guard with lockedAt := some (guard.lockedAt.getD now) }
        else guard)
  | .reset, guard => guard.map (fun _ => ⟨0, none⟩)

/-- An attempt is granted only by an open guard with attempts left. -/
def Possible (max : Nat) : GuardEvent τ → Option (Guard τ) → Prop
  | .grant, some guard => guard.failed < max ∧ guard.lockedAt = none
  | _, _ => True

end GuardEvent

/-- The attempts in use; none before the guard exists. -/
def failures (guard : Option (Guard τ)) : Nat :=
  (guard.map Guard.failed).getD 0

/-- The guard exists and is locked. -/
def Locked (guard : Option (Guard τ)) : Prop :=
  (guard.bind Guard.lockedAt).isSome

/-- Never more than the maximum, and locked only at the maximum. -/
def Guard.Sound (max : Nat) (guard : Guard τ) : Prop :=
  guard.failed ≤ max ∧ (guard.lockedAt.isSome → guard.failed = max)

-----------------------------------------------------------------------------------------
-- One event
-----------------------------------------------------------------------------------------

section Event

variable {max : Nat} {guard : Option (Guard τ)} {event : GuardEvent τ}

/-- Every possible event keeps the guard sound, by cases on the event. -/
theorem Guard.Sound.apply (positive : 0 < max) (sound : ∀ one ∈ guard, one.Sound max)
    (possible : event.Possible max guard)
    : ∀ one ∈ event.apply max guard, one.Sound max := by
  cases guard with
  | none =>
      cases event with
      | grant =>
          rintro _ ⟨⟩
          exact ⟨positive, nofun⟩
      | refuse | lock now | reset => nofun
  | some current =>
      have kept := sound current rfl
      cases event with
      | grant =>
          rintro _ ⟨⟩
          exact ⟨possible.1, fun locked => by simp [possible.2] at locked⟩
      | refuse => exact sound
      | lock now =>
          rintro _ ⟨⟩
          dsimp only
          split
          · next full => exact ⟨kept.1, fun _ => Nat.le_antisymm kept.1 full⟩
          · exact kept
      | reset =>
          rintro _ ⟨⟩
          exact ⟨Nat.zero_le _, nofun⟩

/-- Only grants and resets move the attempts in use, by cases on the event. -/
theorem GuardEvent.failures_apply (max : Nat) (event : GuardEvent τ) (guard : Option (Guard τ))
    : failures (event.apply max guard)
      = match event with
        | .grant => failures guard + 1
        | .reset => 0
        | _ => failures guard := by
  cases event <;> cases guard
  case lock.some now guard =>
    simp only [GuardEvent.apply, failures, Option.map_some, Option.getD_some]
    split <;> rfl
  all_goals rfl

/-- An event that locks an open guard is a lock, by cases on the event. -/
theorem GuardEvent.eq_lock_of_locks (unlocked : ¬Locked guard)
    (locked : Locked (event.apply max guard))
    : ∃ now, event = .lock now := by
  cases event with
  | lock now => exact ⟨now, rfl⟩
  | grant | refuse | reset =>
      cases guard <;> simp_all [Locked, GuardEvent.apply]

end Event

-----------------------------------------------------------------------------------------
-- Runs
-----------------------------------------------------------------------------------------

/-- A sequence of possible events, oldest first. -/
inductive GuardRun (max : Nat) : Option (Guard τ) → List (GuardEvent τ) → Option (Guard τ) → Prop
  | nil {guard} : GuardRun max guard [] guard
  | cons {guard event events final} (possible : event.Possible max guard)
    (later : GuardRun max (event.apply max guard) events final)
    : GuardRun max guard (event :: events) final

namespace GuardRun

variable [DecidableEq τ] {max : Nat} {first final : Option (Guard τ)}
  {events earlier later : List (GuardEvent τ)}

omit [DecidableEq τ] in
/-- One possible event. -/
theorem single {event : GuardEvent τ} (possible : event.Possible max first)
    : GuardRun max first [event] (event.apply max first) :=
  .cons possible .nil

omit [DecidableEq τ] in
@[simp] theorem nil_iff : GuardRun max first [] final ↔ final = first := by
  constructor
  · rintro ⟨⟩
    rfl
  · rintro rfl
    exact .nil

omit [DecidableEq τ] in
@[simp] theorem single_iff {event : GuardEvent τ}
    : GuardRun max first [event] final
      ↔ event.Possible max first ∧ final = event.apply max first := by
  constructor
  · rintro (_ | ⟨possible, ⟨⟩⟩)
    exact ⟨possible, rfl⟩
  · rintro ⟨possible, rfl⟩
    exact .single possible

omit [DecidableEq τ] in
/-- A run splits wherever its events do, by induction on the first part. -/
theorem of_append (run : GuardRun max first (earlier ++ later) final)
    : ∃ middle, GuardRun max first earlier middle ∧ GuardRun max middle later final := by
  induction earlier generalizing first with
  | nil => exact ⟨first, .nil, run⟩
  | cons event events ih =>
      cases run with
      | cons possible rest =>
          obtain ⟨middle, left, right⟩ := ih rest
          exact ⟨middle, .cons possible left, right⟩

omit [DecidableEq τ] in
/-- Runs compose, by induction on the first. -/
theorem append {middle : Option (Guard τ)} (left : GuardRun max first earlier middle)
    (right : GuardRun max middle later final)
    : GuardRun max first (earlier ++ later) final := by
  induction left with
  | nil => exact right
  | cons possible _ ih => exact .cons possible (ih right)

omit [DecidableEq τ] in
/-- A run keeps the guard sound, by induction on the run. -/
theorem sound (run : GuardRun max first events final) (positive : 0 < max)
    (initial : ∀ one ∈ first, one.Sound max)
    : ∀ one ∈ final, one.Sound max := by
  induction run with
  | nil => exact initial
  | cons possible _ ih => exact ih (Guard.Sound.apply positive initial possible)

/-- Without a reset every grant counts, by induction on the run. -/
theorem failures_eq (run : GuardRun max first events final) (noReset : .reset ∉ events)
    : failures final = failures first + events.count .grant := by
  induction run with
  | nil => rfl
  | @cons guard event events final possible _ ih =>
      obtain ⟨here, later⟩ := not_or.mp (fun either => noReset (List.mem_cons.mpr either))
      rw [ih later, GuardEvent.failures_apply]
      cases event with
      | grant => simp only [List.count_cons_self]; omega
      | reset => exact absurd rfl here
      | refuse | lock now => rw [List.count_cons_of_ne (by nofun)]

omit [DecidableEq τ] in
/-- A sound guard has at most the maximum in use. -/
theorem failures_le {guard : Option (Guard τ)} (sound : ∀ one ∈ guard, one.Sound max)
    : failures guard ≤ max := by
  cases guard with
  | none => exact Nat.zero_le _
  | some current => exact (sound current rfl).1

/-- Between two resets at most the maximum is granted. -/
theorem grants_le (run : GuardRun max first events final) (positive : 0 < max)
    (initial : ∀ one ∈ first, one.Sound max) (noReset : .reset ∉ events)
    : events.count .grant ≤ max := by
  have bound := failures_le (run.sound positive initial)
  have counted := run.failures_eq noReset
  omega

/-- Over a whole run each reset allows the maximum once more, by induction on the run. -/
theorem grants_le_resets (run : GuardRun max first events final) (positive : 0 < max)
    (initial : ∀ one ∈ first, one.Sound max)
    : failures first + events.count .grant ≤ max * events.count .reset + failures final := by
  induction run with
  | nil => simp
  | @cons guard event events final possible _ ih =>
      have used := failures_le initial
      have rest := ih (Guard.Sound.apply positive initial possible)
      rw [GuardEvent.failures_apply] at rest
      cases event with
      | grant =>
          rw [List.count_cons_self, List.count_cons_of_ne (by nofun)]
          simp only at rest
          omega
      | reset =>
          rw [List.count_cons_self, List.count_cons_of_ne (by nofun), Nat.mul_succ]
          simp only at rest
          omega
      | refuse | lock now =>
          rw [List.count_cons_of_ne (by nofun), List.count_cons_of_ne (by nofun)]
          exact rest

/-- The grants of a run are bounded by its resets. -/
theorem grants_le_mul (run : GuardRun max first events final) (positive : 0 < max)
    (initial : ∀ one ∈ first, one.Sound max)
    : events.count .grant ≤ max * (events.count .reset + 1) := by
  have bound := failures_le (run.sound positive initial)
  have counted := run.grants_le_resets positive initial
  rw [Nat.mul_succ]
  omega

end GuardRun

end Counters

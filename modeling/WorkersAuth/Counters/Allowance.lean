import Mathlib.Algebra.Order.Group.Defs
import Mathlib.Data.List.Count

/-! Allowances with a deadline.
An allowance counts what was used of it until its deadline. Asking for a new one before the
deadline changes nothing; asking later refills it, until one lifetime ahead.
-/

namespace Counters

variable {τ : Type} [LinearOrder τ] [Add τ]

/-- What was used, and until when it counts. -/
structure Allowance (τ : Type) where
  used : Nat
  deadline : τ

/-- What happens to an allowance: it is asked for anew, after its deadline or before, and one
use of it is granted or refused.
-/
inductive AllowanceEvent (τ : Type) where
  | refill (now : τ)
  | carry (now : τ)
  | grant
  | refuse

namespace AllowanceEvent

def isRefill : AllowanceEvent τ → Bool
  | .refill _ => true
  | _ => false

def isGrant : AllowanceEvent τ → Bool
  | .grant => true
  | _ => false

/-- The allowance after an event. -/
def apply (lifetime : τ) : AllowanceEvent τ → Option (Allowance τ) → Option (Allowance τ)
  | .refill now, _ => some ⟨0, now + lifetime⟩
  | .carry _, allowance => allowance
  | .grant, allowance => allowance.map (fun one => { one with used := one.used + 1 })
  | .refuse, allowance => allowance

/-- A refill waits for the deadline, and a use is granted only while some is left. -/
def Possible (max : Nat) : AllowanceEvent τ → Option (Allowance τ) → Prop
  | .refill now, allowance => ∀ one ∈ allowance, one.deadline ≤ now
  | .carry now, allowance => ∃ one ∈ allowance, now < one.deadline
  | .grant, allowance => ∃ one ∈ allowance, one.used < max
  | .refuse, _ => True

end AllowanceEvent

/-- A sequence of possible events, oldest first. -/
inductive AllowanceRun (max : Nat) (lifetime : τ)
    : Option (Allowance τ) → List (AllowanceEvent τ) → Option (Allowance τ) → Prop
  | nil {allowance} : AllowanceRun max lifetime allowance [] allowance
  | cons {allowance event events final} (possible : event.Possible max allowance)
    (later : AllowanceRun max lifetime (event.apply lifetime allowance) events final)
    : AllowanceRun max lifetime allowance (event :: events) final

namespace AllowanceRun

variable {max : Nat} {lifetime : τ} {first final : Option (Allowance τ)}
  {earlier later : List (AllowanceEvent τ)}

/-- A run splits wherever its events do, by induction on the first part. -/
theorem of_append (run : AllowanceRun max lifetime first (earlier ++ later) final)
    : ∃ middle, AllowanceRun max lifetime first earlier middle
        ∧ AllowanceRun max lifetime middle later final := by
  induction earlier generalizing first with
  | nil => exact ⟨first, .nil, run⟩
  | cons event events ih =>
      cases run with
      | cons possible rest =>
          obtain ⟨middle, left, right⟩ := ih rest
          exact ⟨middle, .cons possible left, right⟩

/-- One possible event. -/
theorem single {event : AllowanceEvent τ} (possible : event.Possible max first)
    : AllowanceRun max lifetime first [event] (event.apply lifetime first) :=
  .cons possible .nil

/-- Runs compose, by induction on the first. -/
theorem append {middle : Option (Allowance τ)} (left : AllowanceRun max lifetime first earlier middle)
    (right : AllowanceRun max lifetime middle later final)
    : AllowanceRun max lifetime first (earlier ++ later) final := by
  induction left with
  | nil => exact right
  | cons possible _ ih => exact .cons possible (ih right)

/-- Without a refill every grant counts against the same deadline, by induction on the run. -/
theorem counted {one : Allowance τ} {events : List (AllowanceEvent τ)}
    (run : AllowanceRun max lifetime (some one) events final)
    (noRefill : ∀ event ∈ events, ¬event.isRefill) (within : one.used ≤ max)
    : final = some ⟨one.used + events.countP AllowanceEvent.isGrant, one.deadline⟩
      ∧ one.used + events.countP AllowanceEvent.isGrant ≤ max := by
  induction events generalizing one with
  | nil =>
      cases run
      exact ⟨rfl, within⟩
  | cons event events ih =>
      obtain ⟨here, rest⟩ := List.forall_mem_cons.mp noRefill
      cases run with
      | cons possible later =>
          cases event with
          | refill now => exact absurd rfl here
          | carry now | refuse => exact ih later rest within
          | grant =>
              obtain ⟨_, ⟨⟩, room⟩ := possible
              rw [List.countP_cons_of_pos rfl, ← Nat.add_assoc, Nat.add_right_comm]
              exact ih later rest room

/-- After a refill at most the maximum is granted until the next one, and that one comes at
least a lifetime later.
-/
theorem refills_apart {now : τ} {events : List (AllowanceEvent τ)}
    (run : AllowanceRun max lifetime first (.refill now :: (events ++ later)) final)
    (noRefill : ∀ event ∈ events, ¬event.isRefill)
    : events.countP AllowanceEvent.isGrant ≤ max
      ∧ ∀ next, later.head? = some (.refill next) → now + lifetime ≤ next := by
  cases run with
  | cons _ run =>
      obtain ⟨middle, left, right⟩ := run.of_append
      obtain ⟨rfl, bounded⟩ := left.counted noRefill (Nat.zero_le max)
      refine ⟨by simpa using bounded, fun next comes => ?_⟩
      cases right with
      | nil => exact absurd comes nofun
      | cons possible _ =>
          cases Option.some.inj comes
          exact possible _ rfl

end AllowanceRun

end Counters

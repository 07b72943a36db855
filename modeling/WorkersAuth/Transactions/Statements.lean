import Mathlib.Data.List.Basic

/-! Statements run as one transaction.
A statement answers something and leaves a state, or fails. A transaction runs its
statements in order, each on what the previous one left, and either all of them take effect
or none: a failing statement, or a fault of the database at any point up to the commit,
leaves the state as it was.
-/

namespace Transactions

variable {σ α : Type}

/-- What a statement answers and leaves; nothing when it fails. -/
abbrev Statement (σ α : Type) := σ → Option (α × σ)

/-- The statements in order, the first one at `position`. The database may fail at any
position, whatever the statement there; the position after the last is the commit.
-/
def runAll (faults : Nat → Bool) (position : Nat) : List (Statement σ α) → Statement σ (List α)
  | [], state => if faults position then none else some ([], state)
  | statement :: rest, state =>
      if faults position then none
      else
        (statement state).bind fun (answer, next) =>
          (runAll faults (position + 1) rest next).map fun (answers, last) =>
            (answer :: answers, last)

/-- All of the statements or none: the answers and the new state, or the old state. -/
def transaction (faults : Nat → Bool) (statements : List (Statement σ α)) (state : σ)
    : Option (List α) × σ :=
  match runAll faults 0 statements state with
  | some (answers, last) => (some answers, last)
  | none => (none, state)

/-- A database without faults. -/
def faultless : Nat → Bool := fun _ => false

/-- A run is stopped exactly by the faults up to its commit, by induction over its statements.
-/
theorem runAll_faults (faults : Nat → Bool) (position : Nat) (statements : List (Statement σ α))
    (state : σ)
    : runAll faults position statements state
      = if ∃ later ≤ statements.length, faults (position + later) then none
        else runAll faultless position statements state := by
  induction statements generalizing position state with
  | nil => simp [runAll, faultless]
  | cons statement rest ih =>
      have reached : (∃ later ≤ (statement :: rest).length, faults (position + later))
          ↔ faults position ∨ ∃ later ≤ rest.length, faults (position + 1 + later) := by
        constructor
        · intro ⟨later, bound, fault⟩
          cases later with
          | zero => exact .inl fault
          | succ later =>
              have shorter : later ≤ rest.length := Nat.le_of_succ_le_succ bound
              exact .inr ⟨later, shorter, by rwa [Nat.add_assoc, Nat.add_comm 1]⟩
        · intro fault
          rcases fault with fault | ⟨later, bound, fault⟩
          · exact ⟨0, Nat.zero_le _, fault⟩
          · exact ⟨later + 1, Nat.succ_le_succ bound, by rwa [Nat.add_assoc, Nat.add_comm 1] at fault⟩
      rw [runAll, runAll, if_congr reached rfl rfl]
      cases stopped : faults position with
      | true => simp
      | false =>
          cases ran : statement state with
          | none => simp [faultless]
          | some pair =>
              simp only [Option.bind_some, ih, Bool.false_eq_true, false_or, if_false, faultless]
              split <;> rfl

/-- A transaction is rolled back by a fault up to its commit, and else does what it does
without faults.
-/
theorem transaction_faults (faults : Nat → Bool) (statements : List (Statement σ α)) (state : σ)
    : transaction faults statements state
      = if ∃ position ≤ statements.length, faults position then (none, state)
        else transaction faultless statements state := by
  unfold transaction
  rw [runAll_faults]
  by_cases fault : ∃ position ≤ statements.length, faults position
  · simp only [Nat.zero_add, fault, if_true]
  · simp only [Nat.zero_add, fault, if_false]

end Transactions

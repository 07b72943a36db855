import Mathlib.Algebra.Group.Nat.Defs
import Mathlib.Algebra.Order.BigOperators.Group.Finset
import Mathlib.Algebra.Order.Group.Defs
import Mathlib.Data.List.Count

/-! A window that tallies hits and how many of them failed.
A window opens with its first hit and lasts one length; a hit after that opens the next one. The open
window's tallies are the hits since it opened, as long as time does not go back between hits.
-/

namespace Counters

variable {τ : Type} [LinearOrder τ]

/-- When a window opened, the hits in it and how many of them failed. -/
structure Tally (τ : Type) where
  start : τ
  hits : Nat
  failures : Nat

/-- One hit more in the open window, or the first hit of a new one. -/
def Tally.hit [Sub τ] (length now : τ) (failed : Bool) : Option (Tally τ) → Tally τ
  | none => ⟨now, 1, failed.toNat⟩
  | some tally =>
      if tally.start ≤ now - length then ⟨now, 1, failed.toNat⟩
      else { tally with hits := tally.hits + 1, failures := tally.failures + failed.toNat }

/-- The window tallies these hits, each its time and whether it failed, oldest first. -/
structure Tallied [Add τ] (length : τ) (hits : List (τ × Bool)) (tally : Option (Tally τ))
    : Prop where
  fresh : tally = none → hits = []
  opened : ∀ open_ ∈ tally, ∃ hit ∈ hits, hit.1 = open_.start
  within : ∀ open_ ∈ tally, ∀ hit ∈ hits, hit.1 < open_.start + length
  all : ∀ open_ ∈ tally, open_.hits = hits.countP (fun hit => open_.start ≤ hit.1)
  failed : ∀ open_ ∈ tally, open_.failures = hits.countP (fun hit => hit.2 && open_.start ≤ hit.1)

section

variable [AddCommGroup τ] {length now : τ} {hits : List (τ × Bool)} {tally : Option (Tally τ)}
  {failed : Bool}

theorem Tallied.start : Tallied length ([] : List (τ × Bool)) none where
  fresh _ := rfl
  opened := by simp
  within := by simp
  all := by simp
  failed := by simp

variable [IsOrderedAddMonoid τ]

/-- A window that opens now, when all hits so far are over. -/
theorem Tallied.open_ (positive : 0 < length) (over_ : ∀ hit ∈ hits, hit.1 < now)
    : Tallied length (hits ++ [(now, failed)]) (some ⟨now, 1, failed.toNat⟩) := by
  have none_since (counts : τ × Bool → Bool)
      : hits.countP (fun hit => counts hit && now ≤ hit.1) = 0 := by
    refine List.countP_eq_zero.mpr (fun hit member => ?_)
    simp [over_ hit member]
  have none_ : hits.countP (fun hit => decide (now ≤ hit.1)) = 0 := by
    simpa using none_since (fun _ => true)
  refine ⟨by simp, ?_, ?_, ?_, ?_⟩
  · rintro _ ⟨⟩
    exact ⟨(now, failed), by simp, rfl⟩
  · rintro _ ⟨⟩ hit member
    rcases List.mem_append.mp member with earlier | last
    · exact (over_ hit earlier).trans (lt_add_of_pos_right now positive)
    · exact List.mem_singleton.mp last ▸ lt_add_of_pos_right now positive
  · rintro _ ⟨⟩
    simp [List.countP_append, none_]
  · rintro _ ⟨⟩
    cases failed <;> simp [List.countP_append, none_since (fun hit => hit.2)]

/-- One hit more keeps the window's tallies, by cases on whether it is still open. -/
theorem Tallied.hit (tallied : Tallied length hits tally) (positive : 0 < length)
    (later : ∀ hit ∈ hits, hit.1 ≤ now)
    : Tallied length (hits ++ [(now, failed)]) (some (Tally.hit length now failed tally)) := by
  cases tally with
  | none =>
      obtain rfl := tallied.fresh rfl
      exact .open_ positive (by simp)
  | some tally =>
      by_cases lapsed : tally.start ≤ now - length
      · rw [Tally.hit, if_pos lapsed]
        refine .open_ positive (fun hit member => ?_)
        exact (tallied.within tally rfl hit member).trans_le (le_sub_iff_add_le.mp lapsed)
      · rw [Tally.hit, if_neg lapsed]
        obtain ⟨first, there, same⟩ := tallied.opened tally rfl
        have since : tally.start ≤ now := same ▸ later first there
        have before : now < tally.start + length := sub_lt_iff_lt_add.mp (not_le.mp lapsed)
        refine ⟨by simp, ?_, ?_, ?_, ?_⟩
        · rintro _ ⟨⟩
          exact ⟨first, List.mem_append_left _ there, same⟩
        · rintro _ ⟨⟩ hit member
          rcases List.mem_append.mp member with earlier | last
          · exact tallied.within tally rfl hit earlier
          · exact List.mem_singleton.mp last ▸ before
        · rintro _ ⟨⟩
          simp [List.countP_append, since, tallied.all tally rfl]
        · rintro _ ⟨⟩
          cases failed <;> simp [List.countP_append, since, tallied.failed tally rfl]

end

/-- Entries that each key accounts for at most so often need that many keys. -/
theorem length_le_mul_card {α κ : Type} [DecidableEq κ] (entries : List α) (key : α → κ)
    (most : Nat)
    (bounded : ∀ some_key, entries.countP (fun entry => key entry = some_key) ≤ most)
    : entries.length ≤ most * (entries.map key).toFinset.card := by
  calc
    entries.length = (entries.map key).length := (List.length_map ..).symm
    _ = ∑ some_key ∈ (entries.map key).toFinset, (entries.map key).count some_key :=
      (List.sum_toFinset_count_eq_length _).symm
    _ ≤ ∑ _some_key ∈ (entries.map key).toFinset, most := by
      refine Finset.sum_le_sum (fun some_key _ => ?_)
      rw [List.count, List.countP_map]
      exact bounded some_key
    _ = most * (entries.map key).toFinset.card := by
      rw [Finset.sum_const, Nat.nsmul_eq_mul, Nat.mul_comm]

end Counters

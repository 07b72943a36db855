import Mathlib.Order.MinMax

/-! Records that are kept until a deadline.
A record with a bound serves its purpose when the bound reaches a deadline; once the deadline
has passed, nobody needs the record. Such a record may be raised and, with a cutoff that is
not in the future, collected.
-/

namespace Windows

variable {τ : Type} [LinearOrder τ] {bound later : Option τ} {deadline time cutoff : τ}

/-- A record's bound reaches the deadline, or the deadline has passed. -/
def Retained (bound : Option τ) (deadline time : τ) : Prop :=
  (∃ reach ∈ bound, deadline ≤ reach) ∨ deadline ≤ time

/-- Every bound is still there, or a higher one. -/
def Raised (bound later : Option τ) : Prop :=
  ∀ reach ∈ bound, ∃ higher ∈ later, reach ≤ higher

theorem Raised.refl (bound : Option τ) : Raised bound bound :=
  fun reach member => ⟨reach, member, le_rfl⟩

theorem Raised.trans {middle : Option τ} (first : Raised bound middle) (second : Raised middle later)
    : Raised bound later := by
  intro reach member
  obtain ⟨higher, there, le⟩ := first reach member
  obtain ⟨highest, last, above⟩ := second higher there
  exact ⟨highest, last, le.trans above⟩

namespace Retained

/-- A record is retained while its bound rises and time passes. -/
theorem raise {now : τ} (retained : Retained bound deadline time) (raised : Raised bound later)
    (forward : time ≤ now)
    : Retained later deadline now := by
  rcases retained with ⟨reach, member, reaches⟩ | past
  · obtain ⟨higher, there, le⟩ := raised reach member
    exact .inl ⟨higher, there, reaches.trans le⟩
  · exact .inr (past.trans forward)

/-- A record that is collected has passed its deadline. -/
theorem collect (retained : Retained bound deadline time) (past : cutoff ≤ time)
    : Retained (bound.filter (fun reach => decide (cutoff < reach))) deadline time := by
  rcases retained with ⟨reach, member, reaches⟩ | past
  · by_cases kept : cutoff < reach
    · exact .inl ⟨reach, by simp [Option.mem_def.mp member, kept], reaches⟩
    · exact .inr (reaches.trans ((not_lt.mp kept).trans past))
  · exact .inr past

/-- Before the deadline the record is there. -/
theorem reach (retained : Retained bound deadline time) (early : time < deadline)
    : ∃ reach ∈ bound, deadline ≤ reach :=
  retained.resolve_right early.not_ge

end Retained

end Windows

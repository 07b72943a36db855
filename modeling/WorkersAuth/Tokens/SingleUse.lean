import Mathlib.Data.List.Count
import Mathlib.Data.List.Induction

/-! A place for one token that can be used once.
Issuing a token replaces the one that is there; taking it leaves the place empty. When
nothing is taken from an empty place, no token is taken twice.
-/

namespace Tokens

variable {τ : Type}

/-- What happens to the place: a token is issued, or the one there is taken. -/
inductive TokenEvent (τ : Type) where
  | issue (token : τ)
  | take

namespace TokenEvent

def isTake : TokenEvent τ → Bool
  | .issue _ => false
  | .take => true

def isIssue : TokenEvent τ → Bool
  | .issue _ => true
  | .take => false

end TokenEvent

/-- The token that is there: the last one issued, unless it has been taken since. -/
def current (events : List (TokenEvent τ)) : Option τ :=
  match events.getLast? with
  | some (.issue token) => some token
  | _ => none

/-- Nothing is ever taken from an empty place. -/
def Honest (events : List (TokenEvent τ)) : Prop :=
  ∀ earlier later, events = earlier ++ .take :: later → (current earlier).isSome

@[simp] theorem current_nil : current ([] : List (TokenEvent τ)) = none := rfl

@[simp] theorem current_issue (events : List (TokenEvent τ)) (token : τ)
    : current (events ++ [.issue token]) = some token := by
  simp [current]

@[simp] theorem current_take (events : List (TokenEvent τ))
    : current (events ++ [.take]) = none := by
  simp [current]

variable {events : List (TokenEvent τ)}

theorem honest_nil : Honest ([] : List (TokenEvent τ)) := by
  intro earlier later split
  simp at split

/-- One more event keeps the place honest, unless it takes from an empty one. -/
theorem Honest.snoc {event : TokenEvent τ} (honest : Honest events)
    (legal : event = .take → (current events).isSome)
    : Honest (events ++ [event]) := by
  intro earlier later split
  rcases List.eq_nil_or_concat later with rfl | ⟨shorter, last, rfl⟩
  · obtain ⟨same, last⟩ := List.append_inj' split rfl
    exact same ▸ legal (List.singleton_inj.mp last)
  · rw [List.concat_eq_append, ← List.cons_append, ← List.append_assoc] at split
    exact honest earlier shorter (List.append_inj' split rfl).1

/-- An honest place was honest at every moment before. -/
theorem Honest.of_append {later : List (TokenEvent τ)} (honest : Honest (events ++ later))
    : Honest events := by
  rintro earlier rest rfl
  exact honest earlier (rest ++ later) (by simp)

/-- No more tokens are taken than issued, and one fewer while one is there; by induction on
the events from the last one back.
-/
theorem Honest.takes_le (honest : Honest events)
    : events.countP TokenEvent.isTake + (current events).toList.length
      ≤ events.countP TokenEvent.isIssue := by
  induction events using List.reverseRecOn with
  | nil => simp
  | append_singleton earlier event ih =>
      have before := ih honest.of_append
      simp only [List.countP_append, List.countP_singleton]
      cases event with
      | issue token =>
          simp only [current_issue, TokenEvent.isTake, TokenEvent.isIssue, Option.toList_some,
            List.length_singleton]
          grind
      | take =>
          obtain ⟨token, there⟩ := Option.isSome_iff_exists.mp (honest earlier [] rfl)
          simp only [there, Option.toList_some, List.length_singleton] at before
          simpa [TokenEvent.isTake, TokenEvent.isIssue] using before

/-- Between two takings a token is issued. -/
theorem Honest.issue_between {earlier between later : List (TokenEvent τ)}
    (honest : Honest (earlier ++ .take :: between ++ .take :: later))
    : ∃ token, .issue token ∈ between := by
  have there := honest (earlier ++ .take :: between) later rfl
  rcases List.eq_nil_or_concat between with rfl | ⟨shorter, last, rfl⟩
  · simp at there
  · cases last with
    | issue token => exact ⟨token, by simp⟩
    | take =>
        have last : earlier ++ .take :: shorter.concat .take
            = (earlier ++ .take :: shorter) ++ [.take] := by simp
        rw [last, current_take] at there
        contradiction

end Tokens

import Mathlib.Algebra.Order.Group.Defs

/-! Fixed-window counters with reservations.
A counter holds one window: when it started and how many units are taken in it. A holder
reserves one unit against a maximum and may give it back; a window that has lapsed is
replaced by a new one at the next reservation, and units of the old one are forgotten.
-/

namespace Counters

variable {τ : Type} [LinearOrder τ]

/-- The one window a counter holds. -/
structure Window (τ : Type) where
  start : τ
  count : Nat

namespace Window

/-- Taking one unit at `now`: a new window where none is open or the open one has lapsed,
else one more unit of the open one while there are fewer than `max`.
-/
def reserve [Sub τ] (length now : τ) (max : Nat) : Option (Window τ) → Option (Window τ)
  | none => some ⟨now, 1⟩
  | some window =>
      if window.start ≤ now - length then some ⟨now, 1⟩
      else if window.count < max then some { window with count := window.count + 1 }
      else none

/-- Giving one unit of the window that started at `start` back. -/
def refund (start : τ) (window : Window τ) : Window τ :=
  if window.start = start ∧ 0 < window.count then { window with count := window.count - 1 }
  else window

end Window

/-- The counter agrees with its holders, counted by the window they hold a unit of: the open
window counts its own holders, nobody holds a unit of a later one, and no window ever has
more than `max` of them.
-/
structure Balanced (max : Nat) (window : Option (Window τ)) (holders : τ → Nat) : Prop where
  counted : ∀ current ∈ window, current.count = holders current.start
  bounded : ∀ start, holders start ≤ max
  latest : ∀ start, holders start ≠ 0 → ∃ current ∈ window, start ≤ current.start

namespace Balanced

variable {max : Nat} {window : Option (Window τ)} {holders : τ → Nat}

/-- A counter without a window and without holders is balanced. -/
theorem empty (max : Nat) : Balanced max (none : Option (Window τ)) (fun _ => 0) :=
  ⟨by simp, fun _ => Nat.zero_le _, by simp⟩

/-- A later window has no holders yet. -/
theorem later_eq_zero (balanced : Balanced max window holders) {start : τ}
    (later : ∀ current ∈ window, current.start < start)
    : holders start = 0 := by
  by_contra held
  obtain ⟨current, found, le⟩ := balanced.latest start held
  exact absurd le (not_le.mpr (later current found))

/-- Opening a window at a later start than all before, with its first holder. -/
theorem restart (balanced : Balanced max window holders) {now : τ} (positive : 0 < max)
    (later : ∀ current ∈ window, current.start < now)
    : Balanced max (some ⟨now, 1⟩) (fun start => holders start + if start = now then 1 else 0) := by
  have fresh := balanced.later_eq_zero later
  refine ⟨?_, fun start => ?_, fun start held => ⟨_, rfl, ?_⟩⟩
  · rintro _ ⟨⟩
    simp [fresh]
  · by_cases here : start = now
    · rw [if_pos here, here, fresh]
      exact positive
    · simpa [here] using balanced.bounded start
  · by_cases here : start = now
    · exact here.le
    · rw [if_neg here] at held
      obtain ⟨current, found, le⟩ := balanced.latest start held
      exact le.trans (later current found).le

/-- Taking one more unit of an open window that is not full. -/
theorem extend {current : Window τ} (balanced : Balanced max (some current) holders)
    (room : current.count < max)
    : Balanced max (some { current with count := current.count + 1 })
        (fun start => holders start + if start = current.start then 1 else 0) := by
  have counted := balanced.counted current rfl
  refine ⟨?_, fun start => ?_, fun start held => ⟨_, rfl, ?_⟩⟩
  · rintro _ ⟨⟩
    simp [counted]
  · by_cases here : start = current.start
    · rw [if_pos here, here, ← counted]
      exact room
    · simpa [here] using balanced.bounded start
  · by_cases here : start = current.start
    · exact here.le
    · rw [if_neg here] at held
      obtain ⟨_, ⟨⟩, le⟩ := balanced.latest start held
      exact le

/-- A reservation keeps the counter balanced, with one holder more: it opens a later window,
or takes a unit of an open one that is not full.
-/
theorem reserve [AddCommGroup τ] [IsOrderedAddMonoid τ] (balanced : Balanced max window holders)
    {length now : τ} {taken : Window τ} (positive : 0 < max) (lasting : 0 < length)
    (reserved : Window.reserve length now max window = some taken)
    : Balanced max (some taken)
        (fun start => holders start + if start = taken.start then 1 else 0) := by
  cases window with
  | none =>
      cases reserved
      exact balanced.restart positive (by simp)
  | some current =>
      simp only [Window.reserve] at reserved
      split at reserved
      · next lapsed =>
          cases reserved
          refine balanced.restart positive ?_
          rintro _ ⟨⟩
          exact lapsed.trans_lt (sub_lt_self now lasting)
      · split at reserved
        · next room =>
            cases reserved
            exact balanced.extend room
        · contradiction

/-- A refund by a holder keeps the counter balanced, with that holder gone: in the open
window the count falls with it, and an older window is not counted any more.
-/
theorem refund (balanced : Balanced max window holders) (start : τ) (held : holders start ≠ 0)
    : Balanced max (window.map (Window.refund start))
        (fun other => holders other - if other = start then 1 else 0) := by
  obtain ⟨current, rfl, _⟩ := balanced.latest start held
  have counted := balanced.counted current rfl
  refine ⟨?_, fun other => (Nat.sub_le _ _).trans (balanced.bounded other), ?_⟩
  · rintro _ ⟨⟩
    simp only [Window.refund]
    by_cases same : current.start = start
    · subst same
      simp [counted, Nat.pos_of_ne_zero held]
    · simp [same, counted]
  · intro other remaining
    obtain ⟨_, ⟨⟩, le⟩ := balanced.latest other (fun gone => remaining (by simp [gone]))
    refine ⟨_, rfl, ?_⟩
    simp only [Window.refund]
    split <;> exact le

end Balanced

end Counters

import WorkersAuth.Counters.WindowRuns

/-! The times of reservations that may be given back.
Giving a unit back lowers the count of the open window and leaves its start, so the windows of the
reservations are those of a counter of hits: a window is left only once it has lapsed. The count says
nothing any more about how many reservations were made in a window, but the times still lie in it.
-/

namespace Counters

variable {τ : Type} [LinearOrder τ] [AddCommGroup τ] {length : τ} {told : List (τ × τ)} {current : Option τ}

/-- The reservations made so far, each its time and the start of its window, oldest first, and the start
of the open window: those of some run of hits.
-/
def Tracks (length : τ) (told : List (τ × τ)) (start : Option τ) : Prop :=
  ∃ visits window, VisitRun .hits length 1 visits window
    ∧ visits.map (fun visit => (visit.time, visit.window.start)) = told
    ∧ window.map Window.start = start

/-- A counter without reservations. -/
theorem Tracks.start : Tracks length [] none :=
  ⟨[], none, .start, rfl, rfl⟩

/-- A unit that is reserved is one more hit. -/
theorem Tracks.reserve {now : τ} {max : Nat} {window : Option (Window τ)} {taken : Window τ}
    (tracks : Tracks length told (window.map Window.start))
    (later : ∀ earlier ∈ told, earlier.1 ≤ now)
    (granted : Window.reserve length now max window = some taken)
    : Tracks length (told ++ [(now, taken.start)]) (some taken.start) := by
  obtain ⟨visits, ghost, run, rfl, opened⟩ := tracks
  have hit_start : (Window.hit length now ghost).start = taken.start := by
    cases window with
    | none =>
        cases Option.map_eq_none_iff.mp opened
        cases granted
        rfl
    | some current =>
        obtain ⟨other, rfl, same⟩ := Option.map_eq_some_iff.mp opened
        simp only [Window.reserve] at granted
        simp only [Window.hit, same]
        split at granted
        · next lapsed =>
            cases granted
            rw [if_pos lapsed]
        · next lasting =>
            split at granted
            · cases granted
              rw [if_neg lasting]
            · cases granted
  refine ⟨_, _, run.visit (fun earlier member => later _ (List.mem_map_of_mem member)), ?_, ?_⟩
  · simp [Policy.visit, hit_start]
  · simp [Policy.visit, hit_start]

/-- The reservations made within one length lie in two windows. -/
theorem Tracks.two_windows [IsOrderedAddMonoid τ] (tracks : Tracks length told current)
    (positive : 0 < length) (within : τ → Prop)
    (short : ∀ first last, within first → within last → last < first + length)
    : ∃ one other, ∀ entry ∈ told, within entry.1 → entry.2 = one ∨ entry.2 = other := by
  obtain ⟨visits, window, run, rfl, -⟩ := tracks
  obtain ⟨one, other, covers⟩ := (run.exact positive Nat.one_pos).two_windows within short
  refine ⟨one, other, fun entry member here => ?_⟩
  obtain ⟨visit, made, rfl⟩ := List.mem_map.mp member
  exact covers visit made here

end Counters

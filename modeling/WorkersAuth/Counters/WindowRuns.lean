import Mathlib.Data.List.Count
import Mathlib.Data.List.Induction
import Mathlib.Data.List.Pairwise
import WorkersAuth.Counters.FixedWindow

/-! Runs of a fixed-window counter.
Every call lands in one window. A counter either counts every call and admits those within its
limit, or counts only the calls that it admits. Both admit exactly the first calls of each window,
windows lie at least one length apart, and so no interval of one length meets three of them.
-/

namespace Counters

variable {τ : Type} [LinearOrder τ]

/-- One more call in the window, or a new window where none is open. -/
def Window.hit [Sub τ] (length now : τ) : Option (Window τ) → Window τ
  | none => ⟨now, 1⟩
  | some window =>
      if window.start ≤ now - length then ⟨now, 1⟩
      else { window with count := window.count + 1 }

/-- Which calls a counter counts: all of them, or those that it admits. -/
inductive Policy where
  | hits
  | reservations
  deriving DecidableEq

/-- A call: when it was made, the window as it leaves it, and whether it was counted there. -/
structure Visit (τ : Type) where
  time : τ
  window : Window τ
  counted : Bool

namespace Policy

/-- What a call does to the counter's window. -/
def visit [Sub τ] (policy : Policy) (length now : τ) (max : Nat) (window : Option (Window τ))
    : Visit τ :=
  match policy with
  | .hits => ⟨now, Window.hit length now window, true⟩
  | .reservations =>
      match Window.reserve length now max window with
      | some taken => ⟨now, taken, true⟩
      | none => ⟨now, window.getD ⟨now, 0⟩, false⟩

/-- A hit is admitted within the limit, a reservation when it was counted. -/
def admits (policy : Policy) (max : Nat) (visit : Visit τ) : Bool :=
  match policy with
  | .hits => visit.window.count ≤ max
  | .reservations => visit.counted

/-- What a window's count is after some calls in it. -/
def countAfter (policy : Policy) (max calls : Nat) : Nat :=
  match policy with
  | .hits => calls
  | .reservations => min calls max

end Policy

/-- The calls that fell into the window opened at a start. -/
def callsIn (log : List (Visit τ)) (start : τ) : Nat :=
  log.countP (fun visit => visit.window.start = start)

/-- Those of them that were counted. -/
def countedIn (log : List (Visit τ)) (start : τ) : Nat :=
  log.countP (fun visit => visit.counted && visit.window.start = start)

/-- The calls of a counter that began without a window, oldest first, at times that do not fall. -/
inductive VisitRun [Sub τ] (policy : Policy) (length : τ) (max : Nat)
    : List (Visit τ) → Option (Window τ) → Prop
  | start : VisitRun policy length max [] none
  | visit {log window} {now : τ} (run : VisitRun policy length max log window)
      (later : ∀ earlier ∈ log, earlier.time ≤ now)
      : VisitRun policy length max (log ++ [policy.visit length now max window])
          (some (policy.visit length now max window).window)

/-- Two calls share a window, or the later one's opened after the earlier call and at least one
length after the earlier one's.
-/
def Apart [Add τ] (length : τ) (earlier later : Window τ) (time : τ) : Prop :=
  earlier.start = later.start ∨ time ≤ later.start ∧ earlier.start + length ≤ later.start

-----------------------------------------------------------------------------------------
-- One call
-----------------------------------------------------------------------------------------

/-- What a call can do: open a window, count in the open one, or find it full and leave it. -/
theorem Policy.visit_cases [Sub τ] (policy : Policy) (length now : τ) (max : Nat)
    (window : Option (Window τ))
    : ((∀ current ∈ window, current.start ≤ now - length)
        ∧ policy.visit length now max window = ⟨now, ⟨now, 1⟩, true⟩)
      ∨ ∃ current, window = some current ∧ now - length < current.start
        ∧ ((policy = .hits ∨ current.count < max)
            ∧ policy.visit length now max window
              = ⟨now, { current with count := current.count + 1 }, true⟩
          ∨ policy = .reservations ∧ max ≤ current.count
            ∧ policy.visit length now max window = ⟨now, current, false⟩) := by
  cases window with
  | none =>
      left
      cases policy <;> simp [Policy.visit, Window.hit, Window.reserve]
  | some current =>
      by_cases lapsed : current.start ≤ now - length
      · left
        cases policy <;> simp [Policy.visit, Window.hit, Window.reserve, lapsed]
      · right
        refine ⟨current, rfl, not_le.mp lapsed, ?_⟩
        cases policy with
        | hits => simp [Policy.visit, Window.hit, lapsed]
        | reservations =>
            by_cases room : current.count < max
            · simp [Policy.visit, Window.reserve, lapsed, room]
            · simp [Policy.visit, Window.reserve, lapsed, room, not_lt.mp room]

-----------------------------------------------------------------------------------------
-- Runs
-----------------------------------------------------------------------------------------

section Runs

variable [AddCommGroup τ] {policy : Policy} {length now : τ} {max : Nat} {log : List (Visit τ)}
  {window : Option (Window τ)}

/-- What the calls so far are to the counter: each lies in its window, windows lie apart, and the
open window counts its calls.
-/
structure Exact (policy : Policy) (length : τ) (max : Nat) (log : List (Visit τ))
    (window : Option (Window τ))
    : Prop where
  fresh : window = none → log = []
  opened : ∀ current ∈ window, ∃ visit ∈ log, visit.window.start = current.start
  within : ∀ visit ∈ log, visit.window.start ≤ visit.time
    ∧ visit.time < visit.window.start + length
  apart : log.Pairwise (fun earlier later => Apart length earlier.window later.window earlier.time)
  latest : ∀ current ∈ window, ∀ visit ∈ log, Apart length visit.window current visit.time
  counts : ∀ current ∈ window, current.count = countedIn log current.start
  calls : ∀ current ∈ window,
    current.count = policy.countAfter max (callsIn log current.start)
  answers : ∀ before visit, before ++ [visit] <+: log →
    (visit.counted → visit.window.count = countedIn before visit.window.start + 1)
    ∧ (policy.admits max visit ↔ callsIn before visit.window.start < max)

/-- A counter without calls is exact. -/
theorem Exact.start : Exact policy length max [] none where
  fresh _ := rfl
  opened := by simp
  within := by simp
  apart := .nil
  latest := by simp
  counts := by simp
  calls := by simp
  answers := by simp

/-- One more call, in a window that goes with those of the calls before. -/
theorem Exact.append (exact : Exact policy length max log window) {visit : Visit τ}
    (within : visit.window.start ≤ visit.time ∧ visit.time < visit.window.start + length)
    (apart : ∀ earlier ∈ log, Apart length earlier.window visit.window earlier.time)
    (counts : visit.window.count
      = countedIn log visit.window.start + if visit.counted then 1 else 0)
    (calls : visit.window.count = policy.countAfter max (callsIn log visit.window.start + 1))
    (admits : policy.admits max visit ↔ callsIn log visit.window.start < max)
    : Exact policy length max (log ++ [visit]) (some visit.window) where
  fresh := by simp
  opened := by
    rintro _ ⟨⟩
    exact ⟨visit, by simp, rfl⟩
  within := by
    intro some_visit member
    rcases List.mem_append.mp member with earlier | last
    · exact exact.within some_visit earlier
    · exact List.mem_singleton.mp last ▸ within
  apart := by
    refine List.pairwise_append.mpr ⟨exact.apart, List.pairwise_singleton _ _, ?_⟩
    intro earlier member last last_member
    exact List.mem_singleton.mp last_member ▸ apart earlier member
  latest := by
    rintro _ ⟨⟩ some_visit member
    rcases List.mem_append.mp member with earlier | last
    · exact apart some_visit earlier
    · exact List.mem_singleton.mp last ▸ .inl rfl
  counts := by
    rintro _ ⟨⟩
    rw [counts]
    cases counted : visit.counted <;> simp [countedIn, List.countP_append, counted]
  calls := by
    rintro _ ⟨⟩
    rw [calls]
    simp [callsIn, List.countP_append]
  answers := by
    intro before some_visit leads
    rcases List.prefix_concat_iff.mp leads with same | earlier
    · obtain ⟨rfl, last⟩ := List.append_inj' same rfl
      obtain rfl := List.singleton_inj.mp last
      refine ⟨fun counted => ?_, admits⟩
      rw [counts, if_pos counted]
    · exact exact.answers before some_visit earlier

variable [IsOrderedAddMonoid τ]

/-- A window that opens now is after the windows of all calls before. -/
theorem Exact.apart_now (exact : Exact policy length max log window) (positive : 0 < length)
    (later : ∀ earlier ∈ log, earlier.time ≤ now)
    (lapsed : ∀ current ∈ window, current.start ≤ now - length)
    : ∀ visit ∈ log, visit.time ≤ now ∧ visit.window.start + length ≤ now := by
  intro visit member
  refine ⟨later visit member, ?_⟩
  cases window with
  | none => simp [exact.fresh rfl] at member
  | some current =>
      have elapsed : current.start + length ≤ now := le_sub_iff_add_le.mp (lapsed current rfl)
      rcases exact.latest current rfl visit member with same | ⟨-, before⟩
      · exact same ▸ elapsed
      · exact before.trans ((le_add_of_nonneg_right positive.le).trans elapsed)

/-- No call before lies in a window that opens now. -/
theorem countP_eq_zero_of_apart (positive : 0 < length)
    (before : ∀ visit ∈ log, visit.time ≤ now ∧ visit.window.start + length ≤ now)
    : callsIn log now = 0 ∧ countedIn log now = 0 := by
  have other : ∀ visit ∈ log, visit.window.start ≠ now := by
    intro visit member same
    have elapsed := (before visit member).2
    rw [same] at elapsed
    exact absurd elapsed (not_le.mpr (lt_add_of_pos_right now positive))
  constructor
  · refine List.countP_eq_zero.mpr (fun visit member => ?_)
    simpa using other visit member
  · refine List.countP_eq_zero.mpr (fun visit member => ?_)
    simp [other visit member]

/-- A call keeps the counter exact, by cases on whether it opens a window, counts in the open one
or finds it full.
-/
theorem Exact.visit (exact : Exact policy length max log window) (positive : 0 < length)
    (room : 0 < max) (later : ∀ earlier ∈ log, earlier.time ≤ now)
    : Exact policy length max (log ++ [policy.visit length now max window])
        (some (policy.visit length now max window).window) := by
  rcases policy.visit_cases length now max window with
    ⟨lapsed, opens⟩ | ⟨current, rfl, lasting, ⟨free, takes⟩ | ⟨rfl, full, refuses⟩⟩
  · have before := exact.apart_now positive later lapsed
    obtain ⟨no_calls, none_counted⟩ := countP_eq_zero_of_apart positive before
    rw [opens]
    refine exact.append ⟨le_rfl, lt_add_of_pos_right now positive⟩
      (fun earlier member => .inr (before earlier member)) ?_ ?_ ?_
    · simp [none_counted]
    · cases policy <;> simp [Policy.countAfter, no_calls, Nat.one_le_iff_ne_zero.mpr room.ne']
    · rw [no_calls]
      cases policy with
      | hits =>
          simp only [Policy.admits, decide_eq_true_eq]
          omega
      | reservations => simp [Policy.admits, room]
  · have started : current.start ≤ now := by
      obtain ⟨visit, member, same⟩ := exact.opened current rfl
      exact same ▸ (exact.within visit member).1.trans (later visit member)
    have calls := exact.calls current rfl
    rw [takes]
    refine exact.append ⟨started, sub_lt_iff_lt_add.mp lasting⟩ (exact.latest current rfl) ?_ ?_ ?_
    · simp [exact.counts current rfl]
    · cases policy with
      | hits => simpa [Policy.countAfter] using calls
      | reservations =>
          have free : current.count < max := free.resolve_left (by simp)
          simp only [Policy.countAfter] at calls ⊢
          omega
    · cases policy with
      | hits =>
          simp only [Policy.countAfter] at calls
          simp only [Policy.admits, decide_eq_true_eq]
          omega
      | reservations =>
          have free : current.count < max := free.resolve_left (by simp)
          simp only [Policy.countAfter] at calls
          simp only [Policy.admits, true_iff]
          omega
  · have started : current.start ≤ now := by
      obtain ⟨visit, member, same⟩ := exact.opened current rfl
      exact same ▸ (exact.within visit member).1.trans (later visit member)
    have calls := exact.calls current rfl
    simp only [Policy.countAfter] at calls
    rw [refuses]
    refine exact.append ⟨started, sub_lt_iff_lt_add.mp lasting⟩ (exact.latest current rfl) ?_ ?_ ?_
    · simp [exact.counts current rfl]
    · simp only [Policy.countAfter]
      omega
    · simp only [Policy.admits, Bool.false_eq_true, false_iff]
      omega

/-- Every run is exact, by induction on its calls. -/
theorem VisitRun.exact (run : VisitRun policy length max log window) (positive : 0 < length)
    (room : 0 < max)
    : Exact policy length max log window := by
  induction run with
  | start => exact .start
  | visit _ later ih => exact ih.visit positive room later

-----------------------------------------------------------------------------------------
-- How many calls are admitted
-----------------------------------------------------------------------------------------

omit [IsOrderedAddMonoid τ] in
/-- The admitted calls of one window are its first ones, so no more than the limit; by induction
from the end.
-/
theorem Exact.admittedIn_le (exact : Exact policy length max log window) (start : τ)
    : log.countP (fun visit => policy.admits max visit && visit.window.start = start) ≤ max := by
  have first (before : List (Visit τ)) (leads : before <+: log)
      : before.countP (fun visit => policy.admits max visit && visit.window.start = start)
        ≤ min (callsIn before start) max := by
    induction before using List.reverseRecOn with
    | nil => simp
    | append_singleton before visit ih =>
        have bound := ih ((List.prefix_append before [visit]).trans leads)
        have admits := (exact.answers before visit leads).2
        simp only [callsIn, List.countP_append, List.countP_singleton] at bound ⊢
        by_cases here : visit.window.start = start
        · rw [here] at admits
          by_cases admitted : policy.admits max visit = true
          · have room := admits.mp admitted
            simp only [callsIn] at room
            simp only [admitted, here, decide_true, Bool.and_true, if_true]
            omega
          · simp only [admitted, here, decide_true, Bool.and_true, if_true, Bool.false_eq_true, if_false]
            omega
        · simp only [here, decide_false, Bool.and_false, Bool.false_eq_true, if_false]
          omega
  exact (first log List.prefix_rfl).trans (min_le_right _ _)

/-- The calls made within one length lie in two windows: a third would open a length after the
second, and that one opened after the first call.
-/
theorem Exact.two_windows (exact : Exact policy length max log window) (within : τ → Prop)
    (short : ∀ first last, within first → within last → last < first + length)
    : ∃ one other, ∀ visit ∈ log, within visit.time →
        visit.window.start = one ∨ visit.window.start = other := by
  classical
  have apart : (log.filter (fun visit => within visit.time)).Pairwise
      (fun earlier later => Apart length earlier.window later.window earlier.time) :=
    exact.apart.filter _
  have inside : ∀ visit ∈ log.filter (fun visit => within visit.time),
      visit ∈ log ∧ within visit.time := by
    intro visit member
    simpa using List.mem_filter.mp member
  have listed : ∀ visit ∈ log, within visit.time →
      visit ∈ log.filter (fun visit => within visit.time) := by
    intro visit member here
    exact List.mem_filter.mpr ⟨member, by simpa using here⟩
  generalize log.filter (fun visit => within visit.time) = calls at apart inside listed
  cases calls with
  | nil => exact ⟨0, 0, fun visit member here => absurd (listed visit member here) (by simp)⟩
  | cons first rest =>
      obtain ⟨from_first, among_rest⟩ := List.pairwise_cons.mp apart
      have first_within := (inside first List.mem_cons_self).2
      let agree (one other : Visit τ) : Prop :=
        one.window.start ≠ first.window.start → other.window.start ≠ first.window.start →
          one.window.start = other.window.start
      have symmetric : Std.Symm agree :=
        ⟨fun _ _ same new_other new_one => (same new_one new_other).symm⟩
      have neighbours : rest.Pairwise agree := by
        refine among_rest.imp_of_mem ?_
        intro one other one_mem other_mem separated new_one _
        refine separated.resolve_right ?_
        rintro ⟨-, beyond⟩
        have opened : first.time ≤ one.window.start :=
          ((from_first one one_mem).resolve_left (Ne.symm new_one)).1
        obtain ⟨other_logged, other_within⟩ := inside other (List.mem_cons_of_mem _ other_mem)
        have late : first.time + length ≤ other.time :=
          ((add_le_add_left opened length).trans beyond).trans (exact.within other other_logged).1
        exact absurd (short _ _ first_within other_within) (not_lt.mpr late)
      have agreed := List.Pairwise.forall_of_forall (R := agree) (fun _ _ _ _ => rfl) neighbours
      by_cases second : ∃ visit ∈ rest, visit.window.start ≠ first.window.start
      · obtain ⟨second, second_mem, new⟩ := second
        refine ⟨first.window.start, second.window.start, fun visit member here => ?_⟩
        rcases List.mem_cons.mp (listed visit member here) with rfl | later
        · exact .inl rfl
        · by_cases same : visit.window.start = first.window.start
          · exact .inl same
          · exact .inr (agreed later second_mem same new)
      · refine ⟨first.window.start, first.window.start, fun visit member here => .inl ?_⟩
        rcases List.mem_cons.mp (listed visit member here) with rfl | later
        · rfl
        · by_contra new
          exact second ⟨visit, later, new⟩

/-- What is counted under a condition is counted under one of two that cover it, by induction. -/
theorem countP_le_add {α : Type} (entries : List α) (counts one other : α → Bool)
    (covers : ∀ entry ∈ entries, counts entry → one entry ∨ other entry)
    : entries.countP counts ≤ entries.countP one + entries.countP other := by
  induction entries with
  | nil => simp
  | cons head rest ih =>
      have later := ih (fun entry member => covers entry (List.mem_cons_of_mem _ member))
      have here := covers head List.mem_cons_self
      simp only [List.countP_cons]
      by_cases counted : counts head = true
      · rcases here counted with first | second
        · simp only [counted, first, if_true]
          split <;> omega
        · simp only [counted, second, if_true]
          split <;> omega
      · simp only [counted, if_false, Bool.false_eq_true]
        omega

/-- At most twice the limit is admitted within one length. -/
theorem Exact.admitted_le (exact : Exact policy length max log window) (within : τ → Bool)
    (short : ∀ first last, within first → within last → last < first + length)
    : log.countP (fun visit => policy.admits max visit && within visit.time) ≤ 2 * max := by
  obtain ⟨one, other, covers⟩ := exact.two_windows (fun time => within time = true) short
  have split := countP_le_add log (fun visit => policy.admits max visit && within visit.time)
    (fun visit => policy.admits max visit && visit.window.start = one)
    (fun visit => policy.admits max visit && visit.window.start = other) (by
      intro visit member counted
      simp only [Bool.and_eq_true] at counted
      simpa [counted.1] using covers visit member counted.2)
  have first := exact.admittedIn_le one
  have second := exact.admittedIn_le other
  omega

-----------------------------------------------------------------------------------------
-- Refusals
-----------------------------------------------------------------------------------------

omit [IsOrderedAddMonoid τ] in
/-- A call is refused only by an open window that is full, which it leaves open. -/
theorem VisitRun.refused {visit : Visit τ}
    (run : VisitRun policy length max (log ++ [visit]) window) (room : 0 < max)
    (refused : ¬policy.admits max visit)
    : window = some visit.window ∧ visit.time - length < visit.window.start
      ∧ max ≤ visit.window.count := by
  generalize whole : log ++ [visit] = calls at run
  cases run with
  | start => simp at whole
  | @visit earlier before now run later =>
      obtain ⟨-, last⟩ := List.append_inj' whole rfl
      obtain rfl := List.singleton_inj.mp last
      refine ⟨rfl, ?_⟩
      rcases policy.visit_cases length now max before with
        ⟨-, opens⟩ | ⟨current, -, lasting, ⟨free, takes⟩ | ⟨rfl, full, refuses⟩⟩
      · rw [opens] at refused
        cases policy <;> simp [Policy.admits] at refused
        omega
      · rw [takes] at refused ⊢
        cases policy with
        | hits =>
            simp only [Policy.admits, decide_eq_true_eq, not_le] at refused
            exact ⟨lasting, refused.le⟩
        | reservations => simp [Policy.admits] at refused
      · rw [refuses]
        exact ⟨lasting, full⟩

omit [IsOrderedAddMonoid τ] in
/-- The next call on a full window is admitted exactly when the window is over. -/
theorem Policy.admits_full (policy : Policy) {current : Window τ} (room : 0 < max)
    (full : max ≤ current.count)
    : policy.admits max (policy.visit length now max (some current)) ↔ current.start ≤ now - length := by
  rcases policy.visit_cases length now max (some current) with
    ⟨lapsed, opens⟩ | ⟨_, ⟨⟩, lasting, ⟨free, takes⟩ | ⟨rfl, -, refuses⟩⟩
  · have elapsed := lapsed current rfl
    rw [opens]
    cases policy with
    | hits =>
        have admitted : 1 ≤ max := room
        simp only [Policy.admits, elapsed, decide_eq_true_eq, admitted]
    | reservations => simpa [Policy.admits] using elapsed
  · rw [takes]
    cases policy with
    | hits =>
        simp only [Policy.admits, decide_eq_true_eq, not_le.mpr lasting, iff_false]
        omega
    | reservations => exact absurd (free.resolve_left (by simp)) (not_lt.mpr full)
  · rw [refuses]
    simpa [Policy.admits] using lasting

end Runs

end Counters

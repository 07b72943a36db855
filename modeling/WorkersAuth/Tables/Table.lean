import Mathlib.Data.List.Nodup

/-! Tables of rows with a primary key.
A table is a list of rows whose keys are pairwise different, so a duplicate row cannot be
stored. Each statement over a table is characterised by what it does to the lookup of
every key; clients reason with those lookups and never unfold the row list.
-/

namespace Tables

/-- Rows of type `ρ`, at most one for each value of their primary key. -/
structure Table (κ ρ : Type) (key : ρ → κ) where
  rows : List ρ
  unique : (rows.map key).Nodup

namespace Table

variable {κ ρ : Type} {key : ρ → κ}

/-- A table without rows. -/
def empty : Table κ ρ key := ⟨[], .nil⟩

instance : Inhabited (Table κ ρ key) := ⟨empty⟩

/-- Tables with the same rows in the same order are equal. -/
@[ext] theorem ext {first second : Table κ ρ key} (rows : first.rows = second.rows)
    : first = second := by
  cases first; cases second; cases rows; rfl

/-- Rewriting rows without changing their keys. -/
def updateWhere (table : Table κ ρ key) (selects : ρ → Bool) (change : ρ → ρ)
    (keeps : ∀ row, key (change row) = key row := by intro; rfl)
    : Table κ ρ key where
  rows := table.rows.map (fun row => if selects row then change row else row)
  unique := by
    rw [List.map_map]
    convert table.unique using 2
    funext row
    simp only [Function.comp_apply]
    split
    · exact keeps row
    · rfl

/-- Where no row is selected nothing is rewritten. -/
theorem updateWhere_unselected (table : Table κ ρ key) {selects : ρ → Bool} {change : ρ → ρ}
    (keeps : ∀ row, key (change row) = key row) (none : ∀ row ∈ table.rows, selects row = false)
    : table.updateWhere selects change keeps = table := by
  apply ext
  calc
    _ = table.rows.map id := List.map_congr_left (fun row member => if_neg (by simp [none row member]))
    _ = table.rows := List.map_id _

/-- Removing the selected rows. -/
def deleteWhere (table : Table κ ρ key) (selects : ρ → Bool) : Table κ ρ key where
  rows := table.rows.filter (fun row => !selects row)
  unique := table.unique.sublist (List.filter_sublist.map key)

/-- How many rows are selected. -/
def countWhere (table : Table κ ρ key) (selects : ρ → Bool) : Nat :=
  table.rows.countP selects

variable [DecidableEq κ]

/-- The row with a given key, if there is one. -/
def find (table : Table κ ρ key) (sought : κ) : Option ρ :=
  table.rows.find? (fun row => key row = sought)

/-- Adding a row; a row whose key is taken is refused. -/
def insert (table : Table κ ρ key) (row : ρ) : Option (Table κ ρ key) :=
  if fresh : key row ∈ table.rows.map key then
    none
  else
    some {
      rows := table.rows ++ [row]
      unique := by
        rw [List.map_append, List.map_singleton, ← List.concat_eq_append]
        exact table.unique.concat fresh
    }

/-- Adding a row, or changing the row that already has its key. -/
def upsert (table : Table κ ρ key) (row : ρ) (change : ρ → ρ)
    (keeps : ∀ row, key (change row) = key row := by intro; rfl)
    : Table κ ρ key :=
  (table.insert row).getD (table.updateWhere (fun stored => key stored = key row) change keeps)

/-- Adding a row, or changing the row that already has its key if it `applies` to it.
Answers the row as it is stored afterwards, or nothing when the stored row was left alone.
-/
def upsertReturning (table : Table κ ρ key) (row : ρ) (applies : ρ → Bool) (change : ρ → ρ)
    (keeps : ∀ row, key (change row) = key row := by intro; rfl)
    : Option ρ × Table κ ρ key :=
  let stored := table.find (key row)
  if stored.all applies then
    (some ((stored.map change).getD row), table.upsert row change keeps)
  else
    (none, table)

/-- Changing the row with one key if it `applies` to it, and answering the changed row. -/
def updateReturning (table : Table κ ρ key) (sought : κ) (applies : ρ → Bool) (change : ρ → ρ)
    (keeps : ∀ row, key (change row) = key row := by intro; rfl)
    : Option ρ × Table κ ρ key :=
  (
    ((table.find sought).filter applies).map change,
    table.updateWhere (fun row => key row = sought && applies row) change keeps
  )

/-- Removing the row with one key if it `applies` to it, and answering the removed row. -/
def deleteReturning (table : Table κ ρ key) (sought : κ) (applies : ρ → Bool)
    : Option ρ × Table κ ρ key :=
  (
    (table.find sought).filter applies,
    table.deleteWhere (fun row => key row = sought && applies row)
  )

-----------------------------------------------------------------------------------------
-- Lookups after each statement
-----------------------------------------------------------------------------------------

@[simp] theorem find_empty (sought : κ) : (empty : Table κ ρ key).find sought = none := rfl

/-- A row found under a key has that key. -/
theorem key_of_find {table : Table κ ρ key} {sought : κ} {row : ρ}
    (found : table.find sought = some row)
    : key row = sought := by
  simpa using List.find?_some found

/-- A row is stored exactly when it is found under its own key: keys are unique. -/
theorem mem_rows_iff {table : Table κ ρ key} {row : ρ}
    : row ∈ table.rows ↔ table.find (key row) = some row := by
  constructor
  · intro stored
    obtain ⟨rows, unique⟩ := table
    simp only [find] at stored ⊢
    induction rows with
    | nil => exact absurd stored List.not_mem_nil
    | cons head rest ih =>
        rw [List.map_cons, List.nodup_cons] at unique
        rcases List.mem_cons.mp stored with rfl | later
        · simp
        · have different : key head ≠ key row := fun same =>
            unique.1 (same ▸ List.mem_map_of_mem later)
          rw [List.find?_cons_of_neg (by simpa using different)]
          exact ih unique.2 later
  · exact List.mem_of_find?_eq_some

/-- No row has a key that is not found. -/
theorem find_eq_none_iff {table : Table κ ρ key} {sought : κ}
    : table.find sought = none ↔ sought ∉ table.rows.map key := by
  simp [find, List.find?_eq_none]

/-- An update changes a found row in place when it selects it. -/
@[simp] theorem find_updateWhere (table : Table κ ρ key) (selects : ρ → Bool)
    (change : ρ → ρ) (keeps : ∀ row, key (change row) = key row) (sought : κ)
    : (table.updateWhere selects change keeps).find sought
      = (table.find sought).map (fun row => if selects row then change row else row) := by
  simp only [find, updateWhere, List.find?_map]
  congr 2
  funext row
  simp only [Function.comp_apply]
  split
  · rw [keeps]
  · rfl

/-- A deletion hides exactly the selected rows. -/
@[simp] theorem find_deleteWhere (table : Table κ ρ key) (selects : ρ → Bool) (sought : κ)
    : (table.deleteWhere selects).find sought
      = (table.find sought).filter (fun row => !selects row) := by
  obtain ⟨rows, unique⟩ := table
  simp only [find, deleteWhere]
  induction rows with
  | nil => rfl
  | cons head rest ih =>
      rw [List.map_cons, List.nodup_cons] at unique
      have later := ih unique.2
      by_cases same : key head = sought
      · cases drop : selects head with
        | false => simp [drop, same, Option.filter]
        | true =>
            have absent : ∀ row ∈ rest, key row ≠ sought := by
              intro row member taken
              exact unique.1 (same ▸ taken ▸ List.mem_map_of_mem member)
            simp only [List.filter_cons, drop, Bool.not_true, Bool.false_eq_true, if_false,
              List.find?_cons, same, decide_true, Option.filter_some]
            rw [List.find?_eq_none]
            intro row member
            simpa using absent row (List.mem_filter.mp member).1
      · cases drop : selects head <;>
          simpa [List.filter_cons, drop, same] using later

/-- An insertion succeeds exactly when the key is free. -/
theorem insert_eq_none_iff {table : Table κ ρ key} {row : ρ}
    : table.insert row = none ↔ (table.find (key row)).isSome := by
  rw [← Option.ne_none_iff_isSome, Ne, find_eq_none_iff, not_not]
  unfold insert
  split <;> simp_all

/-- After an insertion the new row is found under its key and every other lookup is as
before.
-/
theorem find_insert {table after : Table κ ρ key} {row : ρ}
    (inserted : table.insert row = some after) (sought : κ)
    : after.find sought = if sought = key row then some row else table.find sought := by
  unfold insert at inserted
  split at inserted
  · contradiction
  · next fresh =>
      cases inserted
      simp only [find, List.find?_append]
      split
      · next same =>
          subst same
          rw [show table.rows.find? _ = none from find_eq_none_iff.mpr fresh]
          simp
      · next different =>
          simp [Ne.symm different]

/-- An upsert changes the row stored under the key, or stores the new one. -/
@[simp] theorem find_upsert (table : Table κ ρ key) (row : ρ) (change : ρ → ρ)
    (keeps : ∀ row, key (change row) = key row) (sought : κ)
    : (table.upsert row change keeps).find sought
      = if sought = key row then some (((table.find (key row)).map change).getD row)
        else table.find sought := by
  unfold upsert
  cases inserted : table.insert row with
  | some after =>
      have free : table.find (key row) = none := by
        rw [← Option.not_isSome_iff_eq_none, ← insert_eq_none_iff, inserted]
        simp
      simp [find_insert inserted, free]
  | none =>
      obtain ⟨stored, found⟩ := Option.isSome_iff_exists.mp (insert_eq_none_iff.mp inserted)
      simp only [Option.getD_none, find_updateWhere]
      split
      · next same =>
          subst same
          simp [found, key_of_find found]
      · next different =>
          cases other : table.find sought with
          | none => rfl
          | some row' => simp [key_of_find other, different]

/-- A conditional upsert answers the row it leaves under the key, unless it left the
stored row alone.
-/
theorem upsertReturning_fst (table : Table κ ρ key) (row : ρ) (applies : ρ → Bool)
    (change : ρ → ρ) (keeps : ∀ row, key (change row) = key row)
    : (table.upsertReturning row applies change keeps).1
      = if (table.find (key row)).all applies then
          some (((table.find (key row)).map change).getD row)
        else none := by
  simp only [upsertReturning]
  split <;> rfl

/-- A conditional upsert changes at most the lookup of its own key. -/
@[simp] theorem find_upsertReturning (table : Table κ ρ key) (row : ρ) (applies : ρ → Bool)
    (change : ρ → ρ) (keeps : ∀ row, key (change row) = key row) (sought : κ)
    : (table.upsertReturning row applies change keeps).2.find sought
      = if sought = key row ∧ (table.find (key row)).all applies then
          some (((table.find (key row)).map change).getD row)
        else table.find sought := by
  simp only [upsertReturning]
  split
  · next applied =>
      simp only [find_upsert, applied, and_true]
  · next refused =>
      simp only [refused, and_false, if_false, Bool.false_eq_true]

theorem updateReturning_fst (table : Table κ ρ key) (sought : κ) (applies : ρ → Bool)
    (change : ρ → ρ) (keeps : ∀ row, key (change row) = key row)
    : (table.updateReturning sought applies change keeps).1
      = ((table.find sought).filter applies).map change := rfl

theorem deleteReturning_fst (table : Table κ ρ key) (sought : κ) (applies : ρ → Bool)
    : (table.deleteReturning sought applies).1 = (table.find sought).filter applies := rfl

/-- A conditional update of one key changes at most the lookup of that key. -/
@[simp] theorem find_updateReturning (table : Table κ ρ key) (changed : κ) (applies : ρ → Bool)
    (change : ρ → ρ) (keeps : ∀ row, key (change row) = key row) (sought : κ)
    : (table.updateReturning changed applies change keeps).2.find sought
      = if sought = changed then
          (table.find sought).map (fun row => if applies row then change row else row)
        else table.find sought := by
  simp only [updateReturning, find_updateWhere]
  cases found : table.find sought with
  | none => simp
  | some row => by_cases same : sought = changed <;> simp [key_of_find found, same]

/-- A conditional deletion of one key changes at most the lookup of that key. -/
@[simp] theorem find_deleteReturning (table : Table κ ρ key) (removed : κ) (applies : ρ → Bool)
    (sought : κ)
    : (table.deleteReturning removed applies).2.find sought
      = if sought = removed then (table.find sought).filter (fun row => !applies row)
        else table.find sought := by
  simp only [deleteReturning, find_deleteWhere]
  cases found : table.find sought with
  | none => simp
  | some row => by_cases same : sought = removed <;> simp [key_of_find found, same, Option.filter]

end Table

end Tables

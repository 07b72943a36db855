import WorkersAuth.Tables.Table

/-! Tables that differ in hidden rows only.
Rows can be hidden from every statement that matters: such rows may be deleted at any moment. An update
that leaves hidden rows hidden, an insertion and a deletion of hidden rows keep two tables alike, and
whatever is read of the rows that are not hidden is the same in both.
-/

namespace Tables.Table

variable {κ ρ : Type} {key : ρ → κ} {hidden : ρ → Bool} {first second third : Table κ ρ key}

/-- The tables have the same rows in the same order, hidden ones apart. -/
def AlikeBut (hidden : ρ → Bool) (first second : Table κ ρ key) : Prop :=
  first.deleteWhere hidden = second.deleteWhere hidden

theorem AlikeBut.refl (table : Table κ ρ key) : AlikeBut hidden table table := rfl

theorem AlikeBut.symm (alike : AlikeBut hidden first second) : AlikeBut hidden second first :=
  Eq.symm alike

theorem AlikeBut.trans (one : AlikeBut hidden first second) (two : AlikeBut hidden second third)
    : AlikeBut hidden first third :=
  Eq.trans one two

/-- What is read of rows that are not hidden is the same. -/
theorem AlikeBut.filter_eq (alike : AlikeBut hidden first second) {selects : ρ → Bool}
    (shown : ∀ row, selects row = true → hidden row = false)
    : first.rows.filter selects = second.rows.filter selects := by
  have visible (table : Table κ ρ key)
      : table.rows.filter selects = (table.deleteWhere hidden).rows.filter selects := by
    rw [deleteWhere, List.filter_filter]
    refine List.filter_congr (fun row _ => ?_)
    cases chosen : selects row with
    | false => rfl
    | true => simp [shown row chosen]
  rw [visible first, visible second, show first.deleteWhere hidden = second.deleteWhere hidden from alike]

/-- More rows may be hidden. -/
theorem AlikeBut.mono (alike : AlikeBut hidden first second) {hides : ρ → Bool}
    (more : ∀ row, hidden row = true → hides row = true)
    : AlikeBut hides first second := by
  refine ext (alike.filter_eq (fun row shown => ?_))
  by_contra concealed
  simp [more row (by simpa using concealed)] at shown

theorem AlikeBut.countWhere_eq (alike : AlikeBut hidden first second) {selects : ρ → Bool}
    (shown : ∀ row, selects row = true → hidden row = false)
    : first.countWhere selects = second.countWhere selects := by
  simp only [countWhere, List.countP_eq_length_filter, alike.filter_eq shown]

/-- Deleting hidden rows is unseen. -/
theorem alikeBut_deleteWhere (table : Table κ ρ key) {selects : ρ → Bool}
    (conceals : ∀ row, selects row = true → hidden row = true)
    : AlikeBut hidden (table.deleteWhere selects) table := by
  refine ext ?_
  simp only [deleteWhere, List.filter_filter]
  refine List.filter_congr (fun row _ => ?_)
  cases chosen : selects row with
  | false => simp
  | true => simp [conceals row chosen]

/-- An update that leaves hidden rows hidden. -/
theorem AlikeBut.updateWhere (alike : AlikeBut hidden first second) {selects : ρ → Bool} {change : ρ → ρ}
    (keeps : ∀ row, key (change row) = key row)
    (stays : ∀ row, hidden row = true → hidden (if selects row then change row else row) = true)
    : AlikeBut hidden (first.updateWhere selects change keeps) (second.updateWhere selects change keeps) := by
  let update (row : ρ) : ρ := if selects row then change row else row
  have visible (table : Table κ ρ key)
      : (table.rows.map update).filter (fun row => !hidden row)
        = ((table.rows.filter (fun row => !hidden row)).map update).filter (fun row => !hidden row) := by
    induction table.rows with
    | nil => rfl
    | cons row rest ih =>
        cases concealed : hidden row with
        | false => simp only [List.map_cons, List.filter_cons, concealed, Bool.not_false, if_true, ih]
        | true =>
            have still : hidden (update row) = true := stays row concealed
            simp only [List.map_cons, List.filter_cons, concealed, still, Bool.not_true,
              Bool.false_eq_true, if_false, ih]
  have rows : first.rows.filter (fun row => !hidden row) = second.rows.filter (fun row => !hidden row) :=
    congrArg rows alike
  refine ext ?_
  change (first.rows.map update).filter _ = (second.rows.map update).filter _
  rw [visible first, visible second, rows]

variable [DecidableEq κ]

/-- A row that is not hidden is found in both or in neither. -/
theorem AlikeBut.find_eq (alike : AlikeBut hidden first second) (sought : κ)
    : (first.find sought).filter (fun row => !hidden row)
      = (second.find sought).filter (fun row => !hidden row) := by
  rw [← find_deleteWhere, ← find_deleteWhere, show first.deleteWhere hidden = second.deleteWhere hidden from alike]

/-- A row whose key is free is added at the end. -/
theorem insert_eq_some {table : Table κ ρ key} {row : ρ} (free : table.find (key row) = none)
    : ∃ after, table.insert row = some after ∧ after.rows = table.rows ++ [row] := by
  have absent : key row ∉ table.rows.map key := find_eq_none_iff.mp free
  exact ⟨_, dif_neg absent, rfl⟩

/-- Where the key of a new row is free, also among the hidden rows, it is inserted into both tables. -/
theorem AlikeBut.insert (alike : AlikeBut hidden first second) {row : ρ} {after : Table κ ρ key}
    (inserted : first.insert row = some after) (free : second.find (key row) = none)
    : ∃ image, second.insert row = some image ∧ AlikeBut hidden after image := by
  have own : first.find (key row) = none := by
    rw [← Option.not_isSome_iff_eq_none, ← insert_eq_none_iff, inserted]
    simp
  obtain ⟨grown, same, grown_rows⟩ := insert_eq_some own
  cases inserted.symm.trans same
  obtain ⟨image, added, image_rows⟩ := insert_eq_some free
  have rows : first.rows.filter (fun row => !hidden row) = second.rows.filter (fun row => !hidden row) :=
    congrArg Table.rows alike
  refine ⟨image, added, ext ?_⟩
  change after.rows.filter _ = image.rows.filter _
  rw [grown_rows, image_rows, List.filter_append, List.filter_append, rows]

end Tables.Table

import Mathlib.Data.List.DropRight

/-! Strings of UTF-16 code units, with the operations JavaScript has on them. -/

namespace Encodings

/-- A string of UTF-16 code units, which may hold unpaired surrogates. -/
abbrev Utf16 := List UInt16

instance : LawfulBEq Utf16 := inferInstance

/-- A text of characters below 128. -/
def ascii (text : String) : Utf16 := text.toList.map (fun char => .ofNat char.toNat)

/-- What `trim` removes: white space and line ends. -/
def isWhitespace (unit : UInt16) : Bool :=
  (0x09 ≤ unit.toNat && unit.toNat ≤ 0x0D) || (0x2000 ≤ unit.toNat && unit.toNat ≤ 0x200A)
  || unit.toNat ∈ [0x20, 0xA0, 0x1680, 0x2028, 0x2029, 0x202F, 0x205F, 0x3000, 0xFEFF]

/-- `text.trim()`. -/
def trim (text : Utf16) : Utf16 := (text.dropWhile isWhitespace).rdropWhile isWhitespace

/-- Some spaces. -/
def spaces (count : Nat) : Utf16 := List.replicate count 0x20

/-- Spaces around a text that has no white space of its own are trimmed. -/
theorem trim_spaces {text : Utf16} (solid : ∀ unit ∈ text, isWhitespace unit = false)
    (before after : Nat) : trim (spaces before ++ text ++ spaces after) = text := by
  have blank : ∀ count, ∀ unit ∈ spaces count, isWhitespace unit = true := by
    intro count unit member
    rw [List.eq_of_mem_replicate member]
    decide
  cases text with
  | nil =>
      have all : ∀ unit ∈ spaces before ++ [] ++ spaces after, isWhitespace unit = true := by
        intro unit member
        simp only [List.append_nil, List.mem_append] at member
        rcases member with member | member
        · exact blank before unit member
        · exact blank after unit member
      rw [trim, List.dropWhile_eq_nil_iff.mpr all]
      rfl
  | cons first rest =>
      have left : (spaces before ++ (first :: rest) ++ spaces after).dropWhile isWhitespace
          = first :: rest ++ spaces after := by
        rw [List.append_assoc, List.dropWhile_append_of_pos (blank before), List.cons_append,
          List.dropWhile_cons_of_neg (by simp [solid first List.mem_cons_self])]
      have right : (first :: rest ++ spaces after).rdropWhile isWhitespace = first :: rest := by
        rw [List.rdropWhile, List.reverse_append,
          List.dropWhile_append_of_pos (by simpa using blank after)]
        rw [← List.rdropWhile_reverse, List.reverse_reverse, List.rdropWhile_eq_self_iff]
        intro nonempty
        simp [solid _ (List.getLast_mem nonempty)]
      rw [trim, left, right]

-----------------------------------------------------------------------------------------
-- Joining
-----------------------------------------------------------------------------------------

section Joining

variable {α β : Type} {separator : List α} {parts : List (List α)}

/-- What is joined comes from the parts or the separator, by induction on the parts. -/
theorem mem_intercalate {element : α} (member : element ∈ separator.intercalate parts)
    : element ∈ separator ∨ ∃ part ∈ parts, element ∈ part := by
  induction parts with
  | nil => cases member
  | cons first rest ih =>
      cases rest with
      | nil =>
          rw [List.intercalate_singleton] at member
          exact .inr ⟨first, List.mem_cons_self, member⟩
      | cons second later =>
          rw [List.intercalate_cons_cons, List.mem_append, List.mem_append] at member
          rcases member with (inFirst | inSeparator) | inRest
          · exact .inr ⟨first, List.mem_cons_self, inFirst⟩
          · exact .inl inSeparator
          · rcases ih inRest with inSeparator | ⟨part, listed, inPart⟩
            · exact .inl inSeparator
            · exact .inr ⟨part, List.mem_cons_of_mem _ listed, inPart⟩

/-- A part is joined to some others at their end, by induction on them. -/
theorem intercalate_concat (nonempty : parts ≠ []) (last : List α)
    : separator.intercalate (parts ++ [last]) = separator.intercalate parts ++ separator ++ last := by
  induction parts with
  | nil => exact absurd rfl nonempty
  | cons first rest ih =>
      cases rest with
      | nil => simp [List.intercalate_cons_cons]
      | cons second later =>
          rw [List.cons_append, List.cons_append, List.intercalate_cons_cons,
            List.intercalate_cons_cons, ← List.cons_append, ih (List.cons_ne_nil _ _)]
          simp only [List.append_assoc]

/-- A function on the elements goes to the parts and the separator, by induction on the parts. -/
theorem map_intercalate (change : α → β)
    : (separator.intercalate parts).map change
      = (separator.map change).intercalate (parts.map (List.map change)) := by
  induction parts with
  | nil => rfl
  | cons first rest ih =>
      cases rest with
      | nil => simp
      | cons second later =>
          rw [List.intercalate_cons_cons, List.map_append, List.map_append, ih]
          simp only [List.map_cons, List.intercalate_cons_cons]

end Joining

end Encodings

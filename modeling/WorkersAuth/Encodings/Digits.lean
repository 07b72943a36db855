import Mathlib.Data.List.Induction
import Mathlib.Tactic.Ring

/-! Decimal digits of a fixed width. The digits of one width stand for the numbers below its power of
ten, each for one.
-/

namespace Encodings

/-- Every digit is one of the ten. -/
def IsDecimal (digits : List Char) : Prop := ∀ digit ∈ digits, '0' ≤ digit ∧ digit ≤ '9'

variable {digits first second : List Char}

/-- A digit is its character less the character of zero. -/
theorem digit_range {digit : Char} (range : '0' ≤ digit ∧ digit ≤ '9')
    : 48 ≤ digit.toNat ∧ digit.toNat ≤ 57 := by
  simp only [Char.le_def, UInt32.le_iff_toNat_le] at range
  exact range

theorem digit_eq {one other : Char} (range : '0' ≤ one ∧ one ≤ '9') (others : '0' ≤ other ∧ other ≤ '9')
    (same : one.toNat - 48 = other.toNat - 48)
    : one = other := by
  have low := digit_range range
  have high := digit_range others
  refine Char.ext (UInt32.toNat_inj.mp ?_)
  change one.toNat = other.toNat
  omega

/-- The last digit counts ones, the others tens. -/
theorem ofDigitChars_concat (digits : List Char) (last : Char)
    : Nat.ofDigitChars 10 (digits ++ [last]) 0 = 10 * Nat.ofDigitChars 10 digits 0 + (last.toNat - 48) := by
  rw [Nat.ofDigitChars_append, Nat.ofDigitChars_cons, Nat.ofDigitChars_nil]
  rfl

/-- The number is below the power of ten, by induction from the last digit. -/
theorem ofDigitChars_lt (decimal : IsDecimal digits)
    : Nat.ofDigitChars 10 digits 0 < 10 ^ digits.length := by
  induction digits using List.reverseRecOn with
  | nil => simp
  | append_singleton digits last ih =>
      have small := digit_range (decimal last (by simp))
      have before := ih (fun digit member => decimal digit (List.mem_append_left _ member))
      rw [ofDigitChars_concat, List.length_append, List.length_singleton, pow_succ]
      omega

/-- Digits of one width that stand for one number are the same, by induction from the last digit. -/
theorem eq_of_ofDigitChars (lengths : first.length = second.length) (decimal : IsDecimal first)
    (others : IsDecimal second)
    (same : Nat.ofDigitChars 10 first 0 = Nat.ofDigitChars 10 second 0)
    : first = second := by
  induction first using List.reverseRecOn generalizing second with
  | nil => exact (List.length_eq_zero_iff.mp lengths.symm).symm
  | append_singleton digits last ih =>
      obtain ⟨front, final, rfl⟩ := (List.eq_nil_or_concat second).resolve_left (by
        rintro rfl
        simp at lengths)
      rw [List.concat_eq_append] at lengths others same ⊢
      have inFirst := decimal last (by simp)
      have inSecond := others final (by simp)
      have small := digit_range inFirst
      have smallSecond := digit_range inSecond
      rw [ofDigitChars_concat, ofDigitChars_concat] at same
      have fronts : digits = front := by
        refine ih ?_ ?_ ?_ (by omega)
        · simpa using lengths
        · exact fun digit member => decimal digit (List.mem_append_left _ member)
        · exact fun digit member => others digit (List.mem_append_left _ member)
      rw [fronts, digit_eq inFirst inSecond (by omega)]

-----------------------------------------------------------------------------------------
-- Numbers written in a width
-----------------------------------------------------------------------------------------

/-- `text.padStart(width, '0')`. -/
def padStart (width : Nat) (text : List Char) : List Char :=
  List.replicate (width - text.length) '0' ++ text

/-- A number below the power of ten in its width: its digits, which stand for it. -/
theorem padStart_toDigits {width value : Nat} (positive : 0 < width) (small : value < 10 ^ width)
    : (padStart width (Nat.toDigits 10 value)).length = width
      ∧ IsDecimal (padStart width (Nat.toDigits 10 value))
      ∧ Nat.ofDigitChars 10 (padStart width (Nat.toDigits 10 value)) 0 = value := by
  have short : (Nat.toDigits 10 value).length ≤ width :=
    (Nat.length_toDigits_le_iff (by decide) positive).mpr small
  refine ⟨?length, ?decimal, ?value⟩
  case length =>
    rw [padStart, List.length_append, List.length_replicate]
    omega
  case decimal =>
    intro digit member
    rcases List.mem_append.mp member with zero | own
    · rw [List.eq_of_mem_replicate zero]
      decide
    · have range := Nat.isDigit_of_mem_toDigits (by decide) (by decide) own
      simpa [Char.isDigit, Char.le_def, UInt32.le_iff_toNat_le] using range
  case value =>
    rw [padStart, Nat.ofDigitChars_append, Nat.ofDigitChars_replicate_zero, Nat.mul_zero,
      Nat.ofDigitChars_ten_toDigits]

/-- A number is written as some digits of the width when they stand for it. -/
theorem padStart_toDigits_eq_iff {width value : Nat} (positive : 0 < width) (small : value < 10 ^ width)
    : padStart width (Nat.toDigits 10 value) = digits
      ↔ (digits.length = width ∧ IsDecimal digits) ∧ Nat.ofDigitChars 10 digits 0 = value := by
  obtain ⟨length, decimal, reads⟩ := padStart_toDigits positive small
  constructor
  · rintro rfl
    exact ⟨⟨length, decimal⟩, reads⟩
  · rintro ⟨⟨wide, others⟩, same⟩
    exact eq_of_ofDigitChars (length.trans wide.symm) decimal others (reads.trans same.symm)

end Encodings

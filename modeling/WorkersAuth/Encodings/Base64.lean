import Mathlib.Data.List.DropRight
import Mathlib.Data.List.GetD

/-! Base64: three bytes are four digits of six bits, the last group padded. -/

namespace Encodings

/-- The digits of the standard alphabet. -/
def base64Alphabet : List Char :=
  "ABCDEFGHIJKLMNOPQRSTUVWXYZabcdefghijklmnopqrstuvwxyz0123456789+/".toList

def base64Digit (value : Nat) : Char := base64Alphabet.getD value 'A'

/-- The alphabet digit by digit, for computing with it. -/
theorem base64Alphabet_eq
    : base64Alphabet = [
        'A', 'B', 'C', 'D', 'E', 'F', 'G', 'H', 'I', 'J', 'K', 'L', 'M', 'N', 'O', 'P',
        'Q', 'R', 'S', 'T', 'U', 'V', 'W', 'X', 'Y', 'Z', 'a', 'b', 'c', 'd', 'e', 'f',
        'g', 'h', 'i', 'j', 'k', 'l', 'm', 'n', 'o', 'p', 'q', 'r', 's', 't', 'u', 'v',
        'w', 'x', 'y', 'z', '0', '1', '2', '3', '4', '5', '6', '7', '8', '9', '+', '/'
      ] :=
  String.toList_ofList

/-- The digits of some bytes, group by group. -/
def base64Digits : List UInt8 → List Char
  | [] => []
  | [a] => [base64Digit (a.toNat / 4), base64Digit (a.toNat % 4 * 16)]
  | [a, b] =>
      [
        base64Digit (a.toNat / 4),
        base64Digit (a.toNat % 4 * 16 + b.toNat / 16),
        base64Digit (b.toNat % 16 * 4)
      ]
  | a :: b :: c :: rest =>
      base64Digit (a.toNat / 4)
      :: base64Digit (a.toNat % 4 * 16 + b.toNat / 16)
      :: base64Digit (b.toNat % 16 * 4 + c.toNat / 64)
      :: base64Digit (c.toNat % 64)
      :: base64Digits rest

/-- The digits, and as many `=` as complete their last group. -/
def base64 (bytes : List UInt8) : List Char :=
  base64Digits bytes ++ List.replicate ((3 - bytes.length % 3) % 3) '='

theorem base64Digit_mem (value : Nat) : base64Digit value ∈ base64Alphabet := by
  unfold base64Digit
  rcases lt_or_ge value base64Alphabet.length with small | large
  · rw [List.getD_eq_getElem _ _ small]
    exact List.getElem_mem small
  · rw [List.getD_eq_default _ _ large, base64Alphabet_eq]
    exact List.mem_cons_self

/-- Every digit is of the alphabet, by induction on the groups. -/
theorem mem_base64Digits {bytes : List UInt8} {digit : Char} (member : digit ∈ base64Digits bytes)
    : digit ∈ base64Alphabet := by
  induction bytes using base64Digits.induct with
  | case1 => contradiction
  | case2 a =>
      simp only [base64Digits, List.mem_cons, List.not_mem_nil, or_false] at member
      rcases member with rfl | rfl <;> exact base64Digit_mem _
  | case3 a b =>
      simp only [base64Digits, List.mem_cons, List.not_mem_nil, or_false] at member
      rcases member with rfl | rfl | rfl <;> exact base64Digit_mem _
  | case4 a b c rest ih =>
      simp only [base64Digits, List.mem_cons] at member
      rcases member with rfl | rfl | rfl | rfl | later
      · exact base64Digit_mem _
      · exact base64Digit_mem _
      · exact base64Digit_mem _
      · exact base64Digit_mem _
      · exact ih later

/-- Four digits for three bytes, by induction on the groups. -/
theorem length_base64Digits (bytes : List UInt8)
    : (base64Digits bytes).length = (4 * bytes.length + 2) / 3 := by
  induction bytes using base64Digits.induct with
  | case1 => simp [base64Digits]
  | case2 a => simp [base64Digits]
  | case3 a b => simp [base64Digits]
  | case4 a b c rest ih =>
      simp only [base64Digits, List.length_cons, ih]
      omega

/-- What is written to replace digits is no `=`, so dropping every trailing `=` leaves the digits. -/
theorem rdropWhile_base64 (bytes : List UInt8) (replace : Char → Char)
    (pads : replace '=' = '=') (digits : ∀ digit ∈ base64Alphabet, replace digit ≠ '=')
    : ((base64 bytes).map replace).rdropWhile (· = '=') = (base64Digits bytes).map replace := by
  have kept : ((base64Digits bytes).map replace).rdropWhile (· = '=')
      = (base64Digits bytes).map replace := by
    rw [List.rdropWhile_eq_self_iff]
    intro some_digit
    have last := List.getLast_mem some_digit
    obtain ⟨digit, member, same⟩ := List.mem_map.mp last
    rw [← same]
    simpa using digits digit (mem_base64Digits member)
  rw [base64, List.map_append, List.map_replicate, pads]
  generalize (3 - bytes.length % 3) % 3 = padding
  induction padding with
  | zero => simpa using kept
  | succ padding ih =>
      rw [List.replicate_succ', ← List.append_assoc, List.rdropWhile_concat_pos _ _ _ (by simp)]
      exact ih

-----------------------------------------------------------------------------------------
-- Reading base64
-----------------------------------------------------------------------------------------

/-- The six bits of a digit. -/
def base64Value (digit : Char) : Option Nat := base64Alphabet.idxOf? digit

/-- The bytes that some text in base64 stands for, group by group. -/
def decodeBase64 : List Char → Option (List UInt8)
  | [] => some []
  | [a, b, '=', '='] => do
      let a ← base64Value a
      let b ← base64Value b
      return [UInt8.ofNat (a * 4 + b / 16)]
  | [a, b, c, '='] => do
      let a ← base64Value a
      let b ← base64Value b
      let c ← base64Value c
      return [UInt8.ofNat (a * 4 + b / 16), UInt8.ofNat (b % 16 * 16 + c / 4)]
  | a :: b :: c :: d :: rest => do
      let a ← base64Value a
      let b ← base64Value b
      let c ← base64Value c
      let d ← base64Value d
      let bytes ← decodeBase64 rest
      return UInt8.ofNat (a * 4 + b / 16) :: UInt8.ofNat (b % 16 * 16 + c / 4)
        :: UInt8.ofNat (c % 4 * 64 + d) :: bytes
  | _ => none

/-- A digit reads back as the six bits it was written for. -/
@[simp] theorem base64Value_base64Digit {value : Nat} (small : value < 64)
    : base64Value (base64Digit value) = some value := by
  have all : ∀ value < 64, base64Value (base64Digit value) = some value := by
    simp only [base64Value, base64Digit, base64Alphabet_eq]
    decide +kernel
  exact all value small

theorem base64Digit_ne_pad (value : Nat) : base64Digit value ≠ '=' := by
  have all : base64Alphabet.all (fun digit => digit ≠ '=') := by
    rw [base64Alphabet_eq]
    decide
  simpa using List.all_eq_true.mp all _ (base64Digit_mem value)

/-- Bytes written in base64 read back as they were, by induction on the groups. -/
theorem decodeBase64_base64 (bytes : List UInt8) : decodeBase64 (base64 bytes) = some bytes := by
  induction bytes using base64Digits.induct with
  | case1 => rfl
  | case2 a =>
      have small := a.toNat_lt
      have written : base64 [a]
          = [base64Digit (a.toNat / 4), base64Digit (a.toNat % 4 * 16), '=', '='] := rfl
      have first : a.toNat / 4 * 4 + a.toNat % 4 * 16 / 16 = a.toNat := by omega
      rw [written, decodeBase64, base64Value_base64Digit (by omega),
        base64Value_base64Digit (by omega)]
      simp only [Option.bind_eq_bind, Option.bind_some, Option.pure_def, first, UInt8.ofNat_toNat]
  | case3 a b =>
      have a_small := a.toNat_lt
      have b_small := b.toNat_lt
      have written : base64 [a, b]
          = [base64Digit (a.toNat / 4), base64Digit (a.toNat % 4 * 16 + b.toNat / 16),
              base64Digit (b.toNat % 16 * 4), '='] := rfl
      have first : a.toNat / 4 * 4 + (a.toNat % 4 * 16 + b.toNat / 16) / 16 = a.toNat := by omega
      have second : (a.toNat % 4 * 16 + b.toNat / 16) % 16 * 16 + b.toNat % 16 * 4 / 4 = b.toNat := by
        omega
      rw [written, decodeBase64]
      · rw [base64Value_base64Digit (by omega), base64Value_base64Digit (by omega),
          base64Value_base64Digit (by omega)]
        simp only [Option.bind_eq_bind, Option.bind_some, Option.pure_def, first, second, UInt8.ofNat_toNat]
      · exact base64Digit_ne_pad _
  | case4 a b c rest ih =>
      have a_small := a.toNat_lt
      have b_small := b.toNat_lt
      have c_small := c.toNat_lt
      have padding : (3 - (a :: b :: c :: rest).length % 3) % 3 = (3 - rest.length % 3) % 3 := by
        simp only [List.length_cons]
        omega
      have written : base64 (a :: b :: c :: rest)
          = base64Digit (a.toNat / 4) :: base64Digit (a.toNat % 4 * 16 + b.toNat / 16)
            :: base64Digit (b.toNat % 16 * 4 + c.toNat / 64) :: base64Digit (c.toNat % 64)
            :: base64 rest := by
        rw [base64, padding]
        rfl
      have first : a.toNat / 4 * 4 + (a.toNat % 4 * 16 + b.toNat / 16) / 16 = a.toNat := by omega
      have second
          : (a.toNat % 4 * 16 + b.toNat / 16) % 16 * 16 + (b.toNat % 16 * 4 + c.toNat / 64) / 4
            = b.toNat := by
        omega
      have third : (b.toNat % 16 * 4 + c.toNat / 64) % 4 * 64 + c.toNat % 64 = c.toNat := by omega
      rw [written, decodeBase64]
      · rw [base64Value_base64Digit (by omega), base64Value_base64Digit (by omega),
          base64Value_base64Digit (by omega), base64Value_base64Digit (by omega), ih]
        simp only [Option.bind_eq_bind, Option.bind_some, Option.pure_def, first, second, third,
          UInt8.ofNat_toNat]
      · exact fun _ same => absurd same (base64Digit_ne_pad _)
      · exact fun same => absurd same (base64Digit_ne_pad _)

end Encodings

import WorkersAuth.Encodings.Texts
import Mathlib.Algebra.Order.Field.Power
import Mathlib.Algebra.Order.Field.Rat
import Mathlib.Data.Rat.Floor
import Mathlib.Data.Rat.Lemmas
import Mathlib.Tactic.Linarith
import Mathlib.Tactic.Positivity

/-! Numbers of JavaScript and their texts: doubles, and the dates of `toUTCString`. -/

namespace Encodings

/-- A double; negative zero is zero. -/
inductive JsNumber where
  | finite (value : ℚ)
  | infinity (negative : Bool)
  | nan
deriving DecidableEq

-----------------------------------------------------------------------------------------
-- Texts of natural numbers
-----------------------------------------------------------------------------------------

/-- The digits of a number. -/
def decimal (value : Nat) : Utf16 := (Nat.toDigits 10 value).map (fun digit => .ofNat digit.toNat)

/-- Zeros before the digits, up to a width. -/
def padded (width value : Nat) : Utf16 :=
  List.replicate (width - (decimal value).length) 0x30 ++ decimal value

/-- The double nearest to a number, the even one of two. -/
def nearestDouble (value : Nat) : Nat :=
  let unit := 2 ^ (value.log2 - 52)
  let below := value / unit
  let rest := value % unit
  if unit < 2 * rest ∨ unit = 2 * rest ∧ below % 2 = 1 then (below + 1) * unit else below * unit

/-- The fewest digits, followed by at most so many zeros, that are read as the double. -/
def shortest (value : Nat) : Nat → Nat × Nat
  | 0 => (value, 0)
  | zeros + 1 =>
      let unit := 10 ^ (zeros + 1)
      let below := value / unit
      let rest := value % unit
      let nearer := if 2 * rest < unit ∨ 2 * rest = unit ∧ below % 2 = 0 then [below, below + 1]
        else [below + 1, below]
      match nearer.find? (fun digits => 0 < digits ∧ nearestDouble (digits * unit) = value) with
      | some digits => (digits, zeros + 1)
      | none => shortest value zeros

/-- `String(value)` of a double that is a natural number. -/
def numberText (value : Nat) : Utf16 :=
  if value = 0 then decimal 0
  else
    let (digits, zeros) := shortest value (decimal value).length
    let written := decimal digits
    let places := written.length + zeros
    if places ≤ 21 then written ++ List.replicate zeros 0x30
    else
      written.take 1 ++ (if written.length = 1 then [] else 0x2E :: written.drop 1)
        ++ ascii "e+" ++ decimal (places - 1)

example : numberText 3600 = ascii "3600" := by decide +kernel

example : numberText (2 ^ 60) = ascii "1152921504606847000" := by decide +kernel

example : numberText 99999999999999991611392 = ascii "1e+23" := by decide +kernel

-----------------------------------------------------------------------------------------
-- Dates
-----------------------------------------------------------------------------------------

/-- Year, month and day of the month of a day since the first of January 1970. -/
def civil (days : ℤ) : ℤ × Nat × Nat :=
  -- Years are counted from March, in eras of 400 years.
  let shifted := days + 719468
  let era := shifted / 146097
  let dayOfEra := (shifted % 146097).toNat
  let yearOfEra := (dayOfEra - dayOfEra / 1460 + dayOfEra / 36524 - dayOfEra / 146096) / 365
  let dayOfYear := dayOfEra - (365 * yearOfEra + yearOfEra / 4 - yearOfEra / 100)
  let shiftedMonth := (5 * dayOfYear + 2) / 153
  let day := dayOfYear - (153 * shiftedMonth + 2) / 5 + 1
  let month := if shiftedMonth < 10 then shiftedMonth + 3 else shiftedMonth - 9
  (yearOfEra + era * 400 + (if month ≤ 2 then 1 else 0), month, day)

def weekdays : List String := ["Sun", "Mon", "Tue", "Wed", "Thu", "Fri", "Sat"]

def months : List String :=
  ["Jan", "Feb", "Mar", "Apr", "May", "Jun", "Jul", "Aug", "Sep", "Oct", "Nov", "Dec"]

/-- `new Date(time).toUTCString()`, whose range ends 100,000,000 days from 1970. -/
def toUTCString (time : ℤ) : Utf16 :=
  if 8640000000000000 < |time| then ascii "Invalid Date"
  else
    let days := time / 86400000
    let seconds := (time % 86400000).toNat / 1000
    let (year, month, day) := civil days
    ascii (weekdays.getD ((days + 4) % 7).toNat "") ++ ascii ", " ++ padded 2 day ++ ascii " "
      ++ ascii (months.getD (month - 1) "") ++ ascii " " ++ (if year < 0 then ascii "-" else [])
      ++ padded 4 year.natAbs ++ ascii " " ++ padded 2 (seconds / 3600) ++ ascii ":"
      ++ padded 2 (seconds / 60 % 60) ++ ascii ":" ++ padded 2 (seconds % 60) ++ ascii " GMT"

example : toUTCString 1700000000123 = ascii "Tue, 14 Nov 2023 22:13:20 GMT" := by decide +kernel

-----------------------------------------------------------------------------------------
-- Arithmetic
-----------------------------------------------------------------------------------------

/-- The smallest positive double. -/
def smallest : ℚ := 2 ^ (-1074 : ℤ)

/-- The place of the last bit of a double near a number. -/
def lastBit (value : ℚ) : ℤ :=
  let near : ℤ := value.num.natAbs.log2 - value.den.log2
  let top := if (2 : ℚ) ^ near ≤ |value| then near else near - 1
  max (top - 52) (-1074)

/-- The nearest integer, the even one of two. -/
def roundHalfEven (value : ℚ) : ℤ :=
  let below := ⌊value⌋
  let rest := value - below
  if 1 / 2 < rest ∨ rest = 1 / 2 ∧ below % 2 = 1 then below + 1 else below

namespace JsNumber

/-- The double nearest to a number. -/
def double (value : ℚ) : JsNumber :=
  let unit : ℚ := 2 ^ lastBit value
  let rounded := roundHalfEven (value / unit) * unit
  if 2 ^ 1024 ≤ |rounded| then .infinity (value < 0) else .finite rounded

/-- `first + second`. -/
def add : JsNumber → JsNumber → JsNumber
  | .finite first, .finite second => double (first + second)
  | .nan, _ | _, .nan => .nan
  | .infinity first, .infinity second => if first = second then .infinity first else .nan
  | .infinity sign, .finite _ | .finite _, .infinity sign => .infinity sign

/-- `first * second`. -/
def mul : JsNumber → JsNumber → JsNumber
  | .finite first, .finite second => double (first * second)
  | .nan, _ | _, .nan => .nan
  | .infinity first, .infinity second => .infinity (first != second)
  | .infinity sign, .finite value | .finite value, .infinity sign =>
      if value = 0 then .nan else .infinity (sign != decide (value < 0))

/-- `first < second`. -/
def lt : JsNumber → JsNumber → Bool
  | .finite first, .finite second => first < second
  | .nan, _ | _, .nan => false
  | .infinity first, .infinity second => first && !second
  | .infinity negative, .finite _ => negative
  | .finite _, .infinity negative => !negative

/-- `first <= second`. -/
def le : JsNumber → JsNumber → Bool
  | .nan, _ | _, .nan => false
  | first, second => !second.lt first

/-- A number above zero, which is no less than the smallest. -/
def Positive : JsNumber → Prop
  | .finite value => smallest ≤ value
  | .infinity negative => negative = false
  | .nan => False

/-- Whether a condition takes the number for true. -/
def truthy : JsNumber → Bool
  | .finite value => value ≠ 0
  | .infinity _ => true
  | .nan => false

/-- What `JSON.stringify` writes: a number, or `null`. -/
def written : JsNumber → Option ℚ
  | .finite value => some value
  | .infinity _ | .nan => none

end JsNumber

example : JsNumber.double (1 / 10 + 2 / 10) = .finite (5404319552844595 / 2 ^ 54) := by
  decide +kernel

theorem smallest_pos : 0 < smallest := by
  unfold smallest
  positivity

theorem smallest_le_one : smallest ≤ 1 :=
  zpow_le_one_of_nonpos₀ (by norm_num) (by norm_num)

/-- Rounding does not go below the floor. -/
theorem floor_le_roundHalfEven (value : ℚ) : ⌊value⌋ ≤ roundHalfEven value := by
  unfold roundHalfEven
  dsimp only
  split
  · omega
  · exact le_rfl

/-- The last bit of a double is no larger than the number, as a number has at most the place that
its numerator and denominator say.
-/
theorem lastBit_le {value : ℚ} (large : smallest ≤ value) : (2 : ℚ) ^ lastBit value ≤ value := by
  have positive : 0 < value := smallest_pos.trans_le large
  have numerator : (0 : ℚ) < value.num := by exact_mod_cast Rat.num_pos.mpr positive
  have top : (2 : ℚ) ^ ((value.num.natAbs.log2 : ℤ) - value.den.log2 - 1) ≤ value := by
    have nonzero : value.num.natAbs ≠ 0 := by
      have := Rat.num_pos.mpr positive
      omega
    have least : (2 : ℚ) ^ value.num.natAbs.log2 ≤ value.num := by
      have natural := Nat.log2_self_le nonzero
      have same : ((value.num.natAbs : ℕ) : ℚ) = value.num := by
        have := Rat.num_pos.mpr positive
        rw [← Int.cast_natCast, Int.natAbs_of_nonneg this.le]
      rw [← same]
      exact_mod_cast natural
    have most : (value.den : ℚ) ≤ 2 ^ (value.den.log2 + 1) := by
      exact_mod_cast (Nat.lt_log2_self (n := value.den)).le
    have denominator : (0 : ℚ) < value.den := by exact_mod_cast value.den_pos
    calc (2 : ℚ) ^ ((value.num.natAbs.log2 : ℤ) - value.den.log2 - 1)
        = 2 ^ value.num.natAbs.log2 / 2 ^ (value.den.log2 + 1) := by
          rw [sub_sub, zpow_sub₀ (by norm_num), zpow_natCast]
          norm_cast
      _ ≤ value.num / value.den := by
          gcongr
      _ = value := Rat.num_div_den value
  have place : ∀ near : ℤ, (2 : ℚ) ^ (near - 1) ≤ value
      → (2 : ℚ) ^ ((if (2 : ℚ) ^ near ≤ |value| then near else near - 1) - 52) ≤ value := by
    intro near least
    split
    · next large =>
        rw [abs_of_pos positive] at large
        exact (zpow_le_zpow_right₀ (by norm_num) (by omega)).trans large
    · exact (zpow_le_zpow_right₀ (by norm_num) (by omega)).trans least
  unfold lastBit
  rcases max_choice _ (-1074 : ℤ) with first | second
  · rw [first]
    exact place _ top
  · rw [second]
    exact large

/-- The double nearest to a number from the smallest on is positive, or infinite. -/
theorem JsNumber.double_pos {value : ℚ} (large : smallest ≤ value)
    : double value = .infinity false ∨ ∃ nearest : ℚ, 0 < nearest ∧ double value = .finite nearest := by
  have positive : 0 < value := smallest_pos.trans_le large
  have unit : (0 : ℚ) < 2 ^ lastBit value := by positivity
  have one : 1 ≤ roundHalfEven (value / 2 ^ lastBit value) := by
    refine le_trans ?_ (floor_le_roundHalfEven _)
    rw [Int.le_floor, Int.cast_one, one_le_div unit]
    exact lastBit_le large
  have rounded : (0 : ℚ) < roundHalfEven (value / 2 ^ lastBit value) * 2 ^ lastBit value := by
    have cast : (1 : ℚ) ≤ roundHalfEven (value / 2 ^ lastBit value) := by exact_mod_cast one
    positivity
  unfold double
  dsimp only
  split
  · left
    rw [decide_eq_false (not_lt.mpr positive.le)]
  · exact .inr ⟨_, rounded, rfl⟩

-----------------------------------------------------------------------------------------
-- The units of these texts
-----------------------------------------------------------------------------------------

/-- A printable unit other than a semicolon. -/
def isFieldUnit (unit : UInt16) : Bool :=
  0x20 ≤ unit.toNat && unit.toNat ≤ 0x7E && unit.toNat ≠ 0x3B

/-- Digits are printable. -/
theorem isFieldUnit_decimal (value : Nat) : (decimal value).all isFieldUnit := by
  rw [List.all_eq_true]
  intro unit member
  obtain ⟨digit, written, rfl⟩ := List.mem_map.mp member
  have range := Nat.isDigit_of_mem_toDigits (by decide) (by decide) written
  simp only [Char.isDigit, Bool.and_eq_true, decide_eq_true_eq, ge_iff_le, UInt32.le_iff_toNat_le]
    at range
  have value : (UInt16.ofNat digit.toNat).toNat = digit.toNat := by
    refine UInt16.toNat_ofNat_of_lt ?_
    have most : digit.val.toNat ≤ 57 := range.2
    change digit.val.toNat < 65536
    omega
  have least : 48 ≤ digit.toNat := range.1
  have most : digit.toNat ≤ 57 := range.2
  simp only [isFieldUnit, value, Bool.and_eq_true, decide_eq_true_eq]
  omega

theorem isFieldUnit_padded (width value : Nat) : (padded width value).all isFieldUnit := by
  rw [padded, List.all_append, isFieldUnit_decimal, Bool.and_true, List.all_eq_true]
  intro unit member
  rw [List.eq_of_mem_replicate member]
  decide

/-- A number's text is printable, by cases on its form. -/
theorem isFieldUnit_numberText (value : Nat) : (numberText value).all isFieldUnit := by
  unfold numberText
  split
  · exact isFieldUnit_decimal 0
  · generalize shortest value (decimal value).length = digits
    obtain ⟨digits, zeros⟩ := digits
    have written := isFieldUnit_decimal digits
    rw [List.all_eq_true] at written
    dsimp only
    split
    · rw [List.all_append, isFieldUnit_decimal, Bool.true_and, List.all_eq_true]
      intro unit member
      rw [List.eq_of_mem_replicate member]
      decide
    · have first : ((decimal digits).take 1).all isFieldUnit := by
        rw [List.all_eq_true]
        exact fun unit member => written unit (List.mem_of_mem_take member)
      have rest : ((decimal digits).drop 1).all isFieldUnit := by
        rw [List.all_eq_true]
        exact fun unit member => written unit (List.mem_of_mem_drop member)
      have sign : (ascii "e+").all isFieldUnit := by decide
      rw [List.all_append, List.all_append, List.all_append, first, isFieldUnit_decimal, sign]
      split
      · rfl
      · rw [List.all_cons, rest]
        decide

/-- A date's text is printable: its names are, and its numbers. -/
theorem isFieldUnit_toUTCString (time : ℤ) : (toUTCString time).all isFieldUnit := by
  have named : ∀ names : List String, (∀ name ∈ names, (ascii name).all isFieldUnit)
      → ∀ index, (ascii (names.getD index "")).all isFieldUnit := by
    intro names printable index
    rw [List.getD_eq_getElem?_getD]
    cases found : names[index]? with
    | none => decide
    | some name => exact printable name (List.mem_of_getElem? found)
  have weekday := named weekdays (by decide)
  have month := named months (by decide)
  have sign : ∀ year : ℤ, (if year < 0 then ascii "-" else []).all isFieldUnit := by
    intro year
    split
    · decide
    · rfl
  unfold toUTCString
  split
  · decide
  · simp only [List.all_append, weekday, month, sign, isFieldUnit_padded, Bool.true_and]
    decide

end Encodings

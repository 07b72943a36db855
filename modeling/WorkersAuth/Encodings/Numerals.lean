import WorkersAuth.Encodings.Numbers
import WorkersAuth.Encodings.Percent

/-! Numerals: the texts that `Number` and `JSON.parse` read as numbers. -/

namespace Encodings

/-- The value of a decimal digit. -/
def isDecimalUnit (unit : UInt16) : Bool := 0x30 ≤ unit.toNat && unit.toNat ≤ 0x39

/-- Decimal digits before anything else. -/
def leadingDigits (text : Utf16) : Utf16 × Utf16 :=
  (text.takeWhile isDecimalUnit, text.dropWhile isDecimalUnit)

/-- The number of some digits. -/
def digitsValue (digits : Utf16) : Nat :=
  digits.foldl (fun value digit => value * 10 + (digit.toNat - 0x30)) 0

/-- A numeral in parts: the digits before and after the point, and the exponent of ten. -/
structure Numeral where
  negative : Bool
  whole : Utf16
  fraction : Utf16
  exponent : ℤ

/-- The double of a numeral. -/
def Numeral.value (numeral : Numeral) : JsNumber :=
  let digits : ℚ := digitsValue (numeral.whole ++ numeral.fraction)
  let magnitude := digits * 10 ^ (numeral.exponent - numeral.fraction.length)
  .double (if numeral.negative then -magnitude else magnitude)

/-- A sign and what follows it. -/
def sign : Utf16 → Bool × Utf16
  | 0x2D :: rest => (true, rest)
  | 0x2B :: rest => (false, rest)
  | text => (false, text)

/-- The exponent of a numeral and what follows it; nothing when it has no digits. -/
def exponentPart : Utf16 → Option (ℤ × Utf16)
  | 0x65 :: rest | 0x45 :: rest =>
      let (negative, rest) := sign rest
      let (digits, rest) := leadingDigits rest
      if digits = [] then none
      else some (if negative then -digitsValue digits else digitsValue digits, rest)
  | text => some (0, text)

/-- A point and the digits after it. -/
def fractionPart : Utf16 → Option Utf16 × Utf16
  | 0x2E :: rest =>
      let (digits, rest) := leadingDigits rest
      (some digits, rest)
  | text => (none, text)

/-- The number of a text in digits of a base. -/
def radixValue (base : Nat) (digits : Utf16) : Option Nat :=
  if digits = [] then none
  else
    digits.foldlM (fun value unit =>
      ((hexDigitValue unit).filter (· < base)).map (value * base + ·)) 0

/-- A decimal numeral of `Number`, which may leave out the digits on one side of the point. -/
def decimalNumber (text : Utf16) : JsNumber :=
  let (negative, rest) := sign text
  if rest = ascii "Infinity" then .infinity negative
  else
    let (whole, rest) := leadingDigits rest
    let (fraction, rest) := fractionPart rest
    if whole = [] ∧ fraction.getD [] = [] then .nan
    else
      match exponentPart rest with
      | some (exponent, []) =>
          Numeral.value { negative, whole, fraction := fraction.getD [], exponent }
      | _ => .nan

/-- `Number(text)`. -/
def toNumber (text : Utf16) : JsNumber :=
  let ofRadix (base : Nat) (digits : Utf16) : JsNumber :=
    ((radixValue base digits).map (fun value => .double value)).getD .nan
  match trim text with
  | [] => .finite 0
  | 0x30 :: 0x78 :: digits | 0x30 :: 0x58 :: digits => ofRadix 16 digits
  | 0x30 :: 0x6F :: digits | 0x30 :: 0x4F :: digits => ofRadix 8 digits
  | 0x30 :: 0x62 :: digits | 0x30 :: 0x42 :: digits => ofRadix 2 digits
  | text => decimalNumber text

example : ["5000", " 5e3 ", "0x1388", "", "-5.", "1,000", "-Infinity"].map (fun text => toNumber (ascii text))
    = [.finite 5000, .finite 5000, .finite 5000, .finite 0, .finite (-5), .nan, .infinity true] := by
  decide +kernel

end Encodings

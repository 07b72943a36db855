import WorkersAuth.Encodings.Percent

/-! `TextDecoder`: octets in UTF-8 become a string, with a replacement character for what is no UTF-8.
-/

namespace Encodings

/-- `U+FFFD`. -/
def replacement : UInt16 := 0xFFFD

/-- A code point whose first octets have been read: how many are missing, the bits so far, and the
range of the next octet.
-/
structure Pending where
  missing : Nat
  point : Nat
  lower : Nat := 0x80
  upper : Nat := 0xBF

/-- The first octet of a code point: its units when it is alone, or what is pending. -/
def leadOctet (octet : Nat) : Utf16 × Option Pending :=
  if octet ≤ 0x7F then ([.ofNat octet], none)
  else if 0xC2 ≤ octet ∧ octet ≤ 0xDF then ([], some { missing := 1, point := octet - 0xC0 })
  else if 0xE0 ≤ octet ∧ octet ≤ 0xEF then
    -- Overlong encodings and surrogates are excluded by the second octet.
    ([], some {
      missing := 2
      point := octet - 0xE0
      lower := if octet = 0xE0 then 0xA0 else 0x80
      upper := if octet = 0xED then 0x9F else 0xBF })
  else if 0xF0 ≤ octet ∧ octet ≤ 0xF4 then
    ([], some {
      missing := 3
      point := octet - 0xF0
      lower := if octet = 0xF0 then 0x90 else 0x80
      upper := if octet = 0xF4 then 0x8F else 0xBF })
  else ([replacement], none)

/-- The units of some octets after what is pending. An octet that does not continue a code point is
read again as a first one.
-/
def decodeOctets : Option Pending → List UInt8 → Utf16
  | none, [] => []
  | some _, [] => [replacement]
  | none, octet :: rest =>
      let (units, pending) := leadOctet octet.toNat
      units ++ decodeOctets pending rest
  | some pending, octet :: rest =>
      if pending.lower ≤ octet.toNat ∧ octet.toNat ≤ pending.upper then
        let point := pending.point * 0x40 + (octet.toNat - 0x80)
        if pending.missing = 1 then utf16 point ++ decodeOctets none rest
        else decodeOctets (some { missing := pending.missing - 1, point }) rest
      else
        let (units, pending) := leadOctet octet.toNat
        replacement :: units ++ decodeOctets pending rest

/-- `new TextDecoder().decode(octets)`, which drops a byte order mark at the beginning. -/
def textDecode : List UInt8 → Utf16
  | 0xEF :: 0xBB :: 0xBF :: rest => decodeOctets none rest
  | octets => decodeOctets none octets

example : textDecode [0xE3, 0x81, 0xA8, 0xC0, 0x41, 0xE3, 0x81] = [0x3068, 0xFFFD, 0x41, 0xFFFD] := by
  decide +kernel

end Encodings

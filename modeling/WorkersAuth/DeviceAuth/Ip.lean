import WorkersAuth.Crypto

/-! `ip.ts`: the rate-limit key of a client IP. -/

namespace WorkersAuth.DeviceAuth

/-- `value.split(separator)` for a one-character separator. -/
def splitAt (separator : Char) : List Char → List (List Char)
  | [] => [[]]
  | char :: rest =>
      let parts := splitAt separator rest
      if char = separator then [] :: parts
      else (char :: parts.headD []) :: parts.tail

/-- `value.split('::')`. -/
def splitDoubleColon : List Char → List (List Char)
  | [] => [[]]
  | ':' :: ':' :: rest => [] :: splitDoubleColon rest
  | char :: rest =>
      let parts := splitDoubleColon rest
      (char :: parts.headD []) :: parts.tail

/-- `Number(digits)` for a string of decimal digits. -/
def decimalValue (digits : List Char) : Nat :=
  digits.foldl (fun value digit => value * 10 + (digit.toNat - '0'.toNat)) 0

/-- `parseInt(digits, 16)` for a string of lower-case hexadecimal digits. -/
def hexValue (digits : List Char) : Nat :=
  digits.foldl
    (fun value digit =>
      value * 16 + (if isDigitChar digit then digit.toNat - '0'.toNat else digit.toNat - 'a'.toNat + 10))
    0

/-- `^(\d{1,3})(\.\d{1,3}){3}$`: the four numbers. -/
def dottedQuad (value : List Char) : Option (List Nat) :=
  let parts := splitAt '.' value
  if parts.length = 4
      ∧ parts.all (fun part => 1 ≤ part.length && part.length ≤ 3 && part.all isDigitChar) then
    some (parts.map decimalValue)
  else
    none

/-- `ipv4`, as its four numbers. -/
def ipv4 (value : List Char) : Option (List Nat) :=
  (dottedQuad value).filter (·.all (· ≤ 255))

/-- `parts.join('.')`. -/
def joinDotted (parts : List Nat) : List Char :=
  (parts.map Nat.repr |>.intersperse ".").flatMap String.toList

/-- `(number).toString(16)`. -/
def toBase16 (value : Nat) : List Char := Nat.toDigits 16 value

/-- `HEXTET_RE`. -/
def isHextet (value : List Char) : Bool :=
  1 ≤ value.length && value.length ≤ 4 && value.all isHexChar

/-- The characters `.` does not match in a regular expression. -/
def isLineTerminator (char : Char) : Bool :=
  char.toNat ∈ [0xa, 0xd, 0x2028, 0x2029]

/-- An embedded dotted tail: what stands up to the last colon, and the part after it. -/
def dottedTail (value : List Char) : Option (List Char × List Char) :=
  let tail := (value.reverse.takeWhile (· ≠ ':')).reverse
  let head := value.take (value.length - tail.length)
  if head ≠ [] ∧ !head.any isLineTerminator ∧ (dottedQuad tail).isSome then some (head, tail)
  else none

/-- The eight hextets of an IPv6 address without an embedded tail. -/
def expandHextets (value : List Char) : Option (List Nat) :=
  let halves := splitDoubleColon value
  let parse (half : List Char) := if half = [] then [] else splitAt ':' half
  let head := parse (halves.headD [])
  let rest := if halves.length = 2 then parse (halves.getD 1 []) else []
  let used := head.length + rest.length
  if halves.length > 2 ∨ !(head ++ rest).all isHextet then none
  else if (if halves.length = 2 then used > 7 else used ≠ 8) then none
  else
    some ((head.map hexValue) ++ List.replicate (8 - used) 0 ++ rest.map hexValue)

def expandIpv6 (value : List Char) : Option (List Nat) :=
  match dottedTail value with
  | none => expandHextets value
  | some (head, tail) =>
      match ipv4 tail with
      | some [a, b, c, d] =>
          expandHextets (head ++ toBase16 (a * 256 + b) ++ ':' :: toBase16 (c * 256 + d))
      | _ => none

/-- `raw.trim().toLowerCase()`, without brackets and without a zone. -/
def ipText (platform : Platform) (raw : String) : List Char :=
  let value := (platform.toLowerCase (.ofList (jsTrim raw.toList))).toList
  let inner := (value.drop 1).dropLast
  let unbracketed :=
    if 2 ≤ value.length ∧ value.head? = some '[' ∧ value.getLast? = some ']'
        ∧ !inner.any isLineTerminator then inner
    else value
  (splitAt '%' unbracketed).headD []

def ipRateLimitKey (platform : Platform) (raw : String) : String :=
  let value := ipText platform raw
  match ipv4 value with
  | some parts => .ofList (joinDotted parts)
  | none =>
      if !value.contains ':' then .ofList value
      else
        match expandIpv6 value with
        | none => .ofList value
        | some hextets =>
            if hextets.take 6 = [0, 0, 0, 0, 0, 0xffff] then
              let hi := hextets.getD 6 0
              let lo := hextets.getD 7 0
              .ofList (joinDotted [hi / 256, hi % 256, lo / 256, lo % 256])
            else
              .ofList (((hextets.take 4).map toBase16 |>.intersperse [':']).flatten ++ "::/64".toList)

end WorkersAuth.DeviceAuth

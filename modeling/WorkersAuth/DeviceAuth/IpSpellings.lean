import WorkersAuth.DeviceAuth.Deployment
import WorkersAuth.Encodings.Texts
import Mathlib.Data.List.Forall2

/-! The rate-limit key of every spelling of an address.
An address may be written in either case, with leading zeros, with `::` for any groups of zeros
and with its last 32 bits in dotted form. All spellings of an address have one key, and two
addresses share it exactly when they carry the same IPv4 address or lie in the same /64.
-/

namespace WorkersAuth.DeviceAuth

-----------------------------------------------------------------------------------------
-- Addresses
-----------------------------------------------------------------------------------------

/-- The four bytes of an IPv4 address. -/
structure Ipv4Address where
  bytes : List Nat
  length_eq : bytes.length = 4
  small : ∀ byte ∈ bytes, byte < 256

/-- The eight hextets of an IPv6 address. -/
structure Ipv6Address where
  hextets : List Nat
  length_eq : hextets.length = 8
  small : ∀ hextet ∈ hextets, hextet < 65536

inductive IpAddress where
  | v4 (address : Ipv4Address)
  | v6 (address : Ipv6Address)

namespace IpAddress

/-- The 32 bits of an IPv4 address, also when an IPv4-mapped address carries them. -/
def carried : IpAddress → Option (List Nat)
  | .v4 address => some address.bytes
  | .v6 address =>
      if address.hextets.take 6 = [0, 0, 0, 0, 0, 0xffff] then
        some ((address.hextets.drop 6).flatMap (fun hextet => [hextet / 256, hextet % 256]))
      else none

/-- The first 64 bits of an IPv6 address. -/
def network : IpAddress → List Nat
  | .v4 _ => []
  | .v6 address => address.hextets.take 4

end IpAddress

-----------------------------------------------------------------------------------------
-- Spellings
-----------------------------------------------------------------------------------------

/-- The value of a digit, in either case. -/
def digitValue (char : Char) : Nat :=
  if isDigitChar char then char.toNat - 48 else char.toLower.toNat - 87

/-- The value of some digits. -/
def numeral (base : Nat) (text : List Char) : Nat :=
  text.foldl (fun value char => value * base + digitValue char) 0

/-- A byte in up to three decimal digits. -/
structure Decimal (text : List Char) (byte : Nat) : Prop where
  digits : text.all isDigitChar
  length : 1 ≤ text.length ∧ text.length ≤ 3
  value : numeral 10 text = byte
  small : byte < 256

/-- A hextet in up to four hexadecimal digits of either case. -/
structure Hexadecimal (text : List Char) (hextet : Nat) : Prop where
  digits : text.all (fun char => isHexChar char.toLower)
  length : 1 ≤ text.length ∧ text.length ≤ 4
  value : numeral 16 text = hextet

/-- Four bytes between dots. -/
def Dotted (text : List Char) (bytes : List Nat) : Prop :=
  ∃ parts, List.Forall₂ Decimal parts bytes ∧ bytes.length = 4 ∧ text = ['.'].intercalate parts

/-- The texts between colons and their hextets; the last text may be dotted. -/
inductive Fields : List (List Char) → List Nat → Prop
  | hexadecimal {parts hextets} (each : List.Forall₂ Hexadecimal parts hextets)
    : Fields parts hextets
  | dotted {parts hextets tail a b c d} (each : List.Forall₂ Hexadecimal parts hextets)
    (last : Dotted tail [a, b, c, d])
    : Fields (parts ++ [tail]) (hextets ++ [a * 256 + b, c * 256 + d])

/-- The texts of an IPv6 address: all its fields, or those around `::`. -/
inductive Ipv6Text : List Char → List Nat → Prop
  | full {parts hextets} (fields : Fields parts hextets)
    : Ipv6Text ([':'].intercalate parts) hextets
  | compressed {before high zeros after low} (head : List.Forall₂ Hexadecimal before high)
    (compresses : 0 < zeros) (rest : Fields after low)
    : Ipv6Text ([':'].intercalate before ++ ':' :: ':' :: [':'].intercalate after)
        (high ++ List.replicate zeros 0 ++ low)

/-- The texts of an address. -/
inductive AddressText : List Char → IpAddress → Prop
  | v4 {text address} (dotted : Dotted text address.bytes) : AddressText text (.v4 address)
  | v6 {text address} (spelled : Ipv6Text text address.hextets) : AddressText text (.v6 address)

/-- What may stand around the text of an address. -/
structure Surround where
  before : List Char
  bracketed : Bool
  zone : Option (List Char)
  after : List Char
  blank_before : ∀ char ∈ before, isJsSpace char
  blank_after : ∀ char ∈ after, isJsSpace char
  visible : ∀ char ∈ zone.getD [], 0x21 ≤ char.toNat ∧ char.toNat ≤ 0x7E

namespace Surround

/-- The text, and the zone behind it. -/
def zoned (around : Surround) (text : List Char) : List Char :=
  text ++ (around.zone.map ('%' :: ·)).getD []

/-- The brackets around them. -/
def core (around : Surround) (text : List Char) : List Char :=
  if around.bracketed then '[' :: around.zoned text ++ [']'] else around.zoned text

def apply (around : Surround) (text : List Char) : String :=
  .ofList (around.before ++ around.core text ++ around.after)

end Surround

/-- A legal spelling of an address. -/
def Spells (raw : String) (address : IpAddress) : Prop :=
  ∃ text around, AddressText text address ∧ raw = Surround.apply around text

-----------------------------------------------------------------------------------------
-- Splitting
-----------------------------------------------------------------------------------------

/-- Splitting at a character, by induction on the text. -/
theorem splitAt_eq_splitOn (separator : Char) (text : List Char)
    : splitAt separator text = text.splitOn separator := by
  induction text with
  | nil => rfl
  | cons char rest ih =>
      rw [splitAt, List.splitOn_cons_eq_if_modifyHead, ih]
      by_cases same : char = separator
      · simp [same]
      · have parts := List.splitOn_ne_nil separator rest
        cases split : rest.splitOn separator with
        | nil => exact absurd split parts
        | cons first others => simp [same]

/-- Joined parts are split again. -/
theorem splitAt_intercalate {separator : Char} {parts : List (List Char)} (nonempty : parts ≠ [])
    (absent : ∀ part ∈ parts, separator ∉ part)
    : splitAt separator ([separator].intercalate parts) = parts := by
  rw [splitAt_eq_splitOn, List.splitOn_intercalate separator absent nonempty]

theorem splitDoubleColon_ne_nil (text : List Char) : splitDoubleColon text ≠ [] := by
  fun_cases splitDoubleColon text
  all_goals simp

/-- A character that does not begin `::` belongs to the first part. -/
theorem splitDoubleColon_cons {char : Char} {rest : List Char}
    (single : char = ':' → rest.head? ≠ some ':')
    : splitDoubleColon (char :: rest)
      = (char :: (splitDoubleColon rest).headD []) :: (splitDoubleColon rest).tail := by
  rw [splitDoubleColon]
  intro later first second
  rw [second] at single
  exact single first rfl

/-- What follows some text without colons is split first, by induction on the text. -/
theorem splitDoubleColon_append {part : List Char} (absent : ':' ∉ part) (rest : List Char)
    : splitDoubleColon (part ++ rest)
      = (part ++ (splitDoubleColon rest).headD []) :: (splitDoubleColon rest).tail := by
  induction part with
  | nil =>
      have parts := splitDoubleColon_ne_nil rest
      rw [List.nil_append, List.nil_append]
      cases split : splitDoubleColon rest with
      | nil => exact absurd split parts
      | cons first others => rfl
  | cons char later ih =>
      rw [List.mem_cons, not_or] at absent
      rw [List.cons_append, splitDoubleColon_cons (fun same => absurd same.symm absent.1),
        ih absent.2]
      rfl

/-- Parts that are joined by colons are not split, by induction on them. -/
theorem splitDoubleColon_intercalate {parts : List (List Char)}
    (absent : ∀ part ∈ parts, ':' ∉ part) (nonempty : ∀ part ∈ parts, part ≠ []) (rest : List Char)
    : splitDoubleColon ([':'].intercalate parts ++ rest)
      = ([':'].intercalate parts ++ (splitDoubleColon rest).headD [])
        :: (splitDoubleColon rest).tail := by
  induction parts with
  | nil => exact splitDoubleColon_append (by simp) rest
  | cons first others ih =>
      have plain := absent first List.mem_cons_self
      cases others with
      | nil =>
          rw [List.intercalate_singleton]
          exact splitDoubleColon_append plain rest
      | cons second later =>
          have next := ih (fun part member => absent part (List.mem_cons_of_mem _ member))
            (fun part member => nonempty part (List.mem_cons_of_mem _ member))
          have begun : ([':'].intercalate (second :: later) ++ rest).head? ≠ some ':' := by
            have plain := absent second (by simp)
            have filled := nonempty second (by simp)
            cases second with
            | nil => exact absurd rfl filled
            | cons char more =>
                rw [List.mem_cons, not_or] at plain
                cases later with
                | nil => simpa using Ne.symm plain.1
                | cons third most => simpa [List.intercalate_cons_cons] using Ne.symm plain.1
          rw [List.intercalate_cons_cons, List.append_assoc, List.append_assoc,
            splitDoubleColon_append plain, List.singleton_append,
            splitDoubleColon_cons (fun _ => begun), next]
          simp

/-- Fields around `::` are split at it. -/
theorem splitDoubleColon_compressed {before after : List (List Char)}
    (absent : ∀ part ∈ before ++ after, ':' ∉ part) (nonempty : ∀ part ∈ before ++ after, part ≠ [])
    : splitDoubleColon ([':'].intercalate before ++ ':' :: ':' :: [':'].intercalate after)
      = [[':'].intercalate before, [':'].intercalate after] := by
  have second := @splitDoubleColon_intercalate after
    (fun part member => absent part (List.mem_append_right _ member))
    (fun part member => nonempty part (List.mem_append_right _ member)) []
  rw [splitDoubleColon_intercalate (fun part member => absent part (List.mem_append_left _ member))
    (fun part member => nonempty part (List.mem_append_left _ member)), splitDoubleColon]
  rw [List.append_nil] at second
  rw [second]
  simp [splitDoubleColon]

-----------------------------------------------------------------------------------------
-- Fields of an IPv6 address
-----------------------------------------------------------------------------------------

/-- A hextet as the parser reads it. -/
structure Hextet (text : List Char) (hextet : Nat) : Prop where
  valid : isHextet text
  value : hexValue text = hextet

theorem Hextet.nonempty {text : List Char} {hextet : Nat} (read : Hextet text hextet)
    : text ≠ [] := by
  rintro rfl
  exact absurd read.valid (by decide)

/-- A hextet has no separator. -/
theorem Hextet.not_mem {text : List Char} {hextet : Nat} (read : Hextet text hextet) {char : Char}
    (separates : isHexChar char = false) : char ∉ text := by
  intro member
  have valid := read.valid
  simp only [isHextet, Bool.and_eq_true, List.all_eq_true] at valid
  rw [valid.2 char member] at separates
  cases separates

/-- Each element has one that is related to it, by induction on the lists. -/
theorem exists_of_mem {α β : Type} {relates : α → β → Prop} {list : List α} {others : List β}
    (each : List.Forall₂ relates list others)
    : ∀ element ∈ list, ∃ other ∈ others, relates element other := by
  induction each with
  | nil => exact nofun
  | @cons first other _ _ related _ ih =>
      intro element member
      rw [List.mem_cons] at member
      rcases member with rfl | later
      · exact ⟨other, List.mem_cons_self, related⟩
      · obtain ⟨found, listed, related⟩ := ih element later
        exact ⟨found, List.mem_cons_of_mem _ listed, related⟩

/-- Some hextets are valid, and their values are read. -/
theorem hextets_read {parts : List (List Char)} {hextets : List Nat}
    (each : List.Forall₂ Hextet parts hextets)
    : parts.all isHextet ∧ parts.map hexValue = hextets := by
  induction each with
  | nil => simp
  | cons read _ ih => simp [read.valid, read.value, ih.1, ih.2]

/-- The parts of hextets that are joined by colons, also of none. -/
theorem parse_intercalate {parts : List (List Char)} {hextets : List Nat}
    (each : List.Forall₂ Hextet parts hextets)
    : (if [':'].intercalate parts = [] then [] else splitAt ':' ([':'].intercalate parts))
      = parts := by
  cases each with
  | nil => rfl
  | @cons first hextet others rest read later =>
      have filled : [':'].intercalate (first :: others) ≠ [] := by
        cases others with
        | nil => simpa using read.nonempty
        | cons second more => simp [List.intercalate_cons_cons]
      rw [if_neg filled, splitAt_intercalate (List.cons_ne_nil _ _)]
      intro part member
      obtain ⟨value, -, valid⟩ := exists_of_mem (.cons read later) part member
      exact valid.not_mem (by decide)

/-- Hextets have no colon and are not empty. -/
theorem hextets_plain {parts : List (List Char)} {hextets : List Nat}
    (each : List.Forall₂ Hextet parts hextets) : ∀ part ∈ parts, ':' ∉ part ∧ part ≠ [] := by
  intro part member
  obtain ⟨value, -, read⟩ := exists_of_mem each part member
  exact ⟨read.not_mem (by decide), read.nonempty⟩

/-- Eight hextets are read as they stand. -/
theorem expandHextets_full {parts : List (List Char)} {hextets : List Nat}
    (each : List.Forall₂ Hextet parts hextets) (eight : hextets.length = 8)
    : expandHextets ([':'].intercalate parts) = some hextets := by
  have plain := hextets_plain each
  have single := splitDoubleColon_intercalate (fun part member => (plain part member).1)
    (fun part member => (plain part member).2) []
  have read := hextets_read each
  have length := each.length_eq
  rw [List.append_nil] at single
  simp only [splitDoubleColon, List.headD_cons, List.append_nil, List.tail_cons] at single
  simp only [expandHextets, single, List.length_cons, List.length_nil, List.headD_cons,
    parse_intercalate each]
  simp [read, length, eight]

/-- Hextets around `::` are read with zeros between them. -/
theorem expandHextets_compressed {before after : List (List Char)} {high low : List Nat}
    {zeros : Nat} (head : List.Forall₂ Hextet before high) (rest : List.Forall₂ Hextet after low)
    (compresses : 0 < zeros) (eight : high.length + zeros + low.length = 8)
    : expandHextets ([':'].intercalate before ++ ':' :: ':' :: [':'].intercalate after)
      = some (high ++ List.replicate zeros 0 ++ low) := by
  have plain : ∀ part ∈ before ++ after, ':' ∉ part ∧ part ≠ [] := by
    intro part member
    rcases List.mem_append.mp member with first | second
    · exact hextets_plain head part first
    · exact hextets_plain rest part second
  have halves := splitDoubleColon_compressed (fun part member => (plain part member).1)
    (fun part member => (plain part member).2)
  obtain ⟨valid, values⟩ := hextets_read head
  obtain ⟨valid', values'⟩ := hextets_read rest
  have lengths := head.length_eq
  have lengths' := rest.length_eq
  have missing : 8 - (before.length + after.length) = zeros := by omega
  simp only [expandHextets, halves, List.length_cons, List.length_nil, List.headD_cons,
    List.getD_cons_succ, List.getD_cons_zero, parse_intercalate head, parse_intercalate rest,
    List.all_append, valid, valid', values, values', missing, if_true]
  rw [if_neg (by simp), if_neg (by omega)]

-----------------------------------------------------------------------------------------
-- Numbers in texts
-----------------------------------------------------------------------------------------

/-- Decimal digits are read as their value, by induction on them. -/
theorem decimalValue_eq {text : List Char} (digits : text.all isDigitChar)
    : decimalValue text = numeral 10 text := by
  have each : ∀ value, text.foldl (fun value digit => value * 10 + (digit.toNat - '0'.toNat)) value
      = text.foldl (fun value char => value * 10 + digitValue char) value := by
    induction text with
    | nil => exact fun _ => rfl
    | cons char rest ih =>
        rw [List.all_cons, Bool.and_eq_true] at digits
        intro value
        rw [List.foldl_cons, List.foldl_cons, ih digits.2, digitValue, if_pos digits.1]
        rfl
  exact each 0

/-- A character from 128 on has no lower case of its own. -/
theorem toLower_of_large {char : Char} (large : 128 ≤ char.toNat) : char.toLower = char := by
  refine dif_neg ?_
  rintro ⟨-, upper⟩
  have most : char.toNat ≤ 90 := upper
  omega

theorem isHexChar_lt {char : Char} (digit : isHexChar char) : char.toNat < 128 := by
  simp only [isHexChar, Bool.or_eq_true, Bool.and_eq_true, decide_eq_true_eq] at digit
  rcases digit with ⟨_, most⟩ | ⟨_, most⟩
  · have bound : char.toNat ≤ 57 := most
    omega
  · have bound : char.toNat ≤ 102 := most
    omega

/-- A character whose lower case is hexadecimal is one of the first 128. -/
theorem lt_of_isHexChar_toLower {char : Char} (digit : isHexChar char.toLower)
    : char.toNat < 128 := by
  by_contra large
  rw [toLower_of_large (by omega)] at digit
  exact large (isHexChar_lt digit)

/-- A lower-case hexadecimal digit has the value of the digit. -/
theorem hexDigit_toLower {char : Char} (digit : isHexChar char.toLower)
    : (if isDigitChar char.toLower then char.toLower.toNat - '0'.toNat
        else char.toLower.toNat - 'a'.toNat + 10)
      = digitValue char := by
  have each : ∀ code : Fin 128, isHexChar (Char.ofNat code).toLower
      → (if isDigitChar (Char.ofNat code).toLower then (Char.ofNat code).toLower.toNat - '0'.toNat
          else (Char.ofNat code).toLower.toNat - 'a'.toNat + 10)
        = digitValue (Char.ofNat code) := by decide
  have read := each ⟨char.toNat, lt_of_isHexChar_toLower digit⟩
  rw [Char.ofNat_toNat] at read
  exact read digit

/-- A hextet in any case is read after it was changed to lower case. -/
theorem Hexadecimal.toLower {text : List Char} {hextet : Nat} (spelled : Hexadecimal text hextet)
    : Hextet (text.map Char.toLower) hextet := by
  constructor
  case valid =>
    simp only [isHextet, List.length_map, spelled.length, List.all_map, Bool.and_eq_true]
    exact ⟨by simp, spelled.digits⟩
  case value =>
    rw [← spelled.value]
    have digits := spelled.digits
    have each : ∀ value, (text.map Char.toLower).foldl
        (fun value digit => value * 16
          + (if isDigitChar digit then digit.toNat - '0'.toNat else digit.toNat - 'a'.toNat + 10))
        value = text.foldl (fun value char => value * 16 + digitValue char) value := by
      clear spelled
      induction text with
      | nil => exact fun _ => rfl
      | cons char rest ih =>
          rw [List.all_cons, Bool.and_eq_true] at digits
          intro value
          rw [List.map_cons, List.foldl_cons, List.foldl_cons, ih digits.2,
            hexDigit_toLower digits.1]
    exact each 0

/-- A digit below sixteen is hexadecimal and has its value. -/
theorem digitChar_read {digit : Nat} (small : digit < 16)
    : isHexChar digit.digitChar
      ∧ (if isDigitChar digit.digitChar then digit.digitChar.toNat - '0'.toNat
          else digit.digitChar.toNat - 'a'.toNat + 10) = digit := by
  interval_cases digit
  all_goals decide

/-- What is written in base sixteen is hexadecimal and is read back, by induction on the number. -/
theorem hexValue_toBase16 (value : Nat)
    : (toBase16 value).all isHexChar ∧ hexValue (toBase16 value) = value := by
  induction value using Nat.strongRecOn with
  | ind value ih =>
      rw [toBase16, Nat.toDigits_eq_if (by decide)]
      split
      · next small =>
          obtain ⟨valid, read⟩ := digitChar_read small
          simpa [hexValue, valid] using read
      · next large =>
          obtain ⟨valid, read⟩ := digitChar_read (Nat.mod_lt value (show 16 > 0 by decide))
          obtain ⟨front, before⟩ := ih (value / 16) (by omega)
          simp only [toBase16, hexValue] at front before
          rw [List.all_append, front, hexValue, List.foldl_append, before]
          refine ⟨by simp [valid], ?_⟩
          simp only [List.foldl_cons, List.foldl_nil, read]
          omega

/-- A number of sixteen bits is written as a hextet. -/
theorem hextet_toBase16 {value : Nat} (small : value < 65536) : Hextet (toBase16 value) value := by
  obtain ⟨valid, read⟩ := hexValue_toBase16 value
  have short := (Nat.length_toDigits_le_iff (k := 4) (n := value) (b := 16) (by decide)
    (by decide)).mpr small
  have long : 0 < (Nat.toDigits 16 value).length := Nat.length_toDigits_pos
  refine ⟨?_, read⟩
  simp only [isHextet, valid, Bool.and_true, Bool.and_eq_true, decide_eq_true_eq]
  exact ⟨long, short⟩

-----------------------------------------------------------------------------------------
-- Dotted texts
-----------------------------------------------------------------------------------------

/-- Four bytes between dots are read. -/
theorem Dotted.ipv4 {text : List Char} {bytes : List Nat} (dotted : Dotted text bytes)
    : ipv4 text = some bytes := by
  obtain ⟨parts, each, four, rfl⟩ := dotted
  have length := each.length_eq
  have nonempty : parts ≠ [] := by
    rintro rfl
    rw [four] at length
    cases length
  have absent : ∀ part ∈ parts, '.' ∉ part := by
    intro part member dot
    obtain ⟨byte, -, spelled⟩ := exists_of_mem each part member
    exact absurd (List.all_eq_true.mp spelled.digits '.' dot) (by decide)
  have valid : parts.all
      (fun part => 1 ≤ part.length && part.length ≤ 3 && part.all isDigitChar) := by
    rw [List.all_eq_true]
    intro part member
    obtain ⟨byte, -, spelled⟩ := exists_of_mem each part member
    simp [spelled.length, spelled.digits]
  have values : parts.map decimalValue = bytes := by
    clear four length nonempty absent valid
    induction each with
    | nil => rfl
    | cons spelled _ ih =>
        rw [List.map_cons, ih, decimalValue_eq spelled.digits, spelled.value]
  have small : bytes.all (· ≤ 255) := by
    rw [List.all_eq_true]
    intro byte member
    obtain ⟨part, -, spelled⟩ := exists_of_mem each.flip byte member
    have bound := spelled.small
    rw [decide_eq_true_eq]
    omega
  rw [DeviceAuth.ipv4, dottedQuad, splitAt_intercalate nonempty absent]
  simp only [length, four, valid, values, and_self, if_true, Option.filter_some, small]

/-- Every byte of a dotted text is small. -/
theorem Dotted.small {text : List Char} {bytes : List Nat} (dotted : Dotted text bytes)
    : ∀ byte ∈ bytes, byte < 256 := by
  obtain ⟨parts, each, -, -⟩ := dotted
  intro byte member
  obtain ⟨part, -, spelled⟩ := exists_of_mem each.flip byte member
  exact spelled.small

/-- A dotted text has only digits and dots. -/
theorem Dotted.mem {text : List Char} {bytes : List Nat} (dotted : Dotted text bytes)
    : ∀ char ∈ text, isDigitChar char ∨ char = '.' := by
  obtain ⟨parts, each, -, rfl⟩ := dotted
  intro char member
  rcases Encodings.mem_intercalate member with dot | ⟨part, listed, inPart⟩
  · exact .inr (by simpa using dot)
  · obtain ⟨byte, -, spelled⟩ := exists_of_mem each part listed
    exact .inl (List.all_eq_true.mp spelled.digits char inPart)

/-- A digit has no lower case of its own. -/
theorem toLower_digit {char : Char} (digit : isDigitChar char) : char.toLower = char := by
  simp only [isDigitChar, Bool.and_eq_true, decide_eq_true_eq] at digit
  refine dif_neg ?_
  rintro ⟨upper, -⟩
  have most : char.toNat ≤ 57 := digit.2
  have least : 65 ≤ char.toNat := upper
  omega

/-- A dotted text is in lower case. -/
theorem Dotted.toLower {text : List Char} {bytes : List Nat} (dotted : Dotted text bytes)
    : text.map Char.toLower = text := by
  have each : ∀ char ∈ text, char.toLower = char := by
    intro char member
    rcases dotted.mem char member with digit | rfl
    · exact toLower_digit digit
    · rfl
  rw [List.map_congr_left each, List.map_id']

/-- A text with a colon or without dots is no IPv4 address. -/
theorem dottedQuad_eq_none {text : List Char} (other : ':' ∈ text ∨ '.' ∉ text)
    : dottedQuad text = none := by
  refine if_neg ?_
  rintro ⟨four, valid⟩
  rw [splitAt_eq_splitOn] at four valid
  rcases other with colon | plain
  · have joined : ['.'].intercalate (text.splitOn '.') = text := List.intercalate_splitOn '.'
    rw [← joined] at colon
    rcases Encodings.mem_intercalate colon with dot | ⟨part, listed, inPart⟩
    · exact absurd dot (by decide)
    · have digits := List.all_eq_true.mp valid part listed
      simp only [Bool.and_eq_true, List.all_eq_true] at digits
      exact absurd (digits.2 ':' inPart) (by decide)
  · rw [List.splitOn_eq_singleton plain] at four
    cases four

-----------------------------------------------------------------------------------------
-- The last field
-----------------------------------------------------------------------------------------

/-- The part after the last colon is a tail when it is dotted. -/
theorem dottedTail_append {front last : List Char} (plain : ':' ∉ last)
    : dottedTail (front ++ ':' :: last)
      = if !front.any isLineTerminator ∧ (dottedQuad last).isSome then some (front ++ [':'], last)
        else none := by
  have colonless : ∀ char ∈ last.reverse, decide (char ≠ ':') = true := by
    intro char member
    rw [decide_eq_true_eq]
    rintro rfl
    exact plain (List.mem_reverse.mp member)
  have tail : ((front ++ ':' :: last).reverse.takeWhile (· ≠ ':')).reverse = last := by
    rw [List.reverse_append, List.reverse_cons, List.append_assoc,
      List.takeWhile_append_of_pos colonless]
    simp
  have head : (front ++ ':' :: last).take ((front ++ ':' :: last).length - last.length)
      = front ++ [':'] := by
    have length : (front ++ ':' :: last).length - last.length = (front ++ [':']).length := by
      simp only [List.length_append, List.length_cons, List.length_nil]
      omega
    have text : front ++ ':' :: last = (front ++ [':']) ++ last := by simp
    rw [length, text, List.take_left]
  have terminators : (front ++ [':']).any isLineTerminator = front.any isLineTerminator := by
    rw [List.any_append]
    exact Bool.or_false _
  unfold dottedTail
  dsimp only
  rw [tail, head, terminators]
  simp

/-- Joined hextets behind a colon end in one, or in nothing. -/
theorem exists_last {parts : List (List Char)} {hextets : List Nat}
    (each : List.Forall₂ Hextet parts hextets) (start : List Char)
    : ∃ front last, start ++ ':' :: [':'].intercalate parts = front ++ ':' :: last
      ∧ ':' ∉ last ∧ '.' ∉ last := by
  rcases List.eq_nil_or_concat parts with rfl | ⟨others, last, rfl⟩
  · exact ⟨start, [], rfl, by simp, by simp⟩
  · obtain ⟨value, -, read⟩ := exists_of_mem each last (by simp)
    have colonless := @Hextet.not_mem _ _ read ':' (by decide)
    have dotless := @Hextet.not_mem _ _ read '.' (by decide)
    by_cases single : others = []
    · subst single
      exact ⟨start, last, by simp, colonless, dotless⟩
    · refine ⟨start ++ ':' :: [':'].intercalate others, last, ?_, colonless, dotless⟩
      rw [List.concat_eq_append, Encodings.intercalate_concat single]
      simp

/-- An address without a dotted tail is expanded as it stands. -/
theorem expandIpv6_undotted {parts : List (List Char)} {hextets : List Nat} {start : List Char}
    (each : List.Forall₂ Hextet parts hextets)
    : expandIpv6 (start ++ ':' :: [':'].intercalate parts)
      = expandHextets (start ++ ':' :: [':'].intercalate parts) := by
  obtain ⟨front, last, text, colonless, dotless⟩ := exists_last each start
  rw [text, expandIpv6, dottedTail_append colonless, dottedQuad_eq_none (.inr dotless),
    if_neg (by simp)]

/-- Joined hextets have no line terminator. -/
theorem hextets_printed {parts : List (List Char)} {hextets : List Nat}
    (each : List.Forall₂ Hextet parts hextets)
    : ([':'].intercalate parts).any isLineTerminator = false := by
  rw [List.any_eq_false]
  intro char member terminator
  rcases Encodings.mem_intercalate member with colon | ⟨part, listed, inPart⟩
  · rw [List.mem_singleton.mp colon] at terminator
    exact absurd terminator (by decide)
  · obtain ⟨value, -, read⟩ := exists_of_mem each part listed
    have valid := read.valid
    simp only [isHextet, Bool.and_eq_true, List.all_eq_true] at valid
    have small := isHexChar_lt (valid.2 char inPart)
    simp only [isLineTerminator, decide_eq_true_eq, List.mem_cons, List.not_mem_nil, or_false]
      at terminator
    rcases terminator with feed | carriage | large | large
    · have same : char = '\n' := Char.toNat_inj.mp feed
      rw [same] at inPart
      exact absurd (valid.2 _ inPart) (by decide)
    · have same : char = '\r' := Char.toNat_inj.mp carriage
      rw [same] at inPart
      exact absurd (valid.2 _ inPart) (by decide)
    · omega
    · omega

/-- A byte pair is a hextet. -/
theorem pair_lt {high low : Nat} (first : high < 256) (second : low < 256)
    : high * 256 + low < 65536 := by
  omega

/-- A dotted tail is expanded as the two hextets it stands for. -/
theorem expandIpv6_dotted {parts : List (List Char)} {start tail : List Char}
    {a b c d : Nat} (last : Dotted tail [a, b, c, d])
    (printed : (start ++ ':' :: [':'].intercalate parts).any isLineTerminator = false)
    : expandIpv6 (start ++ ':' :: [':'].intercalate (parts ++ [tail]))
      = expandHextets (start ++ ':' :: [':'].intercalate
          (parts ++ [toBase16 (a * 256 + b), toBase16 (c * 256 + d)])) := by
  have colonless : ':' ∉ tail := by
    intro colon
    have read := last.ipv4
    rw [ipv4, dottedQuad_eq_none (.inl colon)] at read
    cases read
  have quad : (dottedQuad tail).isSome := by
    have read := last.ipv4
    rw [ipv4, Option.filter_eq_some_iff] at read
    exact Option.isSome_of_mem read.1
  have expanded : ∀ front : List Char, front.any isLineTerminator = false
      → expandIpv6 (front ++ ':' :: tail) = expandHextets
          (front ++ ':' :: (toBase16 (a * 256 + b) ++ ':' :: toBase16 (c * 256 + d))) := by
    intro front plain
    rw [expandIpv6, dottedTail_append colonless, if_pos ⟨by simp [plain], quad⟩]
    simp only [last.ipv4, List.append_assoc, List.cons_append, List.nil_append]
  by_cases none : parts = []
  · subst none
    have plain : start.any isLineTerminator = false := by
      rw [List.any_append, Bool.or_eq_false_iff] at printed
      exact printed.1
    simpa [List.intercalate_cons_cons] using expanded start plain
  · have joined : [':'].intercalate (parts ++ [tail])
        = [':'].intercalate parts ++ ':' :: tail := by
      rw [Encodings.intercalate_concat none]
      simp
    have pair : [':'].intercalate (parts ++ [toBase16 (a * 256 + b), toBase16 (c * 256 + d)])
        = [':'].intercalate parts
          ++ ':' :: (toBase16 (a * 256 + b) ++ ':' :: toBase16 (c * 256 + d)) := by
      rw [List.append_cons, Encodings.intercalate_concat (by simp),
        Encodings.intercalate_concat none]
      simp
    have text := expanded (start ++ ':' :: [':'].intercalate parts) printed
    rw [joined, pair]
    simpa using text

/-- Fields in any case, changed to lower case, are expanded as some hextets with the same values. -/
theorem Fields.expandIpv6 {parts : List (List Char)} {hextets : List Nat}
    (fields : Fields parts hextets)
    : ∃ read, List.Forall₂ Hextet read hextets
      ∧ ∀ start : List Char, start.any isLineTerminator = false
        → DeviceAuth.expandIpv6
            (start ++ ':' :: [':'].intercalate (parts.map (List.map Char.toLower)))
          = expandHextets (start ++ ':' :: [':'].intercalate read) := by
  have lowered : ∀ {parts hextets}, List.Forall₂ Hexadecimal parts hextets
      → List.Forall₂ Hextet (parts.map (List.map Char.toLower)) hextets := by
    intro parts hextets each
    exact List.forall₂_map_left_iff.mpr (each.imp (fun _ _ spelled => spelled.toLower))
  cases fields with
  | hexadecimal each => exact ⟨_, lowered each, fun start _ => expandIpv6_undotted (lowered each)⟩
  | @dotted parts hextets tail a b c d each last =>
      have same : tail.map Char.toLower = tail := last.toLower
      have small := last.small
      have first : a * 256 + b < 65536 := pair_lt (small a (by simp)) (small b (by simp))
      have second : c * 256 + d < 65536 := pair_lt (small c (by simp)) (small d (by simp))
      refine ⟨parts.map (List.map Char.toLower) ++ [toBase16 (a * 256 + b), toBase16 (c * 256 + d)],
        ?_, ?_⟩
      · exact List.rel_append (lowered each)
          (.cons (hextet_toBase16 first) (.cons (hextet_toBase16 second) .nil))
      · intro start plain
        rw [List.map_append, List.map_singleton, same]
        refine expandIpv6_dotted last ?_
        rw [List.any_append, plain, List.any_cons, hextets_printed (lowered each)]
        decide

/-- Of at least three fields the first is hexadecimal. -/
theorem Fields.uncons {parts : List (List Char)} {hextets : List Nat}
    (fields : Fields parts hextets) (several : 3 ≤ hextets.length)
    : ∃ first rest hextet others, parts = first :: rest ∧ hextets = hextet :: others
      ∧ Hexadecimal first hextet ∧ Fields rest others := by
  cases fields with
  | hexadecimal each =>
      cases each with
      | nil => cases several
      | cons spelled later => exact ⟨_, _, _, _, rfl, rfl, spelled, .hexadecimal later⟩
  | dotted each last =>
      cases each with
      | nil => simp at several
      | cons spelled later => exact ⟨_, _, _, _, rfl, rfl, spelled, .dotted later last⟩

theorem Fields.parts_ne_nil {parts : List (List Char)} {hextets : List Nat}
    (fields : Fields parts hextets) (nonempty : hextets ≠ []) : parts ≠ [] := by
  cases fields with
  | hexadecimal each =>
      rintro rfl
      cases each
      exact nonempty rfl
  | dotted each last => simp

/-- The text of an IPv6 address, changed to lower case, is expanded to the address: the parser is
shown the same text with a dotted tail as two hextets.
-/
theorem expandIpv6_spelled {text : List Char} {hextets : List Nat} (spelled : Ipv6Text text hextets)
    (eight : hextets.length = 8) : expandIpv6 (text.map Char.toLower) = some hextets := by
  have lower : ∀ parts, ([':'].intercalate parts).map Char.toLower
      = [':'].intercalate (parts.map (List.map Char.toLower)) :=
    fun parts => Encodings.map_intercalate Char.toLower
  cases spelled with
  | full fields =>
      obtain ⟨first, rest, hextet, others, rfl, rfl, begun, later⟩ :=
        fields.uncons (by omega)
      obtain ⟨read, each, expands⟩ := later.expandIpv6
      have nonempty : others ≠ [] := by
        rintro rfl
        cases eight
      have filled : read ≠ [] := by
        rintro rfl
        cases each
        exact nonempty rfl
      have listed : rest.map (List.map Char.toLower) ≠ [] := by
        simpa using later.parts_ne_nil nonempty
      have joined : ∀ parts : List (List Char), parts ≠ [] → ∀ first : List Char,
          [':'].intercalate (first :: parts) = first ++ ':' :: [':'].intercalate parts := by
        intro parts nonempty first
        cases parts with
        | nil => exact absurd rfl nonempty
        | cons second more => simp [List.intercalate_cons_cons]
      have printed := hextets_printed (.cons begun.toLower .nil)
      rw [List.intercalate_singleton] at printed
      rw [lower, List.map_cons, joined _ listed, expands _ printed, ← joined _ filled]
      exact expandHextets_full (.cons begun.toLower each) eight
  | @compressed before high zeros after low head compresses rest =>
      obtain ⟨read, each, expands⟩ := rest.expandIpv6
      have begun : List.Forall₂ Hextet (before.map (List.map Char.toLower)) high :=
        List.forall₂_map_left_iff.mpr (head.imp (fun _ _ spelled => spelled.toLower))
      have printed : (([':'].intercalate before).map Char.toLower ++ [':']).any isLineTerminator
          = false := by
        rw [List.any_append, lower, hextets_printed begun]
        decide
      have text := expands _ printed
      have lengths : high.length + zeros + low.length = 8 := by
        simpa [Nat.add_assoc] using eight
      have expanded := expandHextets_compressed begun each compresses lengths
      rw [List.map_append, List.map_cons, List.map_cons, lower after]
      rw [lower] at text ⊢
      simp only [List.append_assoc, List.cons_append, List.nil_append] at text
      exact text.trans expanded

-----------------------------------------------------------------------------------------
-- The text of an address
-----------------------------------------------------------------------------------------

/-- The characters of an address text: hexadecimal digits, colons and dots. -/
def isAddressChar (char : Char) : Bool := isHexChar char.toLower || char = ':' || char = '.'

theorem isAddressChar_lt {char : Char} (plain : isAddressChar char) : char.toNat < 128 := by
  simp only [isAddressChar, Bool.or_eq_true, decide_eq_true_eq] at plain
  rcases plain with (digit | rfl) | rfl
  · exact lt_of_isHexChar_toLower digit
  · decide
  · decide

/-- No such character is white space, and its lower case is neither a bracket nor a zone mark. -/
theorem isAddressChar_plain {char : Char} (plain : isAddressChar char)
    : isJsSpace char = false ∧ char.toLower ≠ '[' ∧ char.toLower ≠ '%' := by
  have each : ∀ code : Fin 128, isAddressChar (Char.ofNat code)
      → isJsSpace (Char.ofNat code) = false ∧ (Char.ofNat code).toLower ≠ '['
        ∧ (Char.ofNat code).toLower ≠ '%' := by decide
  have read := each ⟨char.toNat, isAddressChar_lt plain⟩
  rw [Char.ofNat_toNat] at read
  exact read plain

/-- The characters of joined texts are those of the texts, and the separator. -/
theorem isAddressChar_intercalate {separator : Char} {parts : List (List Char)}
    (separates : isAddressChar separator) (each : ∀ part ∈ parts, ∀ char ∈ part, isAddressChar char)
    : ∀ char ∈ [separator].intercalate parts, isAddressChar char := by
  intro char member
  rcases Encodings.mem_intercalate member with same | ⟨part, listed, inPart⟩
  · rw [List.mem_singleton.mp same]
    exact separates
  · exact each part listed char inPart

theorem isAddressChar_hexadecimal {parts : List (List Char)} {hextets : List Nat}
    (each : List.Forall₂ Hexadecimal parts hextets)
    : ∀ part ∈ parts, ∀ char ∈ part, isAddressChar char := by
  intro part listed char inPart
  obtain ⟨hextet, -, spelled⟩ := exists_of_mem each part listed
  have digit := List.all_eq_true.mp spelled.digits char inPart
  simp only [isAddressChar, Bool.or_eq_true]
  exact .inl (.inl digit)

theorem isAddressChar_dotted {text : List Char} {bytes : List Nat} (dotted : Dotted text bytes)
    : ∀ char ∈ text, isAddressChar char := by
  intro char member
  rcases dotted.mem char member with digit | rfl
  · have hexadecimal : isHexChar char.toLower := by
      rw [toLower_digit digit]
      simp only [isDigitChar, Bool.and_eq_true, decide_eq_true_eq] at digit
      simp [isHexChar, digit]
    simp only [isAddressChar, Bool.or_eq_true]
    exact .inl (.inl hexadecimal)
  · decide

theorem isAddressChar_fields {parts : List (List Char)} {hextets : List Nat}
    (fields : Fields parts hextets) : ∀ char ∈ [':'].intercalate parts, isAddressChar char := by
  refine isAddressChar_intercalate (by decide) ?_
  cases fields with
  | hexadecimal each => exact isAddressChar_hexadecimal each
  | dotted each last =>
      intro part listed
      rw [List.mem_append, List.mem_singleton] at listed
      rcases listed with front | rfl
      · exact isAddressChar_hexadecimal each part front
      · exact isAddressChar_dotted last

/-- The text of an IPv6 address has only such characters, by cases on its form. -/
theorem Ipv6Text.mem {text : List Char} {hextets : List Nat} (spelled : Ipv6Text text hextets)
    : ∀ char ∈ text, isAddressChar char := by
  cases spelled with
  | full fields => exact isAddressChar_fields fields
  | compressed head _ rest =>
      have front := isAddressChar_intercalate (show isAddressChar ':' by decide)
        (isAddressChar_hexadecimal head)
      have back := isAddressChar_fields rest
      intro char member
      simp only [List.mem_append, List.mem_cons] at member
      rcases member with first | rfl | rfl | last
      · exact front char first
      · decide
      · decide
      · exact back char last

theorem AddressText.mem {text : List Char} {address : IpAddress} (spelled : AddressText text address)
    : ∀ char ∈ text, isAddressChar char := by
  cases spelled with
  | v4 dotted => exact isAddressChar_dotted dotted
  | v6 spelled => exact spelled.mem

/-- The text of an IPv6 address has a colon. -/
theorem Ipv6Text.colon {text : List Char} {hextets : List Nat} (spelled : Ipv6Text text hextets)
    (eight : hextets.length = 8) : ':' ∈ text := by
  cases spelled with
  | full fields =>
      obtain ⟨first, rest, hextet, others, rfl, rfl, -, later⟩ := fields.uncons (by omega)
      have nonempty : others ≠ [] := by
        rintro rfl
        cases eight
      cases listed : rest with
      | nil => exact absurd listed (later.parts_ne_nil nonempty)
      | cons second more => simp [List.intercalate_cons_cons]
  | compressed => simp

/-- The text of an address is not empty. -/
theorem AddressText.ne_nil {text : List Char} {address : IpAddress}
    (spelled : AddressText text address) : text ≠ [] := by
  cases spelled with
  | v4 dotted =>
      rintro rfl
      have read := dotted.ipv4
      have none : ipv4 [] = Option.none := by decide
      rw [none] at read
      cases read
  | @v6 address spelled =>
      rintro rfl
      cases spelled.colon address.length_eq

-----------------------------------------------------------------------------------------
-- Brackets, zones and spaces
-----------------------------------------------------------------------------------------

/-- White space around a text that has none of its own is trimmed. -/
theorem jsTrim_surrounded {before core after : List Char} (first : ∀ char ∈ before, isJsSpace char)
    (last : ∀ char ∈ after, isJsSpace char) (solid : ∀ char ∈ core, isJsSpace char = false)
    (nonempty : core ≠ []) : jsTrim (before ++ core ++ after) = core := by
  have kept : ∀ {text : List Char}, (∀ char ∈ text, isJsSpace char = false) → text ≠ []
      → ∀ rest, (text ++ rest).dropWhile isJsSpace = text ++ rest := by
    intro text solid nonempty rest
    cases text with
    | nil => exact absurd rfl nonempty
    | cons char others =>
        rw [List.cons_append, List.dropWhile_cons_of_neg (by simp [solid char])]
  rw [jsTrim, List.append_assoc, List.dropWhile_append_of_pos first, kept solid nonempty,
    List.reverse_append, List.dropWhile_append_of_pos (by simpa using last)]
  have back := @kept core.reverse (by simpa using solid) (by simpa using nonempty) []
  rw [List.append_nil] at back
  rw [back, List.reverse_reverse]

/-- A character that may stand in a spelling: it is ASCII, no white space, and its lower case ends
no line.
-/
structure Inner (char : Char) : Prop where
  small : char.toNat < 128
  solid : isJsSpace char = false
  continues : isLineTerminator char.toLower = false

/-- Visible ASCII characters may stand in a spelling. -/
theorem inner_of_visible {char : Char} (visible : 0x21 ≤ char.toNat ∧ char.toNat ≤ 0x7E)
    : Inner char := by
  have each : ∀ code : Fin 128, 0x21 ≤ code.val ∧ code.val ≤ 0x7E
      → isJsSpace (Char.ofNat code) = false
        ∧ isLineTerminator (Char.ofNat code).toLower = false := by decide
  have small : char.toNat < 128 := by omega
  have read := each ⟨char.toNat, small⟩ visible
  rw [Char.ofNat_toNat] at read
  exact ⟨small, read.1, read.2⟩

theorem inner_of_isAddressChar {char : Char} (plain : isAddressChar char) : Inner char := by
  have each : ∀ code : Fin 128, isAddressChar (Char.ofNat code)
      → 0x21 ≤ code.val ∧ code.val ≤ 0x7E := by decide
  have read := each ⟨char.toNat, isAddressChar_lt plain⟩
  rw [Char.ofNat_toNat] at read
  exact inner_of_visible (read plain)

namespace Surround

variable (around : Surround) {text : List Char} {address : IpAddress}

/-- The text and its zone may stand in a spelling. -/
theorem inner_zoned (spelled : AddressText text address) : ∀ char ∈ around.zoned text, Inner char := by
  intro char member
  rw [zoned, List.mem_append] at member
  rcases member with front | back
  · exact inner_of_isAddressChar (spelled.mem char front)
  · have visible := around.visible
    cases zone : around.zone with
    | none =>
        rw [zone] at back
        cases back
    | some name =>
        rw [zone] at back visible
        rcases List.mem_cons.mp back with rfl | listed
        · exact inner_of_visible (by decide)
        · exact inner_of_visible (visible char listed)

/-- So may the brackets around them. -/
theorem inner_core (spelled : AddressText text address) : ∀ char ∈ around.core text, Inner char := by
  have zoned := around.inner_zoned spelled
  intro char member
  rw [core] at member
  split at member
  · rw [List.cons_append, List.mem_cons, List.mem_append, List.mem_singleton] at member
    rcases member with rfl | inside | rfl
    · exact inner_of_visible (by decide)
    · exact zoned char inside
    · exact inner_of_visible (by decide)
  · exact zoned char member

theorem core_ne_nil (spelled : AddressText text address) : around.core text ≠ [] := by
  rw [core, zoned]
  split
  · exact List.cons_ne_nil _ _
  · intro empty
    exact spelled.ne_nil (List.append_eq_nil_iff.mp empty).1

/-- Before the zone stands the text. -/
theorem splitAt_zoned (spelled : AddressText text address)
    : (splitAt '%' ((around.zoned text).map Char.toLower)).headD [] = text.map Char.toLower := by
  have absent : '%' ∉ text.map Char.toLower := by
    intro member
    obtain ⟨char, listed, same⟩ := List.mem_map.mp member
    exact (isAddressChar_plain (spelled.mem char listed)).2.2 same
  rw [splitAt_eq_splitOn, zoned, List.map_append]
  cases around.zone with
  | none =>
      rw [Option.map_none, Option.getD_none, List.map_nil, List.append_nil,
        List.splitOn_eq_singleton absent]
      rfl
  | some name =>
      have zoneMark : Char.toLower '%' = '%' := by decide
      rw [Option.map_some, Option.getD_some, List.map_cons, zoneMark,
        List.splitOn_append_cons_self_of_not_mem absent]
      rfl

end Surround

/-- `toLowerCase` of an ASCII string changes its letters only. -/
def LowersAscii (platform : Platform) : Prop :=
  ∀ value : String, (∀ char ∈ value.toList, char.toNat < 128)
    → platform.toLowerCase value = value.map Char.toLower

/-- What is left of a spelling is the text of the address in lower case. -/
theorem ipText_apply {platform : Platform} {text : List Char} {address : IpAddress}
    (lowers : LowersAscii platform)
    (spelled : AddressText text address) (around : Surround)
    : ipText platform (around.apply text) = text.map Char.toLower := by
  have inner := around.inner_core spelled
  have value : (platform.toLowerCase (.ofList (jsTrim (around.apply text).toList))).toList
      = (around.core text).map Char.toLower := by
    rw [Surround.apply, String.toList_ofList,
      jsTrim_surrounded around.blank_before around.blank_after
        (fun char member => (inner char member).solid) (around.core_ne_nil spelled),
      lowers _ (by simpa using fun char member => (inner char member).small), String.toList_map,
      String.toList_ofList]
  unfold ipText
  simp only [value]
  cases bracketed : around.bracketed with
  | true =>
      have core : (around.core text).map Char.toLower
          = '[' :: ((around.zoned text).map Char.toLower ++ [']']) := by
        have opening : Char.toLower '[' = '[' := by decide
        have closing : Char.toLower ']' = ']' := by decide
        simp [Surround.core, bracketed, opening, closing]
      have ends : ((around.zoned text).map Char.toLower).any isLineTerminator = false := by
        rw [List.any_map, List.any_eq_false]
        intro char member
        simpa using (around.inner_zoned spelled char member).continues
      rw [core, if_pos]
      · simpa using around.splitAt_zoned spelled
      · simpa [List.getLast?_cons] using ends
  | false =>
      have core : (around.core text).map Char.toLower
          = (around.zoned text).map Char.toLower := by
        simp [Surround.core, bracketed]
      have first : ((around.zoned text).map Char.toLower).head? ≠ some '[' := by
        cases listed : text with
        | nil => exact absurd listed spelled.ne_nil
        | cons char rest =>
            have plain := (isAddressChar_plain (spelled.mem char (by simp [listed]))).2.1
            simpa [Surround.zoned] using plain
      rw [core, if_neg]
      · exact around.splitAt_zoned spelled
      · rintro ⟨-, bracket, -⟩
        exact first bracket

-----------------------------------------------------------------------------------------
-- Keys
-----------------------------------------------------------------------------------------

/-- Numbers between dots, as a joined list; by induction on them. -/
theorem joinDotted_eq (parts : List Nat)
    : joinDotted parts = ['.'].intercalate (parts.map (Nat.toDigits 10)) := by
  rw [joinDotted]
  induction parts with
  | nil => rfl
  | cons first rest ih =>
      cases rest with
      | nil => simp [Nat.toList_repr]
      | cons second later =>
          rw [List.map_cons, List.map_cons, List.intersperse_cons_cons, List.flatMap_cons,
            List.flatMap_cons, ← List.map_cons, ih, Nat.toList_repr]
          simp only [List.map_cons, List.intercalate_cons_cons]
          simp

/-- The key of an IPv6 network. -/
def networkText (network : List Nat) : List Char :=
  [':'].intercalate (network.map toBase16) ++ "::/64".toList

/-- The key of an address: its IPv4 address if it carries one, else its network. -/
theorem ipRateLimitKey_spelled {platform : Platform} {raw : String} {address : IpAddress}
    (lowers : LowersAscii platform)
    (spelled : Spells raw address)
    : ipRateLimitKey platform raw = .ofList (match address.carried with
      | some bytes => joinDotted bytes
      | none => networkText address.network) := by
  obtain ⟨text, around, spelled, rfl⟩ := spelled
  have stripped := ipText_apply lowers spelled around
  unfold ipRateLimitKey
  rw [stripped]
  dsimp only
  cases spelled with
  | v4 dotted =>
      rw [dotted.toLower, dotted.ipv4]
      rfl
  | @v6 address spelled =>
      have colon : (text.map Char.toLower).contains ':' :=
        List.contains_iff_mem.mpr (List.mem_map.mpr ⟨':', spelled.colon address.length_eq, by decide⟩)
      have other : ipv4 (text.map Char.toLower) = none := by
        rw [ipv4, dottedQuad_eq_none (.inl (List.contains_iff_mem.mp colon))]
        rfl
      have last : address.hextets.drop 6 = [address.hextets.getD 6 0, address.hextets.getD 7 0] := by
        match address.hextets, address.length_eq with
        | [_, _, _, _, _, _, _, _], _ => rfl
      rw [other, colon, expandIpv6_spelled spelled address.length_eq]
      simp only [Bool.not_true, Bool.false_eq_true, if_false, IpAddress.carried]
      split
      · rw [last]
        rfl
      · rfl

/-- Numbers are told apart by their dotted text. -/
theorem joinDotted_injective {first second : List Nat} (nonempty : first ≠ []) (others : second ≠ [])
    (same : joinDotted first = joinDotted second) : first = second := by
  have absent : ∀ numbers : List Nat, ∀ part ∈ numbers.map (Nat.toDigits 10), '.' ∉ part := by
    intro numbers part member dot
    obtain ⟨number, -, rfl⟩ := List.mem_map.mp member
    exact absurd (Nat.isDigit_of_mem_toDigits (by decide) (by decide) dot) (by decide)
  have digits : Function.Injective (Nat.toDigits 10) := by
    intro number other written
    have read := congrArg (fun digits => Nat.ofDigitChars 10 digits 0) written
    simpa only [Nat.ofDigitChars_ten_toDigits] using read
  rw [joinDotted_eq, joinDotted_eq] at same
  have parts := congrArg (splitAt '.') same
  rw [splitAt_intercalate (by simpa using nonempty) (absent first),
    splitAt_intercalate (by simpa using others) (absent second)] at parts
  exact List.map_injective_iff.mpr digits parts

/-- Networks are told apart by their text. -/
theorem networkText_injective {first second : List Nat} (nonempty : first ≠ []) (others : second ≠ [])
    (same : networkText first = networkText second) : first = second := by
  have absent : ∀ numbers : List Nat, ∀ part ∈ numbers.map toBase16, ':' ∉ part := by
    intro numbers part member colon
    obtain ⟨number, -, rfl⟩ := List.mem_map.mp member
    exact absurd (List.all_eq_true.mp (hexValue_toBase16 number).1 ':' colon) (by decide)
  have digits : Function.Injective toBase16 := by
    intro number other written
    rw [← (hexValue_toBase16 number).2, written, (hexValue_toBase16 other).2]
  have parts := congrArg (splitAt ':') (List.append_cancel_right same)
  rw [splitAt_intercalate (by simpa using nonempty) (absent first),
    splitAt_intercalate (by simpa using others) (absent second)] at parts
  exact List.map_injective_iff.mpr digits parts

/-- An IPv4 address has no colon, and a network does. -/
theorem joinDotted_ne_networkText (bytes network : List Nat)
    : joinDotted bytes ≠ networkText network := by
  intro same
  have colon : ':' ∈ joinDotted bytes := by
    rw [same]
    simp [networkText]
  rw [joinDotted_eq] at colon
  rcases Encodings.mem_intercalate colon with dot | ⟨part, listed, inPart⟩
  · exact absurd dot (by decide)
  · obtain ⟨number, -, rfl⟩ := List.mem_map.mp listed
    exact absurd (Nat.isDigit_of_mem_toDigits (by decide) (by decide) inPart) (by decide)

/-- The bytes that an address carries are not none. -/
theorem IpAddress.carried_ne_nil {address : IpAddress} {bytes : List Nat}
    (carries : address.carried = some bytes) : bytes ≠ [] := by
  rintro rfl
  cases address with
  | v4 address =>
      have four := address.length_eq
      rw [Option.some.inj carries] at four
      cases four
  | v6 address =>
      rw [carried] at carries
      split at carries
      · have eight := address.length_eq
        have none := List.flatMap_eq_nil_iff.mp (Option.some.inj carries)
        have last : address.hextets.drop 6 ≠ [] := by
          rw [Ne, List.drop_eq_nil_iff]
          omega
        obtain ⟨hextet, listed⟩ := List.exists_mem_of_ne_nil _ last
        cases none hextet listed
      · cases carries

/-- An address that carries no IPv4 address has a network. -/
theorem IpAddress.network_ne_nil {address : IpAddress} (carries : address.carried = none)
    : address.network ≠ [] := by
  cases address with
  | v4 address => cases carries
  | v6 address =>
      have eight := address.length_eq
      rw [network, Ne, List.take_eq_nil_iff]
      rintro (zero | empty)
      · cases zero
      · rw [empty] at eight
        cases eight

/-- Two spellings have one key exactly when both addresses carry the same 32 bits of an IPv4
address, or neither carries any and their first 64 bits agree.
-/
theorem ipRateLimitKey_eq_iff {platform : Platform}
    (lowers : LowersAscii platform)
    {raw other : String} {address another : IpAddress} (spelled : Spells raw address)
    (spelled' : Spells other another)
    : ipRateLimitKey platform raw = ipRateLimitKey platform other
      ↔ (∃ bytes, address.carried = some bytes ∧ another.carried = some bytes)
        ∨ address.carried = none ∧ another.carried = none ∧ address.network = another.network := by
  rw [ipRateLimitKey_spelled lowers spelled, ipRateLimitKey_spelled lowers spelled',
    String.ofList_inj]
  cases first : address.carried with
  | some bytes =>
      cases second : another.carried with
      | some bytes' =>
          simp only [Option.some.injEq, exists_eq_left', reduceCtorEq, false_and, or_false]
          constructor
          · exact fun same => (joinDotted_injective (IpAddress.carried_ne_nil first)
              (IpAddress.carried_ne_nil second) same).symm
          · exact fun same => by rw [same]
      | none => simp [joinDotted_ne_networkText]
  | none =>
      cases second : another.carried with
      | some bytes => simp [(joinDotted_ne_networkText _ _).symm]
      | none =>
          simp only [reduceCtorEq, false_and, exists_false, true_and, false_or]
          constructor
          · exact networkText_injective (IpAddress.network_ne_nil first)
              (IpAddress.network_ne_nil second)
          · exact fun same => by rw [same]

-----------------------------------------------------------------------------------------
-- Two spellings in one network
-----------------------------------------------------------------------------------------

/-- The address `2001:db8:0:0:1:0:0:5`. -/
def documentation : IpAddress :=
  .v6 ⟨[0x2001, 0xdb8, 0, 0, 1, 0, 0, 5], rfl, by decide⟩

/-- It is spelled in upper case, in brackets and with a zone. -/
theorem documentation_spelled : Spells " [2001:0DB8::1:0:0:5%eth0]" documentation := by
  have zone : "eth0".toList.all (fun char => 0x21 ≤ char.toNat ∧ char.toNat ≤ 0x7E) := by decide
  let around : Surround :=
    ⟨[' '], true, some "eth0".toList, [], List.forall_mem_singleton.mpr (by decide), nofun,
      fun char member => of_decide_eq_true (List.all_eq_true.mp zone char member)⟩
  have head : List.Forall₂ Hexadecimal ["2001".toList, "0DB8".toList] [0x2001, 0xdb8] :=
    .cons ⟨rfl, by decide, rfl⟩ (.cons ⟨rfl, by decide, rfl⟩ .nil)
  have rest : List.Forall₂ Hexadecimal ["1".toList, "0".toList, "0".toList, "5".toList] [1, 0, 0, 5] :=
    .cons ⟨rfl, by decide, rfl⟩ (.cons ⟨rfl, by decide, rfl⟩
      (.cons ⟨rfl, by decide, rfl⟩ (.cons ⟨rfl, by decide, rfl⟩ .nil)))
  have text := Ipv6Text.compressed head (show 0 < 2 by decide) (.hexadecimal rest)
  exact ⟨_, around, .v6 text, rfl⟩

/-- The address `2001:db8:0:0:0:7:c000:201`. -/
def embedding : IpAddress :=
  .v6 ⟨[0x2001, 0xdb8, 0, 0, 0, 7, 0xc000, 0x201], rfl, by decide⟩

/-- It is spelled with a dotted tail. -/
theorem embedding_spelled : Spells "2001:db8::7:192.0.2.1" embedding := by
  let around : Surround := ⟨[], false, none, [], nofun, nofun, nofun⟩
  have head : List.Forall₂ Hexadecimal ["2001".toList, "db8".toList] [0x2001, 0xdb8] :=
    .cons ⟨rfl, by decide, rfl⟩ (.cons ⟨rfl, by decide, rfl⟩ .nil)
  have rest : List.Forall₂ Hexadecimal ["7".toList] [7] := .cons ⟨rfl, by decide, rfl⟩ .nil
  have bytes : List.Forall₂ Decimal ["192".toList, "0".toList, "2".toList, "1".toList] [192, 0, 2, 1] :=
    .cons ⟨rfl, by decide, rfl, by decide⟩ (.cons ⟨rfl, by decide, rfl, by decide⟩
      (.cons ⟨rfl, by decide, rfl, by decide⟩ (.cons ⟨rfl, by decide, rfl, by decide⟩ .nil)))
  have text := Ipv6Text.compressed head (show 0 < 3 by decide)
    (.dotted rest ⟨_, bytes, rfl, rfl⟩)
  exact ⟨_, around, .v6 text, rfl⟩

/-- Both spellings have the key of the network. -/
theorem ipRateLimitKey_eq_documentation
    : ipRateLimitKey Sample.platform " [2001:0DB8::1:0:0:5%eth0]"
        = ipRateLimitKey Sample.platform "2001:db8::7:192.0.2.1" :=
  (ipRateLimitKey_eq_iff (fun _ _ => rfl) documentation_spelled embedding_spelled).mpr
    (.inr ⟨rfl, rfl, rfl⟩)

end WorkersAuth.DeviceAuth

import WorkersAuth.Encodings.Texts

/-! Percent-encoding of UTF-16 strings, as `encodeURIComponent` and `decodeURIComponent` do it.
A string with an unpaired surrogate cannot be encoded; whatever can be encoded is decoded to
itself.
-/

namespace Encodings

-----------------------------------------------------------------------------------------
-- Code points
-----------------------------------------------------------------------------------------

def isLead (unit : UInt16) : Bool := 0xD800 ≤ unit.toNat && unit.toNat < 0xDC00

def isTrail (unit : UInt16) : Bool := 0xDC00 ≤ unit.toNat && unit.toNat < 0xE000

/-- The code point of a surrogate pair. -/
def pairPoint (lead trail : UInt16) : Nat :=
  0x10000 + (lead.toNat - 0xD800) * 0x400 + (trail.toNat - 0xDC00)

/-- A code point that is no surrogate. -/
def IsScalar (point : Nat) : Prop := point < 0xD800 ∨ 0xE000 ≤ point ∧ point < 0x110000

instance (point : Nat) : Decidable (IsScalar point) :=
  inferInstanceAs (Decidable (_ ∨ _))

/-- A code point in code units. -/
def utf16 (point : Nat) : Utf16 :=
  if point < 0x10000 then [.ofNat point]
  else [.ofNat (0xD800 + (point - 0x10000) / 0x400), .ofNat (0xDC00 + (point - 0x10000) % 0x400)]

/-- A code point in octets. -/
def utf8 (point : Nat) : List Nat :=
  if point < 0x80 then [point]
  else if point < 0x800 then [0xC0 + point / 0x40, 0x80 + point % 0x40]
  else if point < 0x10000 then
    [0xE0 + point / 0x1000, 0x80 + point / 0x40 % 0x40, 0x80 + point % 0x40]
  else
    [
      0xF0 + point / 0x40000, 0x80 + point / 0x1000 % 0x40,
      0x80 + point / 0x40 % 0x40, 0x80 + point % 0x40
    ]

/-- The code point of some octets, from the bits of the first; overlong and surrogate encodings
are none.
-/
def pointOf (least first : Nat) (others : List Nat) : Option Nat :=
  let point := others.foldl (fun point octet => point * 0x40 + (octet - 0x80)) first
  if (∀ octet ∈ others, 0x80 ≤ octet ∧ octet < 0xC0) ∧ least ≤ point ∧ IsScalar point then some point
  else none

-----------------------------------------------------------------------------------------
-- Encoding
-----------------------------------------------------------------------------------------

/-- The units that stand for themselves: letters, digits and `-_.!~*'()`. -/
def isUnreserved (unit : UInt16) : Bool :=
  (0x30 ≤ unit.toNat && unit.toNat ≤ 0x39) || (0x41 ≤ unit.toNat && unit.toNat ≤ 0x5A)
  || (0x61 ≤ unit.toNat && unit.toNat ≤ 0x7A)
  || unit.toNat ∈ [0x2D, 0x5F, 0x2E, 0x21, 0x7E, 0x2A, 0x27, 0x28, 0x29]

/-- A hexadecimal digit, in upper case. -/
def hexUnit (value : Nat) : UInt16 := .ofNat (if value < 10 then 0x30 + value else 0x37 + value)

/-- `%XX`. -/
def escape (octet : Nat) : Utf16 := [0x25, hexUnit (octet / 16), hexUnit (octet % 16)]

/-- The escapes of a code point. -/
def escapes (point : Nat) : Utf16 := (utf8 point).flatMap escape

/-- Whether every surrogate is one of a pair. -/
def isWellFormed : Utf16 → Bool
  | [] => true
  | unit :: rest =>
      if isLead unit then
        match rest with
        | trail :: later => isTrail trail && isWellFormed later
        | [] => false
      else !isTrail unit && isWellFormed rest

/-- `encodeURIComponent`, which throws at an unpaired surrogate. -/
def encodeURIComponent : Utf16 → Option Utf16
  | [] => some []
  | unit :: rest =>
      if isUnreserved unit then (encodeURIComponent rest).map (unit :: ·)
      else if isLead unit then
        match rest with
        | trail :: later =>
            if isTrail trail then
              (encodeURIComponent later).map (escapes (pairPoint unit trail) ++ ·)
            else none
        | [] => none
      else if isTrail unit then none
      else (encodeURIComponent rest).map (escapes unit.toNat ++ ·)

-----------------------------------------------------------------------------------------
-- Decoding
-----------------------------------------------------------------------------------------

/-- The value of a hexadecimal digit in either case. -/
def hexDigitValue (unit : UInt16) : Option Nat :=
  if 0x30 ≤ unit.toNat ∧ unit.toNat ≤ 0x39 then some (unit.toNat - 0x30)
  else if 0x41 ≤ unit.toNat ∧ unit.toNat ≤ 0x46 then some (unit.toNat - 0x37)
  else if 0x61 ≤ unit.toNat ∧ unit.toNat ≤ 0x66 then some (unit.toNat - 0x57)
  else none

/-- What a string is read as: units that stand for themselves, and escaped octets. -/
inductive Piece where
  | unit (unit : UInt16)
  | octet (octet : Nat)

/-- A `%` must be followed by two hexadecimal digits. -/
def pieces : Utf16 → Option (List Piece)
  | [] => some []
  | unit :: rest =>
      if unit = 0x25 then
        match rest with
        | high :: low :: later =>
            (hexDigitValue high).bind (fun high =>
              (hexDigitValue low).bind (fun low =>
                (pieces later).map (.octet (high * 16 + low) :: ·)))
        | _ => none
      else (pieces rest).map (.unit unit :: ·)

/-- The octets must be the encodings of code points, whose units they become. -/
def assemble : List Piece → Option Utf16
  | [] => some []
  | .unit unit :: rest => (assemble rest).map (unit :: ·)
  | .octet first :: rest =>
      if first < 0x80 then (assemble rest).map (utf16 first ++ ·)
      else if first < 0xC0 then none
      else if first < 0xE0 then
        match rest with
        | .octet second :: later =>
            (pointOf 0x80 (first - 0xC0) [second]).bind (fun point =>
              (assemble later).map (utf16 point ++ ·))
        | _ => none
      else if first < 0xF0 then
        match rest with
        | .octet second :: .octet third :: later =>
            (pointOf 0x800 (first - 0xE0) [second, third]).bind (fun point =>
              (assemble later).map (utf16 point ++ ·))
        | _ => none
      else if first < 0xF8 then
        match rest with
        | .octet second :: .octet third :: .octet fourth :: later =>
            (pointOf 0x10000 (first - 0xF0) [second, third, fourth]).bind (fun point =>
              (assemble later).map (utf16 point ++ ·))
        | _ => none
      else none

/-- `decodeURIComponent`, which throws at a malformed escape. -/
def decodeURIComponent (text : Utf16) : Option Utf16 := (pieces text).bind assemble

-----------------------------------------------------------------------------------------
-- Escaped code points are read back
-----------------------------------------------------------------------------------------

/-- Every digit is read back. -/
theorem hexDigitValue_hexUnit {value : Nat} (small : value < 16)
    : hexDigitValue (hexUnit value) = some value := by
  have digits : ∀ digit : Fin 16, hexDigitValue (hexUnit digit) = some digit.val := by decide
  exact digits ⟨value, small⟩

theorem utf8_lt {point octet : Nat} (small : point < 0x110000) (member : octet ∈ utf8 point)
    : octet < 256 := by
  unfold utf8 at member
  split at member
  · simp only [List.mem_cons, List.not_mem_nil, or_false] at member
    omega
  split at member
  · simp only [List.mem_cons, List.not_mem_nil, or_false] at member
    omega
  split at member
  · simp only [List.mem_cons, List.not_mem_nil, or_false] at member
    omega
  · simp only [List.mem_cons, List.not_mem_nil, or_false] at member
    omega

/-- Escaped octets are read as octets, by induction on them. -/
theorem pieces_escapes {octets : List Nat} (small : ∀ octet ∈ octets, octet < 256) (text : Utf16)
    : pieces (octets.flatMap escape ++ text)
      = (pieces text).map (octets.map Piece.octet ++ ·) := by
  induction octets with
  | nil => simp
  | cons octet rest ih =>
      have later := ih (fun other member => small other (List.mem_cons_of_mem _ member))
      have bound := small octet List.mem_cons_self
      simp only [List.flatMap_cons, escape, List.cons_append, List.nil_append, pieces, if_true,
        hexDigitValue_hexUnit (show octet / 16 < 16 by omega),
        hexDigitValue_hexUnit (show octet % 16 < 16 by omega), Option.bind_some]
      rw [later, show octet / 16 * 16 + octet % 16 = octet by omega, Option.map_map]
      rfl

theorem pointOf_some {least first point : Nat} {others : List Nat}
    (tails : ∀ octet ∈ others, 0x80 ≤ octet ∧ octet < 0xC0)
    (value : others.foldl (fun point octet => point * 0x40 + (octet - 0x80)) first = point)
    (large : least ≤ point) (scalar : IsScalar point)
    : pointOf least first others = some point := by
  simp only [pointOf]
  rw [value, if_pos ⟨tails, large, scalar⟩]

theorem assemble_one {first : Nat} (small : first < 0x80) (rest : List Piece)
    : assemble (.octet first :: rest) = (assemble rest).map (utf16 first ++ ·) := by
  rw [assemble.eq_def]
  exact if_pos small

theorem assemble_two {first second point : Nat} (least : 0xC0 ≤ first) (most : first < 0xE0)
    (read : pointOf 0x80 (first - 0xC0) [second] = some point) (rest : List Piece)
    : assemble (.octet first :: .octet second :: rest)
      = (assemble rest).map (utf16 point ++ ·) := by
  rw [assemble.eq_def]
  simp only [read, Option.bind_some]
  rw [if_neg (by omega), if_neg (by omega), if_pos most]

theorem assemble_three {first second third point : Nat} (least : 0xE0 ≤ first) (most : first < 0xF0)
    (read : pointOf 0x800 (first - 0xE0) [second, third] = some point) (rest : List Piece)
    : assemble (.octet first :: .octet second :: .octet third :: rest)
      = (assemble rest).map (utf16 point ++ ·) := by
  rw [assemble.eq_def]
  simp only [read, Option.bind_some]
  rw [if_neg (by omega), if_neg (by omega), if_neg (by omega), if_pos most]

theorem assemble_four {first second third fourth point : Nat} (least : 0xF0 ≤ first)
    (most : first < 0xF8) (read : pointOf 0x10000 (first - 0xF0) [second, third, fourth] = some point)
    (rest : List Piece)
    : assemble (.octet first :: .octet second :: .octet third :: .octet fourth :: rest)
      = (assemble rest).map (utf16 point ++ ·) := by
  rw [assemble.eq_def]
  simp only [read, Option.bind_some]
  rw [if_neg (by omega), if_neg (by omega), if_neg (by omega), if_neg (by omega), if_pos most]

/-- The octets of a code point are read as its units, by cases on their number. -/
theorem assemble_utf8 {point : Nat} (scalar : IsScalar point) (rest : List Piece)
    : assemble ((utf8 point).map Piece.octet ++ rest) = (assemble rest).map (utf16 point ++ ·) := by
  have small : point < 0x110000 := by
    rcases scalar with low | ⟨_, high⟩
    · omega
    · exact high
  unfold utf8
  split
  · next one => exact assemble_one one rest
  split
  · apply assemble_two (by omega) (by omega) _ rest
    apply pointOf_some _ _ (by omega) scalar
    · simp only [List.mem_singleton, forall_eq]
      omega
    · simp only [List.foldl_cons, List.foldl_nil]
      omega
  split
  · apply assemble_three (by omega) (by omega) _ rest
    apply pointOf_some _ _ (by omega) scalar
    · simp only [List.mem_cons, List.not_mem_nil, or_false, forall_eq_or_imp, forall_eq]
      omega
    · simp only [List.foldl_cons, List.foldl_nil]
      omega
  · apply assemble_four (by omega) (by omega) _ rest
    apply pointOf_some _ _ (by omega) scalar
    · simp only [List.mem_cons, List.not_mem_nil, or_false, forall_eq_or_imp, forall_eq]
      omega
    · simp only [List.foldl_cons, List.foldl_nil]
      omega

-----------------------------------------------------------------------------------------
-- Round trip
-----------------------------------------------------------------------------------------

/-- An unreserved unit is no surrogate. -/
theorem isUnreserved.lt {unit : UInt16} (unreserved : isUnreserved unit) : unit.toNat < 0x80 := by
  simp only [isUnreserved, Bool.or_eq_true, Bool.and_eq_true, decide_eq_true_eq, List.mem_cons,
    List.not_mem_nil, or_false] at unreserved
  omega

/-- A pair's code point is a scalar. -/
theorem pairPoint_scalar {lead trail : UInt16} (first : isLead lead) (second : isTrail trail)
    : IsScalar (pairPoint lead trail) := by
  simp only [isLead, isTrail, Bool.and_eq_true, decide_eq_true_eq] at first second
  unfold IsScalar pairPoint
  omega

/-- A pair's code point is written as the pair. -/
theorem utf16_pairPoint {lead trail : UInt16} (first : isLead lead) (second : isTrail trail)
    : utf16 (pairPoint lead trail) = [lead, trail] := by
  simp only [isLead, isTrail, Bool.and_eq_true, decide_eq_true_eq] at first second
  have high : 0xD800 + (pairPoint lead trail - 0x10000) / 0x400 = lead.toNat := by
    unfold pairPoint
    omega
  have low : 0xDC00 + (pairPoint lead trail - 0x10000) % 0x400 = trail.toNat := by
    unfold pairPoint
    omega
  have large : ¬ pairPoint lead trail < 0x10000 := by
    unfold pairPoint
    omega
  rw [utf16, if_neg large, high, low]
  simp

/-- A unit that is no surrogate is its own code point. -/
theorem unit_scalar {unit : UInt16} (lead : ¬ isLead unit) (trail : ¬ isTrail unit)
    : IsScalar unit.toNat := by
  have bound := unit.toNat_lt
  simp only [isLead, isTrail, Bool.and_eq_true, decide_eq_true_eq] at lead trail
  simp only [IsScalar]
  omega

theorem utf16_unit (unit : UInt16) : utf16 unit.toNat = [unit] := by
  have bound := unit.toNat_lt
  rw [utf16, if_pos (by omega)]
  simp

/-- The escapes of a code point are decoded to its units. -/
theorem decodeURIComponent_escapes {point : Nat} (scalar : IsScalar point) (text : Utf16)
    : decodeURIComponent (escapes point ++ text)
      = (decodeURIComponent text).map (utf16 point ++ ·) := by
  have small : point < 0x110000 := by
    rcases scalar with low | ⟨_, high⟩
    · omega
    · exact high
  simp only [decodeURIComponent, escapes, pieces_escapes (fun octet => utf8_lt small)]
  cases read : pieces text with
  | none => simp
  | some rest => simpa using assemble_utf8 scalar rest

/-- A unit other than `%` is decoded to itself. -/
theorem decodeURIComponent_cons {unit : UInt16} (plain : unit ≠ 0x25) (text : Utf16)
    : decodeURIComponent (unit :: text) = (decodeURIComponent text).map (unit :: ·) := by
  have first : pieces (unit :: text) = (pieces text).map (.unit unit :: ·) := by
    rw [pieces.eq_def]
    exact if_neg plain
  simp only [decodeURIComponent, first]
  cases pieces text with
  | none => rfl
  | some rest =>
      simp only [Option.map_some, Option.bind_some]
      rw [assemble]

/-- What is encoded is decoded to itself, by induction along the encoding. -/
theorem decodeURIComponent_encodeURIComponent {value text : Utf16}
    (encoded : encodeURIComponent value = some text) : decodeURIComponent text = some value := by
  induction value using encodeURIComponent.induct generalizing text with
  | case1 =>
      simp only [encodeURIComponent, Option.some.injEq] at encoded
      rw [← encoded]
      simp [decodeURIComponent, pieces, assemble]
  | case2 unit rest unreserved ih =>
      rw [encodeURIComponent.eq_def] at encoded
      simp only [unreserved, if_true, Option.map_eq_some_iff] at encoded
      obtain ⟨later, encoded, rfl⟩ := encoded
      have plain : unit ≠ 0x25 := by
        rintro rfl
        exact absurd unreserved (by decide)
      rw [decodeURIComponent_cons plain, ih encoded, Option.map_some]
  | case3 unit reserved lead trail later paired ih =>
      rw [encodeURIComponent.eq_def] at encoded
      simp only [reserved, lead, paired, if_true, Bool.false_eq_true, if_false,
        Option.map_eq_some_iff] at encoded
      obtain ⟨after, encoded, rfl⟩ := encoded
      rw [decodeURIComponent_escapes (pairPoint_scalar lead paired), ih encoded, Option.map_some,
        utf16_pairPoint lead paired]
      rfl
  | case4 unit reserved lead trail later unpaired =>
      rw [encodeURIComponent.eq_def] at encoded
      simp [reserved, lead, unpaired] at encoded
  | case5 unit reserved lead =>
      rw [encodeURIComponent.eq_def] at encoded
      simp [reserved, lead] at encoded
  | case6 unit rest reserved lead trail =>
      rw [encodeURIComponent.eq_def] at encoded
      simp [reserved, lead, trail] at encoded
  | case7 unit rest reserved lead trail ih =>
      rw [encodeURIComponent.eq_def] at encoded
      simp only [reserved, lead, trail, Bool.false_eq_true, if_false,
        Option.map_eq_some_iff] at encoded
      obtain ⟨later, encoded, rfl⟩ := encoded
      rw [decodeURIComponent_escapes (unit_scalar lead trail), ih encoded, Option.map_some,
        utf16_unit]
      rfl

/-- Exactly the well-formed strings can be encoded. -/
theorem encodeURIComponent_isSome (value : Utf16)
    : (encodeURIComponent value).isSome = isWellFormed value := by
  induction value using encodeURIComponent.induct with
  | case1 => rfl
  | case2 unit rest unreserved ih =>
      have small := isUnreserved.lt unreserved
      have lead : isLead unit = false := by
        simp only [isLead, Bool.and_eq_false_iff, decide_eq_false_iff_not]
        omega
      have trail : isTrail unit = false := by
        simp only [isTrail, Bool.and_eq_false_iff, decide_eq_false_iff_not]
        omega
      rw [encodeURIComponent.eq_def, isWellFormed.eq_def]
      simp [unreserved, lead, trail, ih]
  | case3 unit reserved lead trail later paired ih =>
      rw [encodeURIComponent.eq_def, isWellFormed.eq_def]
      simp [reserved, lead, paired, ih]
  | case4 unit reserved lead trail later unpaired =>
      rw [encodeURIComponent.eq_def, isWellFormed.eq_def]
      simp [reserved, lead, unpaired]
  | case5 unit reserved lead =>
      rw [encodeURIComponent.eq_def, isWellFormed.eq_def]
      simp [reserved, lead]
  | case6 unit rest reserved lead trail =>
      rw [encodeURIComponent.eq_def, isWellFormed.eq_def]
      simp [reserved, lead, trail]
  | case7 unit rest reserved lead trail ih =>
      rw [encodeURIComponent.eq_def, isWellFormed.eq_def]
      simp [reserved, lead, trail, ih]

/-- The units of an encoding. -/
def isEncodedUnit (unit : UInt16) : Bool := isUnreserved unit || unit = 0x25

theorem isUnreserved_hexUnit {value : Nat} (small : value < 16) : isUnreserved (hexUnit value) := by
  have digits : ∀ digit : Fin 16, isUnreserved (hexUnit digit) := by decide
  exact digits ⟨value, small⟩

theorem isEncodedUnit_escapes {point : Nat} (scalar : IsScalar point)
    : ∀ unit ∈ escapes point, isEncodedUnit unit := by
  have small : point < 0x110000 := by
    rcases scalar with low | ⟨_, high⟩
    · omega
    · exact high
  intro unit member
  rw [escapes, List.mem_flatMap] at member
  obtain ⟨octet, listed, member⟩ := member
  have bound := utf8_lt small listed
  simp only [escape, List.mem_cons, List.not_mem_nil, or_false] at member
  rcases member with rfl | rfl | rfl
  · decide
  · simp [isEncodedUnit, isUnreserved_hexUnit (show octet / 16 < 16 by omega)]
  · simp [isEncodedUnit, isUnreserved_hexUnit (show octet % 16 < 16 by omega)]

/-- An encoding consists of unreserved units and `%`, by induction along it. -/
theorem isEncodedUnit_of_encoded {value text : Utf16}
    (encoded : encodeURIComponent value = some text) : ∀ unit ∈ text, isEncodedUnit unit := by
  induction value using encodeURIComponent.induct generalizing text with
  | case1 =>
      simp only [encodeURIComponent, Option.some.injEq] at encoded
      simp [← encoded]
  | case2 unit rest unreserved ih =>
      rw [encodeURIComponent.eq_def] at encoded
      simp only [unreserved, if_true, Option.map_eq_some_iff] at encoded
      obtain ⟨later, encoded, rfl⟩ := encoded
      simp only [List.mem_cons, forall_eq_or_imp]
      exact ⟨by simp [isEncodedUnit, unreserved], ih encoded⟩
  | case3 unit reserved lead trail later paired ih =>
      rw [encodeURIComponent.eq_def] at encoded
      simp only [reserved, lead, paired, if_true, Bool.false_eq_true, if_false,
        Option.map_eq_some_iff] at encoded
      obtain ⟨after, encoded, rfl⟩ := encoded
      rw [List.forall_mem_append]
      exact ⟨isEncodedUnit_escapes (pairPoint_scalar lead paired), ih encoded⟩
  | case4 unit reserved lead trail later unpaired =>
      rw [encodeURIComponent.eq_def] at encoded
      simp [reserved, lead, unpaired] at encoded
  | case5 unit reserved lead =>
      rw [encodeURIComponent.eq_def] at encoded
      simp [reserved, lead] at encoded
  | case6 unit rest reserved lead trail =>
      rw [encodeURIComponent.eq_def] at encoded
      simp [reserved, lead, trail] at encoded
  | case7 unit rest reserved lead trail ih =>
      rw [encodeURIComponent.eq_def] at encoded
      simp only [reserved, lead, trail, Bool.false_eq_true, if_false,
        Option.map_eq_some_iff] at encoded
      obtain ⟨later, encoded, rfl⟩ := encoded
      rw [List.forall_mem_append]
      exact ⟨isEncodedUnit_escapes (unit_scalar lead trail), ih encoded⟩

end Encodings

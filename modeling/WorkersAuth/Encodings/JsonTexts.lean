import WorkersAuth.Encodings.Numerals

/-! `JSON.parse`: the value that a text encodes, or nothing where it throws. -/

namespace Encodings

/-- A value of JSON, with strings of code units. The fields of an object are in the order of their
first occurrence.
-/
inductive JsonValue where
  | null
  | bool (value : Bool)
  | number (value : JsNumber)
  | string (value : Utf16)
  | array (items : List JsonValue)
  | object (fields : List (Utf16 × JsonValue))

/-- `object[name] = value`. -/
def setField (fields : List (Utf16 × JsonValue)) (name : Utf16) (value : JsonValue)
    : List (Utf16 × JsonValue) :=
  if fields.any (fun field => field.1 = name) then
    fields.map (fun field => if field.1 = name then (name, value) else field)
  else
    fields ++ [(name, value)]

/-- What may stand between two tokens. -/
def isJsonSpace (unit : UInt16) : Bool := unit.toNat ∈ [0x20, 0x09, 0x0A, 0x0D]

def skipSpace (text : Utf16) : Utf16 := text.dropWhile isJsonSpace

-----------------------------------------------------------------------------------------
-- Strings and numbers
-----------------------------------------------------------------------------------------

/-- The unit of an escape of one letter. -/
def escapedUnit (letter : UInt16) : Option UInt16 :=
  if letter.toNat ∈ [0x22, 0x5C, 0x2F] then some letter
  else if letter = 0x62 then some 0x08
  else if letter = 0x66 then some 0x0C
  else if letter = 0x6E then some 0x0A
  else if letter = 0x72 then some 0x0D
  else if letter = 0x74 then some 0x09
  else none

/-- The unit of four hexadecimal digits. -/
def hexUnitOf (digits : Utf16) : Option UInt16 :=
  (digits.foldlM (fun value digit => (hexDigitValue digit).map (value * 16 + ·)) 0).map UInt16.ofNat

/-- A string after its opening quote, and what follows its closing one. -/
def parseString : Utf16 → Option (Utf16 × Utf16)
  | [] => none
  | unit :: rest =>
      if unit = 0x22 then some ([], rest)
      else if unit = 0x5C then
        match rest with
        | [] => none
        | letter :: rest =>
            if letter = 0x75 then
              match rest with
              | a :: b :: c :: d :: rest =>
                  (hexUnitOf [a, b, c, d]).bind (fun unit =>
                    (parseString rest).map (Prod.map (unit :: ·) id))
              | _ => none
            else
              (escapedUnit letter).bind (fun unit =>
                (parseString rest).map (Prod.map (unit :: ·) id))
      else if unit.toNat < 0x20 then none
      else (parseString rest).map (Prod.map (unit :: ·) id)

/-- A minus, when there is one. -/
def minusPart : Utf16 → Bool × Utf16
  | 0x2D :: rest => (true, rest)
  | text => (false, text)

/-- The digits before the point, of which a zero is the only one. -/
def wholePart : Utf16 → Utf16 × Utf16
  | 0x30 :: rest => ([0x30], rest)
  | text => leadingDigits text

/-- A number and what follows it. -/
def parseNumber (text : Utf16) : Option (JsNumber × Utf16) :=
  let (negative, rest) := minusPart text
  let (whole, rest) := wholePart rest
  let (fraction, rest) := fractionPart rest
  if whole = [] ∨ fraction = some [] then none
  else
    (exponentPart rest).map (fun (exponent, rest) =>
      (Numeral.value { negative, whole, fraction := fraction.getD [], exponent }, rest))

/-- A word and what follows it. -/
def parseWord (word : String) (value : JsonValue) (text : Utf16) : Option (JsonValue × Utf16) :=
  if (ascii word).isPrefixOf text then some (value, text.drop (ascii word).length) else none

-----------------------------------------------------------------------------------------
-- Values
-----------------------------------------------------------------------------------------

mutual

/-- A value after white space, and what follows it. Two calls read at least one unit. -/
def parseValue : Nat → Utf16 → Option (JsonValue × Utf16)
  | 0, _ => none
  | fuel + 1, text =>
      match skipSpace text with
      | 0x7B :: rest =>
          match skipSpace rest with
          | 0x7D :: rest => some (.object [], rest)
          | rest =>
              (parseFields fuel rest).map (fun (fields, rest) =>
                (.object (fields.foldl (fun object field => setField object field.1 field.2) []), rest))
      | 0x5B :: rest =>
          match skipSpace rest with
          | 0x5D :: rest => some (.array [], rest)
          | rest => (parseItems fuel rest).map (fun (items, rest) => (.array items, rest))
      | 0x22 :: rest => (parseString rest).map (fun (value, rest) => (.string value, rest))
      | 0x74 :: rest => parseWord "rue" (.bool true) rest
      | 0x66 :: rest => parseWord "alse" (.bool false) rest
      | 0x6E :: rest => parseWord "ull" .null rest
      | text => (parseNumber text).map (fun (value, rest) => (.number value, rest))

/-- The fields of an object up to its end. -/
def parseFields : Nat → Utf16 → Option (List (Utf16 × JsonValue) × Utf16)
  | 0, _ => none
  | fuel + 1, text =>
      match skipSpace text with
      | 0x22 :: rest => do
          let (name, rest) ← parseString rest
          match skipSpace rest with
          | 0x3A :: rest => do
              let (value, rest) ← parseValue fuel rest
              match skipSpace rest with
              | 0x2C :: rest =>
                  (parseFields fuel rest).map (fun (fields, rest) => ((name, value) :: fields, rest))
              | 0x7D :: rest => some ([(name, value)], rest)
              | _ => none
          | _ => none
      | _ => none

/-- The items of an array up to its end. -/
def parseItems : Nat → Utf16 → Option (List JsonValue × Utf16)
  | 0, _ => none
  | fuel + 1, text => do
      let (value, rest) ← parseValue fuel text
      match skipSpace rest with
      | 0x2C :: rest => (parseItems fuel rest).map (fun (items, rest) => (value :: items, rest))
      | 0x5D :: rest => some ([value], rest)
      | _ => none

end

/-- `JSON.parse(text)`; nothing when it throws. -/
def jsonParse (text : Utf16) : Option JsonValue :=
  match parseValue (2 * text.length + 1) text with
  | some (value, rest) => if skipSpace rest = [] then some value else none
  | none => none

example : (jsonParse (ascii " [1, -2.5e1, \"a\", [true, null]] ")).isSome = true := by
  decide +kernel

example : (jsonParse (ascii "[01]")).isSome = false := by
  decide +kernel

-----------------------------------------------------------------------------------------
-- The fuel is enough
-----------------------------------------------------------------------------------------

variable {text rest : Utf16} {fuel : Nat}

theorem length_skipSpace_le : (skipSpace text).length ≤ text.length :=
  (List.dropWhile_sublist _).length_le

/-- A result that is changed leaves as much of the text. -/
theorem length_of_map {α β : Type} {more : α → β} {bound : Nat} {parsed : Option (α × Utf16)} {value : β}
    (shorter : ∀ first, parsed = some (first, rest) → rest.length < bound)
    (mapped : parsed.map (Prod.map more id) = some (value, rest))
    : rest.length < bound := by
  obtain ⟨⟨first, later⟩, found, same⟩ := Option.map_eq_some_iff.mp mapped
  cases same
  exact shorter first found

/-- A string is closed by a unit that has been read, by induction on the text. -/
theorem length_of_parseString {value : Utf16} (parsed : parseString text = some (value, rest))
    : rest.length < text.length := by
  induction text using parseString.induct generalizing value with
  | case1 => cases parsed
  | case2 later =>
      rw [parseString.eq_def] at parsed
      cases parsed
      simp
  | case3 => cases parsed
  | case4 a b c d later _ ih =>
      rw [parseString.eq_def] at parsed
      obtain ⟨unit, _, mapped⟩ := Option.bind_eq_some_iff.mp parsed
      have shorter := length_of_map (fun _ => ih) mapped
      simp only [List.length_cons]
      omega
  | case5 later short => simp [parseString] at parsed
  | case6 letter later plain _ ih =>
      rw [parseString.eq_def] at parsed
      dsimp only at parsed
      rw [if_neg (by decide), if_pos rfl, if_neg plain] at parsed
      obtain ⟨unit, _, mapped⟩ := Option.bind_eq_some_iff.mp parsed
      have shorter := length_of_map (fun _ => ih) mapped
      simp only [List.length_cons]
      omega
  | case7 unit later quote escaped control =>
      rw [parseString.eq_def] at parsed
      dsimp only at parsed
      rw [if_neg quote, if_neg escaped, if_pos control] at parsed
      cases parsed
  | case8 unit later quote escaped control ih =>
      rw [parseString.eq_def] at parsed
      dsimp only at parsed
      rw [if_neg quote, if_neg escaped, if_neg control] at parsed
      have shorter := length_of_map (fun _ => ih) parsed
      rw [List.length_cons]
      omega

/-- The sign, the digits and the rest of a numeral are parts of the text. -/
theorem length_leadingDigits_le : (leadingDigits text).2.length ≤ text.length :=
  (List.dropWhile_sublist _).length_le

theorem length_fractionPart_le : (fractionPart text).2.length ≤ text.length := by
  unfold fractionPart
  split
  · next rest =>
      have digits := @length_leadingDigits_le rest
      simp only [List.length_cons]
      omega
  · exact le_rfl

theorem length_sign_le : (sign text).2.length ≤ text.length := by
  unfold sign
  split <;> simp

theorem length_of_exponentPart {exponent : ℤ} (parsed : exponentPart text = some (exponent, rest))
    : rest.length ≤ text.length := by
  have marked (later : Utf16) : (leadingDigits (sign later).2).2.length ≤ later.length :=
    length_leadingDigits_le.trans length_sign_le
  unfold exponentPart at parsed
  split at parsed
  · next later =>
      dsimp only at parsed
      split at parsed
      · cases parsed
      · cases parsed
        exact (marked later).trans (Nat.le_succ _)
  · next later =>
      dsimp only at parsed
      split at parsed
      · cases parsed
      · cases parsed
        exact (marked later).trans (Nat.le_succ _)
  · cases parsed
    exact le_rfl

theorem length_minusPart_le : (minusPart text).2.length ≤ text.length := by
  unfold minusPart
  split <;> simp

theorem length_wholePart_le : (wholePart text).2.length ≤ text.length := by
  unfold wholePart
  split
  · simp
  · exact length_leadingDigits_le

theorem length_of_parseNumber {value : JsNumber} (parsed : parseNumber text = some (value, rest))
    : rest.length ≤ text.length := by
  unfold parseNumber at parsed
  dsimp only at parsed
  split at parsed
  · cases parsed
  · obtain ⟨⟨exponent, later⟩, found, same⟩ := Option.map_eq_some_iff.mp parsed
    cases same
    calc later.length
        ≤ (fractionPart (wholePart (minusPart text).2).2).2.length := length_of_exponentPart found
      _ ≤ (wholePart (minusPart text).2).2.length := length_fractionPart_le
      _ ≤ (minusPart text).2.length := length_wholePart_le
      _ ≤ text.length := length_minusPart_le

theorem length_of_parseWord {word : String} {value made : JsonValue}
    (parsed : parseWord word made text = some (value, rest))
    : rest.length ≤ text.length := by
  unfold parseWord at parsed
  split at parsed
  · cases parsed
    simp
  · cases parsed

/-- What is left of a text is no longer than it, for values, items and fields, by induction on the
fuel.
-/
theorem length_of_parse (fuel : Nat)
    : (∀ {text rest value}, parseValue fuel text = some (value, rest) → rest.length ≤ text.length)
      ∧ (∀ {text rest items}, parseItems fuel text = some (items, rest) → rest.length ≤ text.length)
      ∧ ∀ {text rest fields}, parseFields fuel text = some (fields, rest) → rest.length ≤ text.length := by
  induction fuel with
  | zero => exact ⟨nofun, nofun, nofun⟩
  | succ fuel ih =>
      obtain ⟨values, items, fields⟩ := ih
      refine ⟨fun {text rest value} parsed => ?values, fun {text rest found} parsed => ?items,
        fun {text rest found} parsed => ?fields⟩
      case values =>
        have blank := @length_skipSpace_le text
        rw [parseValue] at parsed
        split at parsed
        · next later opened =>
            have inner := @length_skipSpace_le later
            rw [opened, List.length_cons] at blank
            split at parsed
            · next final closed =>
                cases parsed
                rw [closed, List.length_cons] at inner
                omega
            · obtain ⟨_, found, same⟩ := Option.map_eq_some_iff.mp parsed
              cases same
              have shorter := fields found
              omega
        · next later opened =>
            have inner := @length_skipSpace_le later
            rw [opened, List.length_cons] at blank
            split at parsed
            · next final closed =>
                cases parsed
                rw [closed, List.length_cons] at inner
                omega
            · obtain ⟨_, found, same⟩ := Option.map_eq_some_iff.mp parsed
              cases same
              have shorter := items found
              omega
        · next later quoted =>
            obtain ⟨_, found, same⟩ := Option.map_eq_some_iff.mp parsed
            cases same
            have shorter := length_of_parseString found
            rw [quoted, List.length_cons] at blank
            omega
        · next later begun =>
            have shorter := length_of_parseWord parsed
            rw [begun, List.length_cons] at blank
            omega
        · next later begun =>
            have shorter := length_of_parseWord parsed
            rw [begun, List.length_cons] at blank
            omega
        · next later begun =>
            have shorter := length_of_parseWord parsed
            rw [begun, List.length_cons] at blank
            omega
        · obtain ⟨_, found, same⟩ := Option.map_eq_some_iff.mp parsed
          cases same
          exact (length_of_parseNumber found).trans blank
      case items =>
        rw [parseItems] at parsed
        obtain ⟨⟨value, later⟩, first, parsed⟩ := Option.bind_eq_some_iff.mp parsed
        have before := values first
        have blank := @length_skipSpace_le later
        dsimp only at parsed
        split at parsed
        · next more comma =>
            obtain ⟨_, others, same⟩ := Option.map_eq_some_iff.mp parsed
            cases same
            have shorter := items others
            rw [comma, List.length_cons] at blank
            omega
        · next final closed =>
            cases parsed
            rw [closed, List.length_cons] at blank
            omega
        · cases parsed
      case fields =>
        have start := @length_skipSpace_le text
        rw [parseFields] at parsed
        split at parsed
        · next later quoted =>
            obtain ⟨⟨name, afterName⟩, named, parsed⟩ := Option.bind_eq_some_iff.mp parsed
            have nameShorter := length_of_parseString named
            have colonBlank := @length_skipSpace_le afterName
            rw [quoted, List.length_cons] at start
            dsimp only at parsed
            split at parsed
            · next afterColon colon =>
                obtain ⟨⟨value, afterValue⟩, valued, parsed⟩ := Option.bind_eq_some_iff.mp parsed
                have valueShorter := values valued
                have blank := @length_skipSpace_le afterValue
                rw [colon, List.length_cons] at colonBlank
                dsimp only at parsed
                split at parsed
                · next more comma =>
                    obtain ⟨_, others, same⟩ := Option.map_eq_some_iff.mp parsed
                    cases same
                    have shorter := fields others
                    rw [comma, List.length_cons] at blank
                    omega
                · next final closed =>
                    cases parsed
                    rw [closed, List.length_cons] at blank
                    omega
                · cases parsed
            · cases parsed
        · cases parsed

/-- More fuel changes nothing once there are two for every unit, by induction on the fuel. -/
theorem parse_enough (fuel : Nat)
    : (∀ {text}, 2 * text.length + 1 ≤ fuel → parseValue (fuel + 1) text = parseValue fuel text)
      ∧ (∀ {text}, 2 * text.length + 2 ≤ fuel → parseItems (fuel + 1) text = parseItems fuel text)
      ∧ ∀ {text}, 2 * text.length + 2 ≤ fuel → parseFields (fuel + 1) text = parseFields fuel text := by
  induction fuel with
  | zero => exact ⟨nofun, nofun, nofun⟩
  | succ fuel ih =>
      obtain ⟨values, items, fields⟩ := ih
      have shorter := length_of_parse fuel
      refine ⟨fun {text} enough => ?values, fun {text} enough => ?items, fun {text} enough => ?fields⟩
      case values =>
        have blank := @length_skipSpace_le text
        rw [parseValue, parseValue]
        split
        · next later opened =>
            have inner := @length_skipSpace_le later
            rw [opened, List.length_cons] at blank
            split
            · rfl
            · rw [fields (by omega)]
        · next later opened =>
            have inner := @length_skipSpace_le later
            rw [opened, List.length_cons] at blank
            split
            · rfl
            · rw [items (by omega)]
        all_goals rfl
      case items =>
        rw [parseItems, parseItems, values (by omega)]
        cases first : parseValue fuel text with
        | none => rfl
        | some found =>
            obtain ⟨value, later⟩ := found
            have before := shorter.1 first
            have blank := @length_skipSpace_le later
            simp only [Option.bind_eq_bind, Option.bind_some]
            split
            · next more comma =>
                rw [comma, List.length_cons] at blank
                rw [items (by omega)]
            all_goals rfl
      case fields =>
        have start := @length_skipSpace_le text
        rw [parseFields, parseFields]
        split
        · next later quoted =>
            rw [quoted, List.length_cons] at start
            cases named : parseString later with
            | none => rfl
            | some found =>
                obtain ⟨name, afterName⟩ := found
                have nameShorter := length_of_parseString named
                have colonBlank := @length_skipSpace_le afterName
                simp only [Option.bind_eq_bind, Option.bind_some]
                split
                · next afterColon colon =>
                    rw [colon, List.length_cons] at colonBlank
                    rw [values (by omega)]
                    cases valued : parseValue fuel afterColon with
                    | none => rfl
                    | some found =>
                        obtain ⟨value, afterValue⟩ := found
                        have valueShorter := shorter.1 valued
                        have blank := @length_skipSpace_le afterValue
                        simp only [Option.bind_some]
                        split
                        · next more comma =>
                            rw [comma, List.length_cons] at blank
                            rw [fields (by omega)]
                        all_goals rfl
                · rfl
        · rfl

/-- `JSON.parse` has fuel for every text. -/
theorem parseValue_enough {text : Utf16} {fuel : Nat} (enough : 2 * text.length + 1 ≤ fuel)
    : parseValue fuel text = parseValue (2 * text.length + 1) text := by
  induction fuel, enough using Nat.le_induction with
  | base => rfl
  | succ fuel enough ih => rw [(parse_enough fuel).1 enough, ih]

end Encodings

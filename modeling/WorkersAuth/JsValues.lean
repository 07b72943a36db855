import WorkersAuth.Types

/-! JavaScript values, and what `JSON.stringify` makes of them.
Application code may hand in more than JSON has: big integers and objects that contain
themselves make `JSON.stringify` throw, functions and undefined values are left out.
-/

namespace WorkersAuth

/-- A value of plain data. `cycle` is a reference back to an object that contains it. -/
inductive JsValue where
  | undefined
  | null
  | bool (value : Bool)
  | num (value : ℚ)
  | nan
  | infinity (negative : Bool)
  | str (value : String)
  | bigint (value : ℤ)
  | function
  | arr (items : List JsValue)
  | obj (fields : List (String × JsValue))
  | cycle

/-- A `Record<string, unknown>` of any values. -/
abbrev JsObject := List (String × JsValue)

def JsObject.get (object : JsObject) (name : String) : Option JsValue :=
  (object.find? (fun field => field.1 = name)).map Prod.snd

/-- `{ ...object, [name]: value }`. -/
def JsObject.set (object : JsObject) (name : String) (value : JsValue) : JsObject :=
  if (object.get name).isSome then
    object.map (fun field => if field.1 = name then (name, value) else field)
  else
    object ++ [(name, value)]

namespace JsValue

/-- Whether a condition takes the value for true. -/
def truthy : JsValue → Bool
  | .undefined | .null | .nan => false
  | .bool value => value
  | .num value => value ≠ 0
  | .str value => value ≠ ""
  | .bigint value => value ≠ 0
  | .infinity _ | .function | .arr _ | .obj _ | .cycle => true

/-- The number, when `Number.isFinite` holds of the value. -/
def finite? : JsValue → Option ℚ
  | .num value => some value
  | _ => none

/-- The string, when the value is one and is not empty. -/
def nonEmptyString? : JsValue → Option String
  | .str value => if value = "" then none else some value
  | _ => none

/-- `typeof value === 'string'`. -/
def isString : JsValue → Bool
  | .str _ => true
  | _ => false

/-- Reading a property; nothing when that throws, as `undefined` and `null` have none. -/
def property (value : JsValue) (name : String) : Option JsValue :=
  match value with
  | .undefined | .null => none
  | .obj fields => some ((JsObject.get fields name).getD .undefined)
  | _ => some .undefined

/-- `name in value`; nothing when that throws, as it does unless the value is an object. -/
def hasProperty (value : JsValue) (name : String) : Option Bool :=
  match value with
  | .obj fields => some (JsObject.get fields name).isSome
  | .arr _ | .function | .cycle => some false
  | _ => none

/-- `{ ...value }`: the fields of an object and the items of an array under their indices. -/
def spread : JsValue → JsObject
  | .obj fields => fields
  | .arr items => items.zipIdx.map (fun (item, index) => (toString index, item))
  | _ => []

-----------------------------------------------------------------------------------------
-- `JSON.stringify`
-----------------------------------------------------------------------------------------

mutual

/-- `JSON.stringify`: nothing when it throws, and what has no JSON form inside it is undefined.
-/
def stringify : JsValue → Option (Option Json)
  | .undefined | .function => some none
  | .null | .nan | .infinity _ => some (some .null)
  | .bool value => some (some (.bool value))
  | .num value => some (some (.num value))
  | .str value => some (some (.str value))
  | .bigint _ | .cycle => none
  | .arr items => (stringifyItems items).map (fun items => some (.arr items))
  | .obj fields => (stringifyFields fields).map (fun fields => some (.obj fields))

/-- In an array an undefined item becomes `null`. -/
def stringifyItems : List JsValue → Option (List Json)
  | [] => some []
  | item :: rest =>
      (stringify item).bind (fun json =>
        (stringifyItems rest).map (fun rest => json.getD .null :: rest))

/-- In an object an undefined field is left out. -/
def stringifyFields : JsObject → Option JsonObject
  | [] => some []
  | (name, value) :: rest =>
      (stringify value).bind (fun json =>
        (stringifyFields rest).map (fun rest =>
          (json.map (fun json => (name, json))).toList ++ rest))

end

mutual

/-- A JSON value is one of them. -/
def ofJson : Json → JsValue
  | .null => .null
  | .bool value => .bool value
  | .num value => .num value
  | .str value => .str value
  | .arr items => .arr (ofItems items)
  | .obj fields => .obj (ofFields fields)

def ofItems : List Json → List JsValue
  | [] => []
  | item :: rest => ofJson item :: ofItems rest

def ofFields : JsonObject → JsObject
  | [] => []
  | (name, value) :: rest => (name, ofJson value) :: ofFields rest

end

mutual

/-- JSON values are written as they are, by recursion on the value. -/
@[simp] theorem stringify_ofJson : (json : Json) → stringify (ofJson json) = some (some json)
  | .null | .bool _ | .num _ | .str _ => by simp [ofJson, stringify]
  | .arr items => by simp [ofJson, stringify, stringifyItems_ofItems items]
  | .obj fields => by simp [ofJson, stringify, stringifyFields_ofFields fields]

theorem stringifyItems_ofItems : (items : List Json) → stringifyItems (ofItems items) = some items
  | [] => rfl
  | item :: rest => by
      simp [ofItems, stringifyItems, stringify_ofJson item, stringifyItems_ofItems rest]

theorem stringifyFields_ofFields
    : (fields : JsonObject) → stringifyFields (ofFields fields) = some fields
  | [] => rfl
  | (name, value) :: rest => by
      simp [ofFields, stringifyFields, stringify_ofJson value, stringifyFields_ofFields rest]

end

/-- Reading a property of a JSON object. -/
@[simp] theorem get_ofFields (fields : JsonObject) (name : String)
    : JsObject.get (ofFields fields) name = (JsonObject.get fields name).map ofJson := by
  induction fields with
  | nil => rfl
  | cons field rest ih =>
      obtain ⟨first, value⟩ := field
      by_cases same : first = name
      · simp [ofFields, JsObject.get, JsonObject.get, same]
      · simpa [ofFields, JsObject.get, JsonObject.get, same] using ih

/-- Two JSON objects, one after the other. -/
@[simp] theorem ofFields_append (first second : JsonObject)
    : ofFields (first ++ second) = ofFields first ++ ofFields second := by
  induction first with
  | nil => rfl
  | cons field rest ih => simp [ofFields, ih]

/-- Setting a property of a JSON object. -/
@[simp] theorem set_ofFields (fields : JsonObject) (name : String) (value : Json)
    : JsObject.set (ofFields fields) name (ofJson value) = ofFields (JsonObject.set fields name value) := by
  have replaced : (ofFields fields).map (fun field => if field.1 = name then (name, ofJson value) else field)
      = ofFields (fields.map (fun field => if field.1 = name then (name, value) else field)) := by
    induction fields with
    | nil => rfl
    | cons field rest ih =>
        by_cases same : field.1 = name <;> simp [ofFields, same, ih]
  simp only [JsObject.set, JsonObject.set, get_ofFields, Option.isSome_map, replaced]
  split
  · rfl
  · rw [ofFields_append]
    rfl

/-- Writing an object throws exactly when writing one of its values does, by induction on the
fields.
-/
theorem stringifyFields_eq_none_iff {fields : JsObject}
    : stringifyFields fields = none ↔ ∃ field ∈ fields, stringify field.2 = none := by
  induction fields with
  | nil => simp [stringifyFields]
  | cons field rest ih =>
      obtain ⟨name, value⟩ := field
      cases written : stringify value with
      | none => simp [stringifyFields, written]
      | some json => simp [stringifyFields, written, ih]

/-- Writing an object with a property set throws when the property's value does, or another one. -/
theorem stringifyFields_set_eq_none_iff {object : JsObject} {name : String} {value : JsValue}
    : stringifyFields (JsObject.set object name value) = none
      ↔ stringify value = none ∨ ∃ field ∈ object, field.1 ≠ name ∧ stringify field.2 = none := by
  rw [stringifyFields_eq_none_iff, JsObject.set]
  split
  · next present =>
      obtain ⟨first, member, named⟩ : ∃ field ∈ object, field.1 = name := by
        simpa [JsObject.get, List.find?_isSome] using present
      constructor
      · rintro ⟨field, inside, thrown⟩
        obtain ⟨old, there, rfl⟩ := List.mem_map.mp inside
        by_cases same : old.1 = name
        · exact .inl (by simpa [same] using thrown)
        · exact .inr ⟨old, there, same, by simpa [same] using thrown⟩
      · rintro (thrown | ⟨field, there, different, thrown⟩)
        · exact ⟨(name, value), List.mem_map.mpr ⟨first, member, if_pos named⟩, thrown⟩
        · exact ⟨field, List.mem_map.mpr ⟨field, there, if_neg different⟩, thrown⟩
  · next absent =>
      have unset : ∀ own, (name, own) ∉ object := by simpa [JsObject.get] using absent
      have other (field : String × JsValue) (there : field ∈ object) : field.1 ≠ name := by
        rintro rfl
        exact unset field.2 there
      constructor
      · rintro ⟨field, inside, thrown⟩
        rcases List.mem_append.mp inside with there | last
        · exact .inr ⟨field, there, other field there, thrown⟩
        · obtain rfl := List.mem_singleton.mp last
          exact .inl thrown
      · rintro (thrown | ⟨field, there, _, thrown⟩)
        · exact ⟨(name, value), by simp, thrown⟩
        · exact ⟨field, List.mem_append_left _ there, thrown⟩

end JsValue

end WorkersAuth

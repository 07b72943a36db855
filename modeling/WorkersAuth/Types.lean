import Mathlib.Data.Rat.Defs
import Mathlib.Algebra.Order.Ring.Rat

/-! The values every layer of the library shares: JSON values, users, sessions and events.
Numbers are rationals, so that configured durations need not be whole milliseconds.
-/

namespace WorkersAuth

/-- A time in milliseconds since the epoch, or a duration in milliseconds. -/
abbrev Millis := ℚ

/-- Milliseconds in a second, `SEC` in the source. -/
def sec : Millis := 1000

/-- A parsed JSON value. Object fields stand in insertion order, each name once. -/
inductive Json where
  | null
  | bool (value : Bool)
  | num (value : ℚ)
  | str (value : String)
  | arr (items : List Json)
  | obj (fields : List (String × Json))

/-- A `Record<string, unknown>`. -/
abbrev JsonObject := List (String × Json)

/-- Reading a property of an object; absent properties are undefined. -/
def JsonObject.get (object : JsonObject) (name : String) : Option Json :=
  (object.find? (fun field => field.1 = name)).map Prod.snd

/-- `{ ...object, [name]: value }`. -/
def JsonObject.set (object : JsonObject) (name : String) (value : Json) : JsonObject :=
  if (object.get name).isSome then
    object.map (fun field => if field.1 = name then (name, value) else field)
  else
    object ++ [(name, value)]

/-- Reading a property of any value; only objects have the properties the source reads. -/
def Json.get : Json → String → Option Json
  | .obj fields, name => JsonObject.get fields name
  | _, _ => none

/-- The value when it is a string, as after `typeof value === 'string'`. -/
def Json.string? : Json → Option String
  | .str value => some value
  | _ => none

/-- The value when it is a number, as after `typeof value === 'number'`. -/
def Json.number? : Json → Option ℚ
  | .num value => some value
  | _ => none

/-- A property set last is the one read. -/
@[simp] theorem JsonObject.get_set_self (object : JsonObject) (name : String) (value : Json)
    : (JsonObject.set object name value).get name = some value := by
  unfold JsonObject.set
  split
  · next present =>
      simp only [JsonObject.get, Option.isSome_map, List.find?_isSome, decide_eq_true_eq,
        List.find?_map] at present ⊢
      obtain ⟨field, member, same⟩ := present
      cases found : object.find? _ with
      | none => simpa [same] using List.find?_eq_none.mp found field member
      | some first =>
          have hit := List.find?_some found
          by_cases here : first.1 = name
          · simp [here]
          · simp [here] at hit
  · next absent =>
      simp only [JsonObject.get, Option.isSome_map, Bool.not_eq_true, Option.isSome_eq_false_iff,
        Option.isNone_iff_eq_none] at absent
      simp [JsonObject.get, List.find?_append, absent]

/-- The first property of a name is the one read. -/
@[simp] theorem JsonObject.get_cons (name sought : String) (value : Json) (rest : JsonObject)
    : JsonObject.get ((name, value) :: rest) sought
      = if name = sought then some value else rest.get sought := by
  by_cases same : name = sought <;> simp [JsonObject.get, same]

/-- Of two objects written one after the other, the first one's properties are read first. -/
@[simp] theorem JsonObject.get_append (first second : JsonObject) (name : String)
    : JsonObject.get (first ++ second) name = (first.get name).or (second.get name) := by
  simp only [JsonObject.get, List.find?_append]
  cases first.find? (fun field => field.1 = name) <;> rfl

inductive SubjectType where
  | user
  | service
  deriving DecidableEq

structure SessionScope where
  orgId : Option String
  role : Option String

/-- `metadata` is the source's `meta`: the application's metadata next to the SDK's own namespace. -/
structure Session where
  sid : String
  userId : String
  subjectType : SubjectType
  createdAt : Millis
  lastSeenAt : Millis
  idleExpiresAt : Millis
  absoluteExpiresAt : Millis
  scope : Option SessionScope
  metadata : Option JsonObject

structure NewSession where
  userId : String
  subjectType : SubjectType
  idleTtlSec : ℚ
  absoluteTtlSec : ℚ
  scope : Option SessionScope
  metadata : Option JsonObject

structure AuthUser where
  id : String
  subjectType : SubjectType
  email : Option String
  rateLimitId : String
  claims : JsonObject

/-- The events `onEvent` receives from the routes modelled here. -/
inductive AuthEvent where
  | authFailed (reason : String) (provider : Option String)
  | sessionCreated (userId : String) (subjectType : SubjectType) (sidFingerprint : String)
  | sessionRevoked (sidFingerprint : String)
  | csrfFailed (reason : String)
  | emailCodeSent (emailFingerprint : String)
  | emailCodeFailed (emailFingerprint reason : String)
  | emailCodeVerified (userId emailFingerprint : String)
  | rateLimited (scope : String)
  | deviceRegistered (userId deviceId : String)
  | deviceRevoked (userId : String) (deviceId : Option String) (count : Option Nat) (reason : String)
  | pinSet (userId : String) (replaced : Bool)
  | pinLoginSucceeded (userId deviceId : String)
  | pinLoginFailed (reason : String) (base : Option (String × String)) (failedCount : Option Nat)
  | pinLocked (userId deviceId : String)
  | pinUnlocked (userId : String)
  | sessionsRevokedAll (userId reason : String)
  | botCheckFailed (action : String)
  | circuitBreakerOpen (scope : String)

end WorkersAuth

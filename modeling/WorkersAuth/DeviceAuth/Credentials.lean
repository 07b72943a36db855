import WorkersAuth.Calls
import WorkersAuth.DeviceAuth.Keys

/-! `credentials.ts`: enrolling a PIN and verifying one against stored material. -/

namespace WorkersAuth.DeviceAuth

open Atomic

/-- `/^\d{6}$/` on a string value. -/
def isPinFormat (value : Option Json) : Option String :=
  (value.bind Json.string?).filter (isDigits 6)

/-- The material of a PIN, once `isPinMaterial` has accepted it. -/
structure PinMaterial where
  iterations : ℚ
  salt : String
  hash : String
  pepperVer : String

/-- `isPinMaterial`: the algorithm and the types of the fields. -/
def pinMaterial? (material : JsonObject) : Option PinMaterial := do
  let alg ← (← material.get "alg").string?
  let iterations ← (← material.get "iterations").number?
  let salt ← (← material.get "salt").string?
  let hash ← (← material.get "hash").string?
  let pepperVer ← (← material.get "pepperVer").string?
  guard (alg = "pbkdf2-sha256")
  return { iterations, salt, hash, pepperVer }

/-- The stored form of a PIN's material. -/
def PinMaterial.toJson (material : PinMaterial) : JsonObject :=
  [
    ("alg", .str "pbkdf2-sha256"),
    ("iterations", .num material.iterations),
    ("salt", .str material.salt),
    ("hash", .str material.hash),
    ("pepperVer", .str material.pepperVer)
  ]

/-- What is stored for a PIN is read back as it was. -/
@[simp] theorem pinMaterial?_toJson (material : PinMaterial)
    : pinMaterial? material.toJson = some material := by
  simp [pinMaterial?, PinMaterial.toJson, JsonObject.get, Json.string?, Json.number?]

def saltBytes : Nat := 16

/-- Enrols a PIN under the ring's current key; nothing when the platform throws. -/
def enroll (platform : Platform) (iterations : Nat) (pin : String) (keys : KeyRing)
    : Handler (Option JsonObject) := do
  let salt ← host.randomBytes saltBytes
  match ← host.derive pin keys.current.pepperKey salt iterations with
  | none => return none
  | some hash =>
      return some (PinMaterial.toJson {
        iterations
        salt := base64urlEncode platform salt
        hash := base64urlEncode platform hash
        pepperVer := keys.current.keyId
      })

inductive CredentialVerifyResult where
  | refused
  | ok (upgraded : Option JsonObject)

/-- `pinCredential.verify`; nothing when the platform throws on malformed material. Material
made under another key or cost is enrolled again after a match.
-/
def pinVerify (platform : Platform) (iterations : Nat) (pin : String) (material : JsonObject)
    (keys : KeyRing)
    : Handler (Option CredentialVerifyResult) := do
  match pinMaterial? material with
  | none => return some .refused
  | some material =>
      match keys.get material.pepperVer with
      | none => return some .refused
      | some derived =>
          match base64urlDecode platform material.hash, base64urlDecode platform material.salt with
          | some expected, some salt =>
              match ← host.derive pin derived.pepperKey salt material.iterations with
              | none => return none
              | some actual =>
                  if !timingSafeEqualBytes actual expected then
                    return some .refused
                  if material.pepperVer ≠ keys.current.keyId ∨ material.iterations ≠ iterations then
                    match ← enroll platform iterations pin keys with
                    | none => return none
                    | some upgraded => return some (.ok (some upgraded))
                  return some (.ok none)
          | _, _ => return none

/-- The PIN's derivation is the hash in the material: what a verification finds out. -/
def PinMatches (platform : Platform) (keys : KeyRing) (pin : String) (material : JsonObject)
    : Prop :=
  ∃ stored derived salt hash,
    pinMaterial? material = some stored
    ∧ keys.get stored.pepperVer = some derived
    ∧ base64urlDecode platform stored.salt = some salt
    ∧ base64urlDecode platform stored.hash = some hash
    ∧ platform.pbkdf2 (platform.hmac derived.pepperKey pin) salt stored.iterations = some hash

section Matches

variable {platform : Platform} {keys : KeyRing} {pin : String} {material : JsonObject}
  {stored : PinMaterial} {derived : DerivedKeys} {salt hash : Bytes}

/-- Material that is not a PIN's matches no PIN. -/
theorem not_pinMatches_of_unreadable (unreadable : pinMaterial? material = none)
    : ¬PinMatches platform keys pin material := by
  rintro ⟨stored, _, _, _, read, _⟩
  exact absurd (read.symm.trans unreadable) nofun

/-- Material made under a secret that is gone matches no PIN. -/
theorem not_pinMatches_of_unknown (read : pinMaterial? material = some stored)
    (unknown : keys.get stored.pepperVer = none)
    : ¬PinMatches platform keys pin material := by
  rintro ⟨stored', _, _, _, read', known, _⟩
  cases read.symm.trans read'
  exact absurd (known.symm.trans unknown) nofun

/-- Material whose salt or hash is not base64url matches no PIN. -/
theorem not_pinMatches_of_undecodable (read : pinMaterial? material = some stored)
    (undecodable : base64urlDecode platform stored.salt = none
      ∨ base64urlDecode platform stored.hash = none)
    : ¬PinMatches platform keys pin material := by
  rintro ⟨stored', _, _, _, read', _, salt_eq, hash_eq, _⟩
  cases read.symm.trans read'
  rcases undecodable with bad | bad
  · exact absurd (salt_eq.symm.trans bad) nofun
  · exact absurd (hash_eq.symm.trans bad) nofun

variable (pin) in
/-- Readable material matches exactly the PINs that derive its hash. -/
theorem pinMatches_iff (read : pinMaterial? material = some stored)
    (known : keys.get stored.pepperVer = some derived)
    (salt_eq : base64urlDecode platform stored.salt = some salt)
    (hash_eq : base64urlDecode platform stored.hash = some hash)
    : PinMatches platform keys pin material
      ↔ platform.pbkdf2 (platform.hmac derived.pepperKey pin) salt stored.iterations
        = some hash := by
  constructor
  · rintro ⟨stored', derived', salt', hash', read', known', salt_eq', hash_eq', equal⟩
    cases read.symm.trans read'
    cases known.symm.trans known'
    cases salt_eq.symm.trans salt_eq'
    cases hash_eq.symm.trans hash_eq'
    exact equal
  · exact fun equal => ⟨stored, derived, salt, hash, read, known, salt_eq, hash_eq, equal⟩

end Matches

/-- Whether the PIN matches can be computed, as the verification does. -/
instance (platform : Platform) (keys : KeyRing) (pin : String) (material : JsonObject)
    : Decidable (PinMatches platform keys pin material) :=
  match read : pinMaterial? material with
  | none => .isFalse (not_pinMatches_of_unreadable read)
  | some stored =>
      match known : keys.get stored.pepperVer with
      | none => .isFalse (not_pinMatches_of_unknown read known)
      | some _ =>
          match salt_eq : base64urlDecode platform stored.salt,
              hash_eq : base64urlDecode platform stored.hash with
          | some _, some _ =>
              decidable_of_iff' _ (pinMatches_iff pin read known salt_eq hash_eq)
          | none, _ => .isFalse (not_pinMatches_of_undecodable read (.inl salt_eq))
          | _, none => .isFalse (not_pinMatches_of_undecodable read (.inr hash_eq))

end WorkersAuth.DeviceAuth

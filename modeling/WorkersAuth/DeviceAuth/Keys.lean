import WorkersAuth.Crypto

/-! `keys.ts`: one secret, several derived keys, and the ring of current and previous keys. -/

namespace WorkersAuth.DeviceAuth

structure DerivedKeys where
  keyId : String
  otpKey : Bytes
  pepperKey : Bytes
  deriving DecidableEq

/-- `byId` in insertion order; the first entry of an id is the one the map holds. -/
structure KeyRing where
  current : DerivedKeys
  byId : List (String × DerivedKeys)

/-- `ring.byId.get(keyId)`. -/
def KeyRing.get (ring : KeyRing) (keyId : String) : Option DerivedKeys :=
  ring.byId.lookup keyId

def deriveKeys (platform : Platform) (secret : String) : DerivedKeys where
  keyId := toHex (platform.hkdf secret "key-id")
  otpKey := platform.hkdf secret "otp-hmac"
  pepperKey := platform.hkdf secret "pin-pepper"

/-- One previous secret: skipped when it is the current one or its id is taken. -/
def addPrevious (platform : Platform) (secret : String) (byId : List (String × DerivedKeys))
    (previous : String)
    : List (String × DerivedKeys) :=
  let keys := deriveKeys platform previous
  if previous = secret ∨ (byId.lookup keys.keyId).isSome then byId
  else byId ++ [(keys.keyId, keys)]

def buildKeyRing (platform : Platform) (secret : String) (previousSecrets : List String)
    : KeyRing :=
  let current := deriveKeys platform secret
  {
    current
    byId := previousSecrets.foldl (addPrevious platform secret) [(current.keyId, current)]
  }

def hmacHex (platform : Platform) (key : Bytes) (message : String) : String :=
  toHex (platform.hmac key message)

/-- Adding a previous secret keeps what an id already finds. -/
theorem lookup_addPrevious {platform : Platform} {secret previous keyId : String}
    {byId : List (String × DerivedKeys)} {keys : DerivedKeys} (found : byId.lookup keyId = some keys)
    : (addPrevious platform secret byId previous).lookup keyId = some keys := by
  unfold addPrevious
  simp only
  split
  · exact found
  · rw [List.lookup_append, found]
    rfl

/-- The current key's id finds the current key, by induction over the previous secrets. -/
theorem buildKeyRing_get_current (platform : Platform) (secret : String)
    (previousSecrets : List String)
    : (buildKeyRing platform secret previousSecrets).get
          (buildKeyRing platform secret previousSecrets).current.keyId
      = some (buildKeyRing platform secret previousSecrets).current := by
  simp only [buildKeyRing, KeyRing.get]
  have first : [((deriveKeys platform secret).keyId, deriveKeys platform secret)].lookup
      (deriveKeys platform secret).keyId = some (deriveKeys platform secret) := by simp
  generalize [((deriveKeys platform secret).keyId, deriveKeys platform secret)] = byId at first
  induction previousSecrets generalizing byId with
  | nil => exact first
  | cons previous rest ih => exact ih _ (lookup_addPrevious first)

end WorkersAuth.DeviceAuth

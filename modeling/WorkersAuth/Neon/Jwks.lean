import Mathlib.Data.List.Infix
import WorkersAuth.Http

/-! Tokens and key sets of `neonAuth`, as far as no cache is involved.
The Web Crypto functions, `JSON.parse` and the text decoder are parameters; a value that has
been parsed but not checked stays a JSON value.
-/

namespace WorkersAuth.Neon

inductive JwsAlgorithm where
  | RS256
  | RS384
  | RS512
  | ES256
  | ES384
  | EdDSA
  deriving DecidableEq

def JwsAlgorithm.name : JwsAlgorithm → String
  | .RS256 => "RS256"
  | .RS384 => "RS384"
  | .RS512 => "RS512"
  | .ES256 => "ES256"
  | .ES384 => "ES384"
  | .EdDSA => "EdDSA"

structure ImportAlgorithm where
  name : String
  hash : Option String := none
  namedCurve : Option String := none

structure VerifyAlgorithm where
  name : String
  hash : Option String := none

structure AlgSpec where
  kty : String
  crv : Option String := none
  importAlgorithm : ImportAlgorithm
  verifyAlgorithm : VerifyAlgorithm

/-- `ALG_SPECS`. -/
def JwsAlgorithm.spec : JwsAlgorithm → AlgSpec
  | .RS256 =>
      { kty := "RSA", importAlgorithm := { name := "RSASSA-PKCS1-v1_5", hash := some "SHA-256" }
        verifyAlgorithm := { name := "RSASSA-PKCS1-v1_5" } }
  | .RS384 =>
      { kty := "RSA", importAlgorithm := { name := "RSASSA-PKCS1-v1_5", hash := some "SHA-384" }
        verifyAlgorithm := { name := "RSASSA-PKCS1-v1_5" } }
  | .RS512 =>
      { kty := "RSA", importAlgorithm := { name := "RSASSA-PKCS1-v1_5", hash := some "SHA-512" }
        verifyAlgorithm := { name := "RSASSA-PKCS1-v1_5" } }
  | .ES256 =>
      { kty := "EC", crv := some "P-256"
        importAlgorithm := { name := "ECDSA", namedCurve := some "P-256" }
        verifyAlgorithm := { name := "ECDSA", hash := some "SHA-256" } }
  | .ES384 =>
      { kty := "EC", crv := some "P-384"
        importAlgorithm := { name := "ECDSA", namedCurve := some "P-384" }
        verifyAlgorithm := { name := "ECDSA", hash := some "SHA-384" } }
  | .EdDSA =>
      { kty := "OKP", crv := some "Ed25519", importAlgorithm := { name := "Ed25519" }
        verifyAlgorithm := { name := "Ed25519" } }

/-- What the runtime provides to `neonAuth`. `stringOf` is `String(value)` of a value that is
not a string, `toNumber` is `Number(text)` when that is a number. Import and verification give
nothing, and false, where they throw.
-/
structure Runtime (Key : Type) extends Platform where
  parseJson : String → Option Json
  decodeText : Bytes → String
  stringOf : Json → String
  toNumber : String → Option ℚ
  importKey : Json → ImportAlgorithm → Option Key
  verifySignature : VerifyAlgorithm → Key → (signature signed : Bytes) → Bool

/-- The characters of a bearer token: `[A-Za-z0-9._~+/=-]`. -/
def isTokenChar (char : Char) : Bool :=
  isBase64urlChar char || char ∈ ['.', '~', '+', '/', '=']

/-- `/^Bearer\s+([A-Za-z0-9._~+/=-]+)$/` on the trimmed header. -/
def defaultGetToken (req : HttpRequest) : Option String :=
  (req.header "authorization").bind (fun header =>
    let trimmed := jsTrim header.toList
    let after := trimmed.drop 6
    let token := after.dropWhile isJsSpace
    if trimmed.take 6 = "Bearer".toList ∧ token.length < after.length ∧ token ≠ []
        ∧ token.all isTokenChar then
      some (.ofList token)
    else none)

structure NeonAuthOptions where
  issuer : String
  audience : List String
  algorithms : List JwsAlgorithm := [.RS256, .ES256, .EdDSA]
  clockToleranceSec : ℚ := 30
  jwksCacheTtlSec : ℚ := 600
  minRefetchIntervalSec : ℚ := 60
  maxJwksBytes : Nat := 256 * 1024
  maxJwksKeys : Nat := 32
  /-- Whether a KV cache is configured. -/
  cache : Bool := false
  getToken : HttpRequest → Option String := defaultGetToken
  name : String := "neon"

def maxTokenBytes : Nat := 8192

-----------------------------------------------------------------------------------------
-- Unchecked JSON values
-----------------------------------------------------------------------------------------

/-- Whether a property is there and not one of the values `!` turns to true. -/
def truthy : Option Json → Bool
  | none => false
  | some .null => false
  | some (.bool value) => value
  | some (.num value) => value ≠ 0
  | some (.str value) => value ≠ ""
  | some (.arr _) => true
  | some (.obj _) => true

/-- `value === other`, where `value` comes from another parse. -/
def strictEquals : Json → Json → Bool
  | .null, .null => true
  | .bool value, .bool other => value = other
  | .num value, .num other => value = other
  | .str value, .str other => value = other
  | _, _ => false

/-- The property is this string. -/
def isString (value : Option Json) (text : String) : Bool :=
  value.bind Json.string? = some text

/-- `typeof value === 'object' && value !== null`. -/
def isObject : Json → Bool
  | .arr _ => true
  | .obj _ => true
  | _ => false

def asAudienceList : Option Json → List String
  | some (.str aud) => [aud]
  | some (.arr items) => items.filterMap Json.string?
  | _ => []

-----------------------------------------------------------------------------------------
-- Tokens
-----------------------------------------------------------------------------------------

structure DecodedJwt where
  header : Json
  payload : Json
  signature : Bytes
  signedData : Bytes

variable {Key : Type}

/-- One part of a token, parsed. -/
def decodePart (runtime : Runtime Key) (part : List Char) : Option Json :=
  ((base64urlDecode runtime.toPlatform (.ofList part)).map runtime.decodeText).bind runtime.parseJson

/-- Nothing unless the token has three parts, none of them empty, that decode to objects. -/
def decodeJwt (runtime : Runtime Key) (token : String) : Option DecodedJwt :=
  match token.toList.splitOn '.' with
  | [h, p, s] =>
      if h = [] ∨ p = [] ∨ s = [] then none
      else
        match decodePart runtime h, decodePart runtime p,
          base64urlDecode runtime.toPlatform (.ofList s) with
        | some header, some payload, some signature =>
            if isObject header && isObject payload then
              some {
                header, payload, signature
                signedData := (String.ofList (h ++ '.' :: p)).toUTF8.data.toList }
            else none
        | _, _, _ => none
  | _ => none

/-- The algorithm of the header, when it is one of those allowed. -/
def allowedAlgorithm (options : NeonAuthOptions) (header : Json) : Option JwsAlgorithm :=
  options.algorithms.find? (fun algorithm => isString (header.get "alg") algorithm.name)

/-- The checks on the claims of a token whose signature is valid, at a clock reading. -/
def acceptPayload (options : NeonAuthOptions) (payload : Json) (at' : Millis) : Option AuthUser :=
  let skew := options.clockToleranceSec * sec
  let aud := asAudienceList (payload.get "aud")
  if !isString (payload.get "iss") options.issuer then none
  else if aud = [] ∨ aud.all (· ∉ options.audience) then none
  else
    match (payload.get "exp").bind Json.number? with
    | none => none
    | some exp =>
        if exp * sec + skew < at' then none
        else if early skew then none
        else
          match payload, (payload.get "sub").bind Json.string? with
          | .obj fields, some sub =>
              if sub = "" then none
              else
                some {
                  id := sub, subjectType := .user, rateLimitId := sub
                  email := (payload.get "email").bind Json.string?
                  claims := JsonObject.set fields "provider" (.str options.name) }
          | _, _ => none
where
  /-- The `nbf` claim is there, and is no number or a time still to come. -/
  early (skew : Millis) : Bool :=
    match payload.get "nbf" with
    | none => false
    | some (.num nbf) => at' < nbf * sec - skew
    | some _ => true

-----------------------------------------------------------------------------------------
-- Keys
-----------------------------------------------------------------------------------------

/-- The minimal JWK that is imported. -/
def sanitizeJwk (jwk : Json) (alg : JwsAlgorithm) : Option Json :=
  if !isString (jwk.get "kty") alg.spec.kty then none
  else if truthy (jwk.get "alg") && !isString (jwk.get "alg") alg.name then none
  else if truthy (jwk.get "use") && !isString (jwk.get "use") "sig" then none
  else if alg.spec.crv.any (fun crv => !isString (jwk.get "crv") crv) then none
  else if alg.spec.kty = "RSA" then
    if !truthy (jwk.get "n") || !truthy (jwk.get "e") then none
    else some (.obj (("kty", .str "RSA") :: taken ["n", "e"]))
  else if alg.spec.kty = "EC" then
    if !truthy (jwk.get "x") || !truthy (jwk.get "y") || !truthy (jwk.get "crv") then none
    else some (.obj (("kty", .str "EC") :: taken ["crv", "x", "y"]))
  else if !truthy (jwk.get "x") || !truthy (jwk.get "crv") then none
  else some (.obj (("kty", .str "OKP") :: taken ["crv", "x"]))
where
  /-- These properties of the JWK. -/
  taken (names : List String) : JsonObject :=
    names.filterMap (fun name => (jwk.get name).map (fun value => (name, value)))

/-- Older runtimes know Ed25519 by another name only. -/
def importJwk (runtime : Runtime Key) (jwk : Json) (alg : JwsAlgorithm) : Option Key :=
  match sanitizeJwk jwk alg with
  | none => none
  | some sanitized =>
      match runtime.importKey sanitized alg.spec.importAlgorithm with
      | some key => some key
      | none =>
          if alg = .EdDSA then
            runtime.importKey sanitized
              { name := "NODE-ED25519", namedCurve := some "NODE-ED25519" }
          else none

/-- `keys.find`; reading a property of a `null` among the keys throws. -/
def findKey (test : Json → Bool) : List Json → Option (Option Json)
  | [] => some none
  | .null :: _ => none
  | key :: rest => if test key then some (some key) else findKey test rest

/-- The key of the token's `kid`, or the first of the right type when it has none. -/
def pick (kid : Option Json) (alg : JwsAlgorithm) (keys : List Json) : Option (Option Json) :=
  match kid with
  | some kid =>
      if truthy (some kid) then findKey (fun key => (key.get "kid").any (strictEquals · kid)) keys
      else findKey (fun key => isString (key.get "kty") alg.spec.kty) keys
  | none => findKey (fun key => isString (key.get "kty") alg.spec.kty) keys

/-- The name an imported key is remembered under: `${kid ?? ''}|${alg}`. -/
def importedName (runtime : Runtime Key) (kid : Option Json) (alg : JwsAlgorithm) : String :=
  let text :=
    match kid with
    | none => ""
    | some .null => ""
    | some (.str text) => text
    | some value => runtime.stringOf value
  text ++ "|" ++ alg.name

-----------------------------------------------------------------------------------------
-- Key sets
-----------------------------------------------------------------------------------------

/-- An answer of the JWKS endpoint; `text` is nothing when reading the body fails. -/
structure JwksResponse where
  status : Nat
  contentType : Option String
  contentLength : Option String
  text : Option String

/-- The keys of an answer, or nothing where `fetchJwks` throws: no answer in time, an error
status, a document that is not JSON, too large or with too many keys.
-/
def readJwks (runtime : Runtime Key) (options : NeonAuthOptions)
    : Option JwksResponse → Option (List Json)
  | none => none
  | some res =>
      if ¬(200 ≤ res.status ∧ res.status ≤ 299) then none
      else if ¬("json".toList <:+: (res.contentType.getD "").toList) then none
      else if (runtime.toNumber (res.contentLength.getD "0")).any ((options.maxJwksBytes : ℚ) < ·) then none
      else
        match res.text with
        | none => none
        | some text =>
            if options.maxJwksBytes < jsLength text then none
            else
              match runtime.parseJson text with
              | none => none
              | some .null => none
              | some body =>
                  let keys :=
                    match body.get "keys" with
                    | some (.arr items) => items.filter isObject
                    | _ => []
                  if options.maxJwksKeys < keys.length then none else some keys

end WorkersAuth.Neon

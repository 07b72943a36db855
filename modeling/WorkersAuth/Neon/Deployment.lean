import WorkersAuth.Atomic.Schedule
import WorkersAuth.DeviceAuth.Deployment
import WorkersAuth.Neon.Tokens

/-! Computed runs of one isolate, and a sample issuer with one Ed25519 key. -/

namespace WorkersAuth.Neon

open Atomic

variable {Key : Type} {runtime : Runtime Key} {options : NeonAuthOptions}

/-- Computing the turns of a run, each with what it is given from input. -/
def runner (runtime : Runtime Key) (options : NeonAuthOptions)
    : Runner (Turn Key) Turn.Ret (Isolate Key) TurnInput :=
  fun input taken isolate =>
    if isolate.now ≤ input.later ∧ input.later ≤ input.after then
      (taken.compute runtime options input isolate).map
        (fun (reply, next) => (reply, next.wait input.after))
    else none

/-- Computed turns are turns. -/
theorem runner_sound : (runner runtime options).Sound (Turn.exec runtime options) := by
  intro input taken before reply after ran
  simp only [runner, Option.ite_none_right_eq_some, Option.map_eq_some_iff] at ran
  obtain ⟨⟨forward, onward⟩, ⟨answer, middle⟩, computed, same⟩ := ran
  cases same
  exact ⟨input, middle, forward, onward, computed, rfl⟩

end WorkersAuth.Neon

namespace WorkersAuth.Sample

open Atomic Neon

/-- The JWK of the issuer's key. -/
def issuerJwk : Json :=
  .obj [("kty", .str "OKP"), ("crv", .str "Ed25519"), ("kid", .str "k1"),
    ("x", .str "A6EHv_POEL4dcN0Y50vAmWfk1jCbpQ1fHdyGZBJVMbg")]

def jwtHeader : String :=
  "\x7b\"alg\":\"EdDSA\",\"kid\":\"k1\"\x7d"

def jwtPayload : String :=
  "\x7b\"iss\":\"https://issuer.example\",\"aud\":\"app\",\"exp\":4102444800,\"sub\":\"user_42\"\x7d"

def jwtSignature : Bytes :=
  bytesOf 64 0x928d9c0d952938d03f50058ee4359acd2388f41ca69c6dba8a3bd8a91c986107be123233125be99f01a01980d9bea0985524438a946499217aa915287d188e08

/-- The header of a token that no key has signed. -/
def probeHeader : String :=
  "\x7b\"alg\":\"EdDSA\"\x7d"

def jwksText : String :=
  "\x7b\"keys\":[\x7b\"kty\":\"OKP\",\"crv\":\"Ed25519\",\"kid\":\"k1\",\"x\":\"A6EHv_POEL4dcN0Y50vAmWfk1jCbpQ1fHdyGZBJVMbg\"\x7d]\x7d"

/-- The texts of the sample and what they parse to. -/
def parsed : List (String × Json) :=
  [
    (probeHeader, .obj [("alg", .str "EdDSA")]),
    ("\x7b\x7d", .obj []),
    (jwtHeader, .obj [("alg", .str "EdDSA"), ("kid", .str "k1")]),
    (jwtPayload, .obj [("iss", .str "https://issuer.example"), ("aud", .str "app"),
      ("exp", .num 4102444800), ("sub", .str "user_42")]),
    (jwksText, .obj [("keys", .arr [issuerJwk])])
  ]

def decoded : List (String × Bytes) :=
  [
    ("eyJhbGciOiJFZERTQSJ9", probeHeader.toUTF8.data.toList),
    ("e30=", [123, 125]),
    ("AA==", [0]),
    ("eyJhbGciOiJFZERTQSIsImtpZCI6ImsxIn0=", jwtHeader.toUTF8.data.toList),
    ("eyJpc3MiOiJodHRwczovL2lzc3Vlci5leGFtcGxlIiwiYXVkIjoiYXBwIiwiZXhwIjo0MTAyNDQ0ODAwLCJzdWIiOiJ1c2VyXzQyIn0=",
      jwtPayload.toUTF8.data.toList),
    ("ko2cDZUpONA/UAWO5DWazSOI9BymnG26ijvYqRyYYQe+EjIzElvpnwGgGYDZvqCYVSRDipRkmSF6qRUofRiOCA==",
      jwtSignature)
  ]

def jwtSigned : String :=
  "eyJhbGciOiJFZERTQSIsImtpZCI6ImsxIn0.eyJpc3MiOiJodHRwczovL2lzc3Vlci5leGFtcGxlIiwiYXVkIjoiYXBwIiwiZXhwIjo0MTAyNDQ0ODAwLCJzdWIiOiJ1c2VyXzQyIn0"

def jwt : String :=
  jwtSigned ++ ".ko2cDZUpONA_UAWO5DWazSOI9BymnG26ijvYqRyYYQe-EjIzElvpnwGgGYDZvqCYVSRDipRkmSF6qRUofRiOCA"

/-- A runtime whose keys are the public points they were imported from. -/
def runtime : Runtime String where
  toPlatform := { platform with atob text := List.lookup text decoded }
  parseJson text := List.lookup text parsed
  decodeText bytes :=
    if bytes = probeHeader.toUTF8.data.toList then probeHeader
    else if bytes = [123, 125] then "\x7b\x7d"
    else if bytes = jwtHeader.toUTF8.data.toList then jwtHeader
    else if bytes = jwtPayload.toUTF8.data.toList then jwtPayload
    else ""
  stringOf _ := ""
  toNumber text := text.toNat?.map Nat.cast
  importKey jwk _ := (jwk.get "x").bind Json.string?
  verifySignature _ key signature signed :=
    key = "A6EHv_POEL4dcN0Y50vAmWfk1jCbpQ1fHdyGZBJVMbg" && signature = jwtSignature
      && signed = jwtSigned.toUTF8.data.toList

/-- The same, reading a number digit by digit, so that a run with a fetched key set computes. -/
def verifyingRuntime : Runtime String :=
  { runtime with
    toNumber := fun text =>
      if text.toList.all Char.isDigit then
        some ((text.toList.foldl (fun value digit => 10 * value + (digit.toNat - 48)) 0 : Nat) : ℚ)
      else none }

def neonOptions : NeonAuthOptions :=
  { issuer := "https://issuer.example", audience := ["app"] }

/-- A request with the issuer's token. -/
def jwtRequest : HttpRequest where
  method := "GET"
  url := "https://app.example.com/api"
  header name := if name = "authorization" then some ("Bearer " ++ jwt) else none
  cookie _ := none
  body := .body none

/-- The parts of the issuer's token. -/
def jwtHeaderPart : String := "eyJhbGciOiJFZERTQSIsImtpZCI6ImsxIn0"

def jwtPayloadPart : String :=
  "eyJpc3MiOiJodHRwczovL2lzc3Vlci5leGFtcGxlIiwiYXVkIjoiYXBwIiwiZXhwIjo0MTAyNDQ0ODAwLCJzdWIiOiJ1c2VyXzQyIn0"

def jwtSignaturePart : String :=
  "ko2cDZUpONA_UAWO5DWazSOI9BymnG26ijvYqRyYYQe-EjIzElvpnwGgGYDZvqCYVSRDipRkmSF6qRUofRiOCA"

def jwtDecoded : DecodedJwt where
  header := .obj [("alg", .str "EdDSA"), ("kid", .str "k1")]
  payload := .obj [("iss", .str "https://issuer.example"), ("aud", .str "app"),
    ("exp", .num 4102444800), ("sub", .str "user_42")]
  signature := jwtSignature
  signedData := jwtSigned.toUTF8.data.toList

/-- A request with a token that no key has signed. -/
def probeRequest : HttpRequest :=
  { jwtRequest with
    header := fun name =>
      if name = "authorization" then some "Bearer eyJhbGciOiJFZERTQSJ9.e30.AA" else none }

/-- An answer with the issuer's keys. -/
def jwksResponse : JwksResponse where
  status := 200
  contentType := some "application/json"
  contentLength := none
  text := some jwksText

/-- An answer without. -/
def jwksOutage : JwksResponse where
  status := 500
  contentType := none
  contentLength := none
  text := none

/-- What a turn is given when the next one comes at this time. -/
def before (later after : Millis) (response : Option JwksResponse := none) : TurnInput :=
  { later, after, kv := none, response, stored := true }

-----------------------------------------------------------------------------------------
-- The issuer's token
-----------------------------------------------------------------------------------------

-- The kernel takes long to read the characters off a text; here each text is unified with the
-- list of its characters first.
set_option maxRecDepth 2000 in
theorem jwtRequest_presents
    : PresentsParts jwtRequest jwt jwtHeaderPart jwtPayloadPart jwtSignaturePart where
  presented := rfl
  written := by decide +kernel
  shaped := by
    have header : jwtHeaderPart.toList = _ := String.toList_ofList
    have payload : jwtPayloadPart.toList = _ := String.toList_ofList
    have signature : jwtSignaturePart.toList = _ := String.toList_ofList
    simp only [List.map_cons, List.map_nil, header, payload, signature]
    decide +kernel

set_option maxRecDepth 2000 in
theorem jwt_decodes : decodeJwt verifyingRuntime jwt = some jwtDecoded := by
  have header : base64urlDecode verifyingRuntime.toPlatform jwtHeaderPart
      = some jwtHeader.toUTF8.data.toList := by
    have chars : jwtHeaderPart.toList = _ := String.toList_ofList
    rw [base64urlDecode, chars]
    decide +kernel
  have payload : base64urlDecode verifyingRuntime.toPlatform jwtPayloadPart
      = some jwtPayload.toUTF8.data.toList := by
    have chars : jwtPayloadPart.toList = _ := String.toList_ofList
    rw [base64urlDecode, chars]
    decide +kernel
  have signature : base64urlDecode verifyingRuntime.toPlatform jwtSignaturePart
      = some jwtSignature := by
    have chars : jwtSignaturePart.toList = _ := String.toList_ofList
    rw [base64urlDecode, chars]
    decide +kernel
  have headerText : verifyingRuntime.decodeText jwtHeader.toUTF8.data.toList = jwtHeader := by
    decide +kernel
  have payloadText : verifyingRuntime.decodeText jwtPayload.toUTF8.data.toList = jwtPayload := by
    decide +kernel
  have headerJson : verifyingRuntime.parseJson jwtHeader = some jwtDecoded.header := by
    simp [verifyingRuntime, runtime, parsed, List.lookup_cons, jwtHeader, probeHeader, jwtDecoded]
  have payloadJson : verifyingRuntime.parseJson jwtPayload = some jwtDecoded.payload := by
    simp [verifyingRuntime, runtime, parsed, List.lookup_cons, jwtHeader, probeHeader, jwtPayload,
      jwtDecoded]
  have signed : jwtSigned = jwtHeaderPart ++ "." ++ jwtPayloadPart := by decide +kernel
  rw [jwtRequest_presents.decodeJwt (decodePart_eq header headerText headerJson)
    (decodePart_eq payload payloadText payloadJson) signature, ← signed]
  rfl

theorem program_jwtRequest
    : (provider verifyingRuntime neonOptions).program jwtRequest
      = verifyDecoded verifyingRuntime neonOptions jwtDecoded :=
  jwtRequest_presents.program rfl jwt_decodes

end WorkersAuth.Sample

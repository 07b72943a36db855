import WorkersAuth.Neon.Deployment
import WorkersAuth.Neon.Verification

/-! What `verify` has checked of a token when it returns a user.
The checks on the token, its key and its claims are read off the functions that make them; where
the key comes from is known by custody, whichever verification has imported it.
-/

namespace WorkersAuth.Neon

open Atomic

variable {Key : Type} {runtime : Runtime Key} {options : NeonAuthOptions} {now : Millis}
  {pool : Pool (Turn Key) Turn.Ret (Isolate Key) HttpRequest (Option AuthUser)}
  {index : Nat} {request : HttpRequest} {user : AuthUser} {alg : JwsAlgorithm} {jwk : Json}

/-- The three parts of a token, and what they decode to. -/
def Parts (runtime : Runtime Key) (token : String) (decoded : DecodedJwt) : Prop :=
  ∃ h p s, token.toList.splitOn '.' = [h, p, s] ∧ h ≠ [] ∧ p ≠ [] ∧ s ≠ []
    ∧ decodePart runtime h = some decoded.header ∧ decodePart runtime p = some decoded.payload
    ∧ base64urlDecode runtime.toPlatform (.ofList s) = some decoded.signature
    ∧ decoded.signedData = (String.ofList (h ++ '.' :: p)).toUTF8.data.toList

/-- A JWK of the type and curve of an algorithm, whose own `alg` and `use` do not speak against
it: where they are there and not empty, they are this algorithm and `sig`.
-/
structure Suits (alg : JwsAlgorithm) (jwk : Json) : Prop where
  kty : isString (jwk.get "kty") alg.spec.kty = true
  crv : ∀ crv, alg.spec.crv = some crv → isString (jwk.get "crv") crv = true
  alg : truthy (jwk.get "alg") = true → isString (jwk.get "alg") alg.name = true
  use : truthy (jwk.get "use") = true → isString (jwk.get "use") "sig" = true

/-- The claims of a payload that make it this user's, at a reading of the clock. -/
structure ClaimsHold (options : NeonAuthOptions) (payload : Json) (at' : Millis) (user : AuthUser)
    : Prop where
  issuer : isString (payload.get "iss") options.issuer = true
  audience : ∃ aud ∈ asAudienceList (payload.get "aud"), aud ∈ options.audience
  expires : ∃ exp, payload.get "exp" = some (.num exp)
    ∧ at' ≤ exp * sec + options.clockToleranceSec * sec
  notBefore : payload.get "nbf" = none ∨ ∃ nbf, payload.get "nbf" = some (.num nbf)
    ∧ nbf * sec - options.clockToleranceSec * sec ≤ at'
  subject : ∃ sub, sub ≠ "" ∧ payload.get "sub" = some (.str sub)
    ∧ user.id = sub ∧ user.rateLimitId = sub

/-- A request of the run carries a token with this `kid`. -/
def Presented (runtime : Runtime Key) (options : NeonAuthOptions)
    (pool : Pool (Turn Key) Turn.Ret (Isolate Key) HttpRequest (Option AuthUser))
    (kid : Option Json)
    : Prop :=
  ∃ index request token decoded, pool.requestOf index = some request
    ∧ options.getToken request = some token ∧ decodeJwt runtime token = some decoded
    ∧ decoded.header.get "kid" = kid

/-- Some token of the run has a `kid` that is no string and reads like this text. -/
def Misread (runtime : Runtime Key) (options : NeonAuthOptions)
    (pool : Pool (Turn Key) Turn.Ret (Isolate Key) HttpRequest (Option AuthUser)) (text : String)
    : Prop :=
  ∃ value, Presented runtime options pool (some value) ∧ value.string? = none
    ∧ runtime.stringOf value = text

/-- The JWK is of an installed document, where it was picked for a `kid` that goes by the same
name as the token's, together with the same algorithm; it has the token's own `kid`, if that is
a string and not empty, unless another token's was misread for it.
-/
structure KeyFor (runtime : Runtime Key) (options : NeonAuthOptions)
    (pool : Pool (Turn Key) Turn.Ret (Isolate Key) HttpRequest (Option AuthUser))
    (kid : Option Json) (alg : JwsAlgorithm) (jwk : Json)
    : Prop where
  picked : ∃ document ∈ pool.world.documents, jwk ∈ document.keys
    ∧ ∃ other, Presented runtime options pool other ∧ kidText runtime other = kidText runtime kid
      ∧ pick other alg document.keys = some (some jwk)
  suits : Suits alg jwk
  kid : ∀ text, text ≠ "" → kid = some (.str text) →
    isString (jwk.get "kid") text = true ∨ Misread runtime options pool text

-----------------------------------------------------------------------------------------
-- What each function has checked
-----------------------------------------------------------------------------------------

theorem string?_eq_some {value : Json} {text : String}
    : value.string? = some text ↔ value = .str text := by
  cases value <;> simp [Json.string?]

theorem number?_eq_some {value : Json} {number : ℚ}
    : value.number? = some number ↔ value = .num number := by
  cases value <;> simp [Json.number?]

/-- A property that is this string. -/
theorem isString_iff {value : Option Json} {text : String}
    : isString value text = true ↔ value = some (.str text) := by
  simp [isString, Option.bind_eq_some_iff, string?_eq_some]

/-- A token that decodes has three parts. -/
theorem decodeJwt_parts {token : String} {decoded : DecodedJwt}
    (decodes : decodeJwt runtime token = some decoded)
    : Parts runtime token decoded := by
  unfold decodeJwt at decodes
  split at decodes
  · next h p s split =>
      split at decodes
      · contradiction
      · next parts =>
          split at decodes
          · next header payload signature decodedH decodedP decodedS =>
              split at decodes
              · cases decodes
                rw [not_or, not_or] at parts
                exact ⟨h, p, s, split, parts.1, parts.2.1, parts.2.2, decodedH, decodedP, decodedS, rfl⟩
              · contradiction
          · contradiction
  · contradiction

/-- The algorithm of a token is an allowed one, and the one its header names. -/
theorem allowedAlgorithm_some {header : Json} (found : allowedAlgorithm options header = some alg)
    : alg ∈ options.algorithms ∧ isString (header.get "alg") alg.name = true := by
  unfold allowedAlgorithm at found
  have named := List.find?_some found
  exact ⟨List.mem_of_find?_eq_some found, named⟩

/-- A JWK that is imported suits the algorithm. -/
theorem importJwk_suits {key : Key} (imports : importJwk runtime jwk alg = some key)
    : Suits alg jwk := by
  unfold importJwk at imports
  split at imports
  · contradiction
  · next sanitized clean =>
      unfold sanitizeJwk at clean
      split at clean
      · contradiction
      · next kty =>
          split at clean
          · contradiction
          · next named =>
              split at clean
              · contradiction
              · next used =>
                  split at clean
                  · contradiction
                  · next curve =>
                      constructor
                      · simpa using kty
                      · intro crv is
                        simpa [is] using curve
                      · intro there
                        simpa [there] using named
                      · intro there
                        simpa [there] using used

/-- A time claim that is not early is absent, or a number that has come. -/
theorem notBefore_of_early {payload : Json} {at' skew : Millis}
    (reached : acceptPayload.early payload at' skew = false)
    : payload.get "nbf" = none
      ∨ ∃ nbf, payload.get "nbf" = some (.num nbf) ∧ nbf * sec - skew ≤ at' := by
  unfold acceptPayload.early at reached
  split at reached
  · next absent => exact .inl absent
  · next nbf there => exact .inr ⟨nbf, there, not_lt.mp (of_decide_eq_false reached)⟩
  · contradiction

/-- A payload that is accepted has its claims. -/
theorem acceptPayload_claims {payload : Json} {at' : Millis}
    (accepts : acceptPayload options payload at' = some user)
    : ClaimsHold options payload at' user := by
  unfold acceptPayload at accepts
  simp only at accepts
  split at accepts
  · contradiction
  · next issuer =>
      split at accepts
      · contradiction
      · next audience =>
          split at accepts
          · contradiction
          · next exp expiry =>
              split at accepts
              · contradiction
              · next alive =>
                  split at accepts
                  · contradiction
                  · next reached =>
                      split at accepts
                      · next _ fields sub subject =>
                          split at accepts
                          · contradiction
                          · next named =>
                              cases accepts
                              obtain ⟨_, there, is⟩ := Option.bind_eq_some_iff.mp expiry
                              obtain rfl := number?_eq_some.mp is
                              obtain ⟨_, present, names⟩ := Option.bind_eq_some_iff.mp subject
                              obtain rfl := string?_eq_some.mp names
                              have expected : ∃ aud ∈ asAudienceList (Json.get (.obj fields) "aud"),
                                  aud ∈ options.audience := by
                                simpa using (not_or.mp audience).2
                              exact {
                                issuer := by simpa using issuer
                                audience := expected
                                expires := ⟨exp, there, not_lt.mp alive⟩
                                notBefore := notBefore_of_early (by simpa using reached)
                                subject := ⟨sub, named, present, rfl, rfl⟩ }
                      · contradiction

/-- A key that is picked for a string has that `kid`. -/
theorem kid_of_pick {text : String} {keys : List Json} (some_ : text ≠ "")
    (picked : pick (some (.str text)) alg keys = some (some jwk))
    : isString (jwk.get "kid") text = true := by
  have wanted : truthy (some (.str text)) = true := by simpa [truthy] using some_
  simp only [pick, wanted, if_true] at picked
  have equal := (findKey_some picked).2
  obtain ⟨value, there, equals⟩ := (Option.any_eq_true ..).mp equal
  rw [there]
  cases value with
  | str found => simpa [strictEquals, isString, Json.string?] using equals
  | null => cases equals
  | bool value => cases equals
  | num value => cases equals
  | arr items => cases equals
  | obj fields => cases equals

-----------------------------------------------------------------------------------------
-- Every run
-----------------------------------------------------------------------------------------

/-- A key that was imported, by whichever verification of the run, is one for the `kid` that goes
by its name.
-/
theorem Imported.keyFor {kid : Option Json} {key : Key}
    (imported : Imported runtime (Presented runtime options pool) (fun _ => True) pool.world
      (importedName runtime kid alg) key)
    : ∃ jwk, KeyFor runtime options pool kid alg jwk ∧ importJwk runtime jwk alg = some key := by
  obtain ⟨other, another, document, jwk, presented, named, installed, _, picked, imports⟩ := imported
  obtain ⟨texts, rfl⟩ := importedName_injective named
  refine ⟨jwk, ?_, imports⟩
  constructor
  · exact ⟨document, installed, mem_of_pick picked, other, presented, texts.symm, picked⟩
  · exact importJwk_suits imports
  · rintro text nonempty rfl
    have reads : kidText runtime other = text := texts.symm
    cases other with
    | none => exact absurd reads.symm nonempty
    | some value =>
        cases value with
        | null => exact absurd reads.symm nonempty
        | str same =>
            obtain rfl : same = text := reads
            exact .inl (kid_of_pick nonempty picked)
        | bool flag => exact .inr ⟨_, presented, rfl, reads⟩
        | num number => exact .inr ⟨_, presented, rfl, reads⟩
        | arr items => exact .inr ⟨_, presented, rfl, reads⟩
        | obj fields => exact .inr ⟨_, presented, rfl, reads⟩

/-- In every run of verifications, a user is returned only for a token in three parts with a valid
signature under an allowed algorithm, by a key of an installed document for that algorithm and
the token's `kid`, and with claims that hold at a reading of the clock.
-/
theorem verify_sound (reach : (provider runtime options).Reachable (.fresh now) pool)
    (answered : pool.Answered index request (some user))
    : ∃ token decoded alg key jwk at',
        Signed runtime options request token decoded alg key ∧ Parts runtime token decoded
        ∧ alg ∈ options.algorithms ∧ isString (decoded.header.get "alg") alg.name = true
        ∧ KeyFor runtime options pool (decoded.header.get "kid") alg jwk
        ∧ importJwk runtime jwk alg = some key
        ∧ Used (importedName runtime (decoded.header.get "kid") alg) key (pool.history index)
        ∧ (⟨.clock, at'⟩ : Call (Turn Key) Turn.Ret) ∈ pool.history index
        ∧ ClaimsHold options decoded.payload at' user := by
  have recency (since : Millis) : Recency options (fun _ _ => True : Isolate Key → _ → Prop) since
      (fun _ => True) := ⟨by simp, by simp, by simp, by simp⟩
  have maintains : Maintains runtime options (fun _ _ => True) (fun _ => True) :=
    fun _ _ _ _ _ _ _ => trivial
  -- Every token of the run is one that the run presents.
  have honouring : (provider runtime options).Honouring
      (custodyContract runtime (Presented runtime options pool) (fun _ _ => True) (fun _ => True))
      (fun other history answer world => ∀ request, pool.requestOf other = some request →
        ∃ since, Accepts runtime options (Presented runtime options pool) (fun _ _ => True)
          (fun _ => True) since (fun _ => True) request history answer world) pool := by
    refine reach.whenever.honouring .start (Service.honouring_start ⟨custody_fresh now, trivial⟩) ?_
    intro other asking world arrived _ _
    refine (verify_secures (recency world.now) maintains (fun token decoded taken decodes =>
      ⟨other, asking, token, decoded, arrived, taken, decodes, rfl⟩) le_rfl).mono ?_
    rintro history answer later accepts request same
    cases arrived.symm.trans same
    exact ⟨_, accepts⟩
  have serves : pool.requestOf index = some request := by
    rw [Pool.requestOf, answered, Option.map_some]
  obtain ⟨since, accepts⟩ := honouring.answered answered request serves
  obtain ⟨token, decoded, alg, key, at', signed, finds, read, accepted⟩ := accepts user rfl
  obtain ⟨used, known⟩ := finds key rfl
  have imported : Imported runtime (Presented runtime options pool) (fun _ => True) pool.world
      (importedName runtime (decoded.header.get "kid") alg) key := by
    rcases known with imported | ⟨before, precedes, custody, _, _, _, remembered⟩
    · exact imported
    · exact (custody.imported _ key remembered).mono precedes.documents (fun _ always => always)
  obtain ⟨jwk, keyFor, imports⟩ := imported.keyFor
  obtain ⟨allowed, named⟩ := allowedAlgorithm_some signed.allowed
  exact ⟨token, decoded, alg, key, jwk, at', signed, decodeJwt_parts signed.decodes,
    allowed, named, keyFor, imports, used, read,
    acceptPayload_claims accepted⟩

end WorkersAuth.Neon

namespace WorkersAuth.Sample

open Atomic Neon

/-- A token header whose `kid` is the number zero. -/
def zeroHeader : String :=
  "\x7b\"alg\":\"EdDSA\",\"kid\":0\x7d"

/-- A token header whose `kid` is the text of that number. -/
def zeroTextHeader : String :=
  "\x7b\"alg\":\"EdDSA\",\"kid\":\"0\"\x7d"

/-- The issuer's key, with an empty `alg` and an empty `use`. -/
def looseJwk : Json :=
  .obj [("kty", .str "OKP"), ("crv", .str "Ed25519"), ("kid", .str "k1"), ("alg", .str ""),
    ("use", .str ""), ("x", .str "A6EHv_POEL4dcN0Y50vAmWfk1jCbpQ1fHdyGZBJVMbg")]

def looseJwksText : String :=
  "\x7b\"keys\":[\x7b\"kty\":\"OKP\",\"crv\":\"Ed25519\",\"kid\":\"k1\",\"alg\":\"\",\"use\":\"\",\"x\":\"A6EHv_POEL4dcN0Y50vAmWfk1jCbpQ1fHdyGZBJVMbg\"\x7d]\x7d"

def zeroSignature : Bytes :=
  bytesOf 64 0x5e75cffa4ae4916f18aac283c62605dfaa9c0f997453b65eea84cf4e6134f9f3192f9d87ce84303c2201aa5ee858043863dbb5037f51d275db0b03cf6c96f206

def zeroSigned : String :=
  "eyJhbGciOiJFZERTQSIsImtpZCI6IjAifQ.eyJpc3MiOiJodHRwczovL2lzc3Vlci5leGFtcGxlIiwiYXVkIjoiYXBwIiwiZXhwIjo0MTAyNDQ0ODAwLCJzdWIiOiJ1c2VyXzQyIn0"

/-- The sample's runtime on the texts of these tokens. -/
def zeroRuntime : Runtime String :=
  { verifyingRuntime with
    atob := fun text => List.lookup text (
      ("eyJhbGciOiJFZERTQSIsImtpZCI6MH0=", zeroHeader.toUTF8.data.toList)
      :: ("eyJhbGciOiJFZERTQSIsImtpZCI6IjAifQ==", zeroTextHeader.toUTF8.data.toList)
      :: ("XnXP+krkkW8YqsKDxiYF36qcD5l0U7Ze6oTPTmE0+fMZL52HzoQwPCIBql7oWAQ4Y9u1A39R0nXbCwPPbJbyBg==",
        zeroSignature)
      :: decoded)
    parseJson := fun text => List.lookup text (
      (zeroHeader, .obj [("alg", .str "EdDSA"), ("kid", .num 0)])
      :: (zeroTextHeader, .obj [("alg", .str "EdDSA"), ("kid", .str "0")])
      :: (looseJwksText, .obj [("keys", .arr [looseJwk])]) :: parsed)
    decodeText := fun bytes =>
      if bytes = zeroHeader.toUTF8.data.toList then zeroHeader
      else if bytes = zeroTextHeader.toUTF8.data.toList then zeroTextHeader
      else verifyingRuntime.decodeText bytes
    stringOf := fun value => if strictEquals value (.num 0) then "0" else ""
    verifySignature := fun _ key signature signed =>
      key = "A6EHv_POEL4dcN0Y50vAmWfk1jCbpQ1fHdyGZBJVMbg" && signature = zeroSignature
        && signed = zeroSigned.toUTF8.data.toList }

/-- A request with a token whose `kid` is a number, which no key has signed. -/
def zeroProbe : HttpRequest :=
  { jwtRequest with
    header := fun name =>
      if name = "authorization" then some "Bearer eyJhbGciOiJFZERTQSIsImtpZCI6MH0.e30.AA" else none }

/-- A request with a token of the issuer whose `kid` is the text of that number. -/
def zeroRequest : HttpRequest :=
  { jwtRequest with
    header := fun name =>
      if name = "authorization" then
        some ("Bearer " ++ zeroSigned
          ++ ".XnXP-krkkW8YqsKDxiYF36qcD5l0U7Ze6oTPTmE0-fMZL52HzoQwPCIBql7oWAQ4Y9u1A39R0nXbCwPPbJbyBg")
      else none }

/-- The token of that request, its parts and what they decode to. -/
def zeroToken : String :=
  zeroSigned ++ ".XnXP-krkkW8YqsKDxiYF36qcD5l0U7Ze6oTPTmE0-fMZL52HzoQwPCIBql7oWAQ4Y9u1A39R0nXbCwPPbJbyBg"

def zeroHeaderPart : String := "eyJhbGciOiJFZERTQSIsImtpZCI6IjAifQ"

def zeroSignaturePart : String :=
  "XnXP-krkkW8YqsKDxiYF36qcD5l0U7Ze6oTPTmE0-fMZL52HzoQwPCIBql7oWAQ4Y9u1A39R0nXbCwPPbJbyBg"

def zeroDecoded : DecodedJwt where
  header := .obj [("alg", .str "EdDSA"), ("kid", .str "0")]
  payload := jwtDecoded.payload
  signature := zeroSignature
  signedData := zeroSigned.toUTF8.data.toList

/-- The number is presented first, the key set fetched and its key remembered; then the text. -/
def zeroVisits : List (Move HttpRequest TurnInput) :=
  [.arrive zeroProbe, .perform 0 (before 0 0),
    .perform 0 (before 0 0 (some { jwksResponse with text := some looseJwksText })),
    .perform 0 (before 0 0), .perform 0 (before 0 0), .arrive zeroRequest, .perform 1 (before 0 0),
    .perform 1 (before 0 0)]

/-- A user is returned for the second request, whose `kid` is that text, and all the keys of the
run are the loose one's like.
-/
def zeroAccepted : Bool :=
  ((provider zeroRuntime neonOptions).play (runner zeroRuntime neonOptions) (fun _ _ => true)
    (.start (.fresh 0)) zeroVisits).any (fun pool =>
      (match pool.answerOf 1 with
        | some (_, some _) => true
        | _ => false)
      && pool.world.documents.all (fun document => document.keys.all (fun jwk =>
        isString (jwk.get "alg") "" && isString (jwk.get "use") "" && isString (jwk.get "kid") "k1"))
      && (neonOptions.getToken zeroRequest).any (fun token =>
        (decodeJwt zeroRuntime token).any (fun decoded => isString (decoded.header.get "kid") "0")))

-- As for the issuer's other token, each text is unified with its characters.
set_option maxRecDepth 2000 in
theorem zeroRequest_presents
    : PresentsParts zeroRequest zeroToken zeroHeaderPart jwtPayloadPart zeroSignaturePart where
  presented := congrArg some String.append_assoc
  written := by decide +kernel
  shaped := by
    have header : zeroHeaderPart.toList = _ := String.toList_ofList
    have payload : jwtPayloadPart.toList = _ := String.toList_ofList
    have signature : zeroSignaturePart.toList = _ := String.toList_ofList
    simp only [List.map_cons, List.map_nil, header, payload, signature]
    decide +kernel

set_option maxRecDepth 2000 in
theorem zero_decodes : decodeJwt zeroRuntime zeroToken = some zeroDecoded := by
  have header : base64urlDecode zeroRuntime.toPlatform zeroHeaderPart
      = some zeroTextHeader.toUTF8.data.toList := by
    have chars : zeroHeaderPart.toList = _ := String.toList_ofList
    rw [base64urlDecode, chars]
    decide +kernel
  have payload : base64urlDecode zeroRuntime.toPlatform jwtPayloadPart
      = some jwtPayload.toUTF8.data.toList := by
    have chars : jwtPayloadPart.toList = _ := String.toList_ofList
    rw [base64urlDecode, chars]
    decide +kernel
  have signature : base64urlDecode zeroRuntime.toPlatform zeroSignaturePart
      = some zeroSignature := by
    have chars : zeroSignaturePart.toList = _ := String.toList_ofList
    rw [base64urlDecode, chars]
    decide +kernel
  have headerText : zeroRuntime.decodeText zeroTextHeader.toUTF8.data.toList = zeroTextHeader := by
    decide +kernel
  have payloadText : zeroRuntime.decodeText jwtPayload.toUTF8.data.toList = jwtPayload := by
    decide +kernel
  have headerJson : zeroRuntime.parseJson zeroTextHeader = some zeroDecoded.header := by
    simp [zeroRuntime, List.lookup_cons, zeroHeader, zeroTextHeader, zeroDecoded]
  have payloadJson : zeroRuntime.parseJson jwtPayload = some zeroDecoded.payload := by
    simp [zeroRuntime, parsed, List.lookup_cons, jwtHeader, probeHeader, jwtPayload, jwtDecoded,
      zeroHeader, zeroTextHeader, looseJwksText, zeroDecoded]
  have signed : zeroSigned = zeroHeaderPart ++ "." ++ jwtPayloadPart := by decide +kernel
  rw [zeroRequest_presents.decodeJwt (decodePart_eq header headerText headerJson)
    (decodePart_eq payload payloadText payloadJson) signature, ← signed]
  rfl

theorem program_zeroRequest
    : (provider zeroRuntime neonOptions).program zeroRequest
      = verifyDecoded zeroRuntime neonOptions zeroDecoded :=
  zeroRequest_presents.program rfl zero_decodes

/-- The schedule computes, with the second token decoded. -/
theorem zeroAccepted_computed : zeroAccepted = true := by
  have named : (neonOptions.getToken zeroRequest).any (fun token =>
      (decodeJwt zeroRuntime token).any (fun decoded => isString (decoded.header.get "kid") "0")) = true := by
    rw [zeroRequest_presents.getToken rfl, Option.any_some, zero_decodes]
    decide +kernel
  rw [zeroAccepted, named,
    show zeroVisits = zeroVisits.take 5 ++ .arrive zeroRequest :: zeroVisits.drop 6 from rfl,
    Service.play_arrival program_zeroRequest]
  decide +kernel

end WorkersAuth.Sample

namespace WorkersAuth.Neon

open Atomic

/-- The run of the sample: the second request is accepted, with a text for its `kid`, and every key
of the run has an empty `alg`, an empty `use` and the `kid` k1.
-/
theorem zeroVisits_run
    : ∃ (pool : Pool (Turn String) Turn.Ret (Isolate String) HttpRequest (Option AuthUser)) (user : AuthUser),
        (provider Sample.zeroRuntime Sample.neonOptions).Reachable (.fresh 0) pool
        ∧ pool.Answered 1 Sample.zeroRequest (some user)
        ∧ (∀ document ∈ pool.world.documents, ∀ jwk ∈ document.keys,
          isString (jwk.get "alg") "" = true ∧ isString (jwk.get "use") "" = true
            ∧ isString (jwk.get "kid") "k1" = true)
        ∧ ∀ token decoded, Sample.neonOptions.getToken Sample.zeroRequest = some token →
          decodeJwt Sample.zeroRuntime token = some decoded →
          isString (decoded.header.get "kid") "0" = true := by
  have computed := Sample.zeroAccepted_computed
  unfold Sample.zeroAccepted at computed
  obtain ⟨pool, played, computed⟩ := (Option.any_eq_true ..).mp computed
  simp only [Bool.and_eq_true, List.all_eq_true, Option.any_eq_true] at computed
  obtain ⟨⟨accepted, keys⟩, token, taken, decoded, decodes, named⟩ := computed
  have requests := Service.requests_play runner_sound played
  split at accepted
  · next request user answer =>
      have answered := Pool.answerOf_eq_some.mp answer
      have second := congrArg (fun requests => requests[1]?) requests
      rw [List.getElem?_map, answered] at second
      obtain rfl : request = Sample.zeroRequest := Option.some.inj second
      refine ⟨pool, user, Service.reachable_of_play runner_sound played, answered, ?_, ?_⟩
      · intro document installed jwk member
        obtain ⟨⟨alg, use⟩, kid⟩ := keys document installed jwk member
        exact ⟨alg, use, kid⟩
      · intro one header same decodesTo
        obtain rfl : token = one := Option.some.inj (taken.symm.trans same)
        obtain rfl : decoded = header := Option.some.inj (decodes.symm.trans decodesTo)
        exact named
  · cases accepted

/-- A user is returned for the text, with a key remembered for the number. -/
theorem verify_sound_played
    : ∃ (pool : Pool (Turn String) Turn.Ret (Isolate String) HttpRequest (Option AuthUser))
        (user : AuthUser) (token : String) (decoded : DecodedJwt) (alg : JwsAlgorithm) (key : String)
        (jwk : Json) (at' : Millis),
        Signed Sample.zeroRuntime Sample.neonOptions Sample.zeroRequest token decoded alg key
        ∧ KeyFor Sample.zeroRuntime Sample.neonOptions pool (decoded.header.get "kid") alg jwk
        ∧ ClaimsHold Sample.neonOptions decoded.payload at' user := by
  obtain ⟨pool, user, reach, answered, _⟩ := zeroVisits_run
  obtain ⟨token, decoded, alg, key, jwk, at', signed, _, _, _, keyFor, _, _, _, claims⟩ :=
    verify_sound reach answered
  exact ⟨pool, user, token, decoded, alg, key, jwk, at', signed, keyFor, claims⟩

/-- A user is returned where no JWK that was installed has an absent or equal `alg`, or an absent
or proper `use`, or the token's `kid`.
-/
theorem verify_key_unclaimed
    : ¬ ∀ pool index request user,
        (provider Sample.zeroRuntime Sample.neonOptions).Reachable (.fresh 0) pool →
        pool.Answered index request (some user) →
        ∃ token decoded alg key jwk,
          Signed Sample.zeroRuntime Sample.neonOptions request token decoded alg key
          ∧ (∃ document ∈ pool.world.documents, jwk ∈ document.keys)
          ∧ (jwk.get "alg" = none ∨ isString (jwk.get "alg") alg.name = true
            ∨ jwk.get "use" = none ∨ isString (jwk.get "use") "sig" = true
            ∨ ∀ text, text ≠ "" → decoded.header.get "kid" = some (.str text) →
              isString (jwk.get "kid") text = true) := by
  intro claimed
  obtain ⟨pool, user, reach, answered, keys, named⟩ := zeroVisits_run
  obtain ⟨token, decoded, alg, key, jwk, signed, ⟨document, installed, member⟩, holds⟩ :=
    claimed pool 1 _ user reach answered
  obtain ⟨emptyAlg, emptyUse, k1⟩ := keys document installed jwk member
  rw [isString_iff] at emptyAlg emptyUse k1
  have zero := isString_iff.mp (named token decoded signed.taken signed.decodes)
  rcases holds with absent | equal | absent | proper | kid
  · simp [emptyAlg] at absent
  · rw [isString_iff, emptyAlg] at equal
    cases alg <;> simp [JwsAlgorithm.name] at equal
  · simp [emptyUse] at absent
  · simp [isString_iff, emptyUse] at proper
  · have same := kid "0" (by simp) zero
    simp [isString_iff, k1] at same

end WorkersAuth.Neon

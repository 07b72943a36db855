import WorkersAuth.BearerTokens
import WorkersAuth.Neon.Isolate

/-! Requests whose token is known.
A token of three parts of base64url in a bearer header is taken from it and split into its parts, and
once it is decoded, the verification of the request does not depend on its text any more.
-/

namespace WorkersAuth.Neon

variable {Key : Type} {runtime : Runtime Key} {options : NeonAuthOptions} {req : HttpRequest}
  {token header payload signature : String}

-----------------------------------------------------------------------------------------
-- The header
-----------------------------------------------------------------------------------------

theorem not_isJsSpace_of_tokenChar {char : Char} (allowed : isTokenChar char = true)
    : isJsSpace char = false := by
  simp only [isTokenChar, Bool.or_eq_true, decide_eq_true_eq, List.mem_cons, List.not_mem_nil,
    or_false] at allowed
  rcases allowed with own | rfl | rfl | rfl | rfl | rfl
  · exact not_isJsSpace_of_base64url own
  all_goals decide

/-- The token of a header `Bearer …` is taken whole. -/
theorem defaultGetToken_eq (presented : req.header "authorization" = some ("Bearer " ++ token))
    (some_char : token.toList ≠ []) (allowed : token.toList.all isTokenChar = true)
    : defaultGetToken req = some token := by
  have solid : ∀ char ∈ token.toList, isJsSpace char = false :=
    fun char member => not_isJsSpace_of_tokenChar (List.all_eq_true.mp allowed char member)
  obtain ⟨trimmed, rest⟩ := bearer_parts (String.toList_append ..) some_char solid
  simp only [defaultGetToken, presented, Option.bind_some, trimmed, rest]
  rw [if_pos ⟨rfl, by simp, some_char, allowed⟩, String.ofList_toList]

-----------------------------------------------------------------------------------------
-- The token
-----------------------------------------------------------------------------------------

/-- What `verify` does once the token is decoded. -/
def verifyDecoded (runtime : Runtime Key) (options : NeonAuthOptions) (decoded : DecodedJwt)
    : Verification Key (Option AuthUser) := do
  match allowedAlgorithm options decoded.header with
  | none => return none
  | some alg =>
      match ← resolveKey runtime options (decoded.header.get "kid") alg with
      | none => return none
      | some key =>
          if runtime.verifySignature alg.spec.verifyAlgorithm key decoded.signature
              decoded.signedData then
            let at' ← turn .clock
            return acceptPayload options decoded.payload at'
          else return none

theorem verify_eq {decoded : DecodedJwt} (taken : options.getToken req = some token)
    (short : ¬(token = "" ∨ maxTokenBytes < jsLength token))
    (decodes : decodeJwt runtime token = some decoded)
    : verify runtime options req = verifyDecoded runtime options decoded := by
  simp only [verify, taken, if_neg short, decodes]
  rfl

/-- A part of a token, by way of its bytes and their text. -/
theorem decodePart_eq {part text : String} {bytes : Bytes} {json : Json}
    (decodes : base64urlDecode runtime.toPlatform part = some bytes)
    (reads : runtime.decodeText bytes = text) (parses : runtime.parseJson text = some json)
    : decodePart runtime part.toList = some json := by
  rw [decodePart, String.ofList_toList, decodes, Option.map_some, Option.bind_some, reads, parses]

/-- The request presents a token of three parts of base64url, none of them empty or very long. -/
structure PresentsParts (req : HttpRequest) (token header payload signature : String) : Prop where
  presented : req.header "authorization" = some ("Bearer " ++ token)
  written : token = header ++ "." ++ payload ++ "." ++ signature
  shaped : ([header, payload, signature].map String.toList).all
    (fun part => part ≠ [] && part.length ≤ 1000 && part.all isBase64urlChar) = true

namespace PresentsParts

theorem part (presents : PresentsParts req token header payload signature) {part : String}
    (member : part ∈ [header, payload, signature])
    : part.toList ≠ [] ∧ part.toList.length ≤ 1000 ∧ part.toList.all isBase64urlChar = true := by
  have shaped := List.all_eq_true.mp presents.shaped part.toList (List.mem_map_of_mem member)
  simpa [and_assoc] using shaped

theorem toList (presents : PresentsParts req token header payload signature)
    : token.toList = header.toList ++ '.' :: (payload.toList ++ '.' :: signature.toList) := by
  simp [presents.written, String.toList_append]

theorem getToken (presents : PresentsParts req token header payload signature)
    (standard : options.getToken = defaultGetToken)
    : options.getToken req = some token := by
  have tokenChars {part : String} (member : part ∈ [header, payload, signature])
      : part.toList.all isTokenChar = true :=
    List.all_eq_true.mpr (fun char inside =>
      Bool.or_eq_true_iff.mpr (.inl (List.all_eq_true.mp (presents.part member).2.2 char inside)))
  have dot : isTokenChar '.' = true := by decide
  rw [standard]
  refine defaultGetToken_eq presents.presented ?_ ?_
  · simp [presents.toList]
  · simp only [presents.toList, List.all_append, List.all_cons, Bool.and_eq_true]
    exact ⟨tokenChars (by simp), dot, tokenChars (by simp), dot, tokenChars (by simp)⟩

theorem short (presents : PresentsParts req token header payload signature)
    : ¬(token = "" ∨ maxTokenBytes < jsLength token) := by
  have first : header.toList.length ≤ 1000 := (presents.part (by simp)).2.1
  have second : payload.toList.length ≤ 1000 := (presents.part (by simp)).2.1
  have third : signature.toList.length ≤ 1000 := (presents.part (by simp)).2.1
  have units := jsLength_le token
  simp only [presents.toList, List.length_append, List.length_cons] at units
  rintro (empty | long)
  · have chars := presents.toList
    simp [empty] at chars
  · simp only [maxTokenBytes] at long
    omega

/-- No part has a dot, so that the token is split into its three parts. -/
theorem splitOn (presents : PresentsParts req token header payload signature)
    : token.toList.splitOn '.' = [header.toList, payload.toList, signature.toList] := by
  have dotless {part : String} (member : part ∈ [header, payload, signature])
      : '.' ∉ part.toList := by
    intro inside
    have own := List.all_eq_true.mp (presents.part member).2.2 _ inside
    revert own
    decide
  rw [presents.toList, List.splitOn_append_cons_self_of_not_mem (dotless (by simp)),
    List.splitOn_append_cons_self_of_not_mem (dotless (by simp)),
    List.splitOn_eq_singleton (dotless (by simp))]

theorem decodeJwt (presents : PresentsParts req token header payload signature)
    {headerFields payloadFields : JsonObject} {bytes : Bytes}
    (headerDecodes : decodePart runtime header.toList = some (.obj headerFields))
    (payloadDecodes : decodePart runtime payload.toList = some (.obj payloadFields))
    (signatureDecodes : base64urlDecode runtime.toPlatform signature = some bytes)
    : decodeJwt runtime token
      = some ⟨.obj headerFields, .obj payloadFields, bytes,
        (header ++ "." ++ payload).toUTF8.data.toList⟩ := by
  have filled {part : String} (member : part ∈ [header, payload, signature]) : part.toList ≠ [] :=
    (presents.part member).1
  have signed : String.ofList (header.toList ++ '.' :: payload.toList) = header ++ "." ++ payload := by
    rw [← String.toList_inj]
    simp [String.toList_append]
  rw [Neon.decodeJwt, presents.splitOn]
  simp only [String.ofList_toList, headerDecodes, payloadDecodes, signatureDecodes, signed]
  rw [if_neg (by simp [filled])]
  rfl

theorem program {decoded : DecodedJwt} (presents : PresentsParts req token header payload signature)
    (standard : options.getToken = defaultGetToken)
    (decodes : Neon.decodeJwt runtime token = some decoded)
    : (provider runtime options).program req = verifyDecoded runtime options decoded :=
  verify_eq (presents.getToken standard) presents.short decodes

end PresentsParts

end WorkersAuth.Neon

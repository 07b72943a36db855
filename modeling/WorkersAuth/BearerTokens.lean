import WorkersAuth.Encodings.Base64
import WorkersAuth.Sessions

/-! Session ids and the header that presents one.
`randomToken()` is 32 bytes in base64url, so a session id has only characters that the bearer
reader lets through, and a header with the id it was handed reads back as that id.
-/

namespace WorkersAuth

open Encodings

/-- `btoa` writes base64 in the standard alphabet, with padding. -/
def StandardBtoa (platform : Platform) : Prop :=
  ∀ bytes, platform.btoa bytes = String.ofList (base64 bytes)

/-- `atob` reads what `btoa` has written. -/
def StandardAtob (platform : Platform) : Prop :=
  ∀ bytes, platform.atob (String.ofList (base64 bytes)) = some bytes

/-- A value that `randomToken()` can return. -/
def IsToken (platform : Platform) (token : String) : Prop :=
  ∃ bytes : Bytes, bytes.length = 32 ∧ token = base64urlEncode platform bytes

variable {platform : Platform}

/-- What base64url writes for a digit of base64. -/
def base64urlDigit (digit : Char) : Char :=
  if digit = '+' then '-' else if digit = '/' then '_' else digit

theorem base64urlDigit_char {digit : Char} (member : digit ∈ base64Alphabet)
    : isBase64urlChar (base64urlDigit digit) = true := by
  have all : base64Alphabet.all (fun digit => isBase64urlChar (base64urlDigit digit)) := by
    rw [base64Alphabet_eq]
    decide +kernel
  exact List.all_eq_true.mp all digit member

/-- base64url is the digits alone, in its own alphabet. -/
theorem base64urlEncode_eq (standard : StandardBtoa platform) (bytes : Bytes)
    : base64urlEncode platform bytes = String.ofList ((base64Digits bytes).map base64urlDigit) := by
  have all : base64Alphabet.all (fun digit => base64urlDigit digit ≠ '=') := by
    rw [base64Alphabet_eq]
    decide +kernel
  have digits : ∀ digit ∈ base64Alphabet, base64urlDigit digit ≠ '=' := by
    simpa using List.all_eq_true.mp all
  rw [← rdropWhile_base64 bytes base64urlDigit rfl digits, base64urlEncode, standard,
    String.toList_ofList]
  rfl

/-- The digits are restored, and as many are missing as `base64` pads, so base64url reads back. -/
theorem base64urlDecode_encode (writes : StandardBtoa platform) (reads : StandardAtob platform)
    (bytes : Bytes)
    : base64urlDecode platform (base64urlEncode platform bytes) = some bytes := by
  have all : base64Alphabet.all (fun digit =>
      (if base64urlDigit digit = '-' then '+' else
        if base64urlDigit digit = '_' then '/' else base64urlDigit digit) = digit) := by
    rw [base64Alphabet_eq]
    decide +kernel
  have restored : ∀ digit ∈ base64Alphabet,
      (if base64urlDigit digit = '-' then '+' else
        if base64urlDigit digit = '_' then '/' else base64urlDigit digit) = digit := by
    simpa only [decide_eq_true_eq] using List.all_eq_true.mp all
  have digits : ((base64Digits bytes).map base64urlDigit).map
      (fun char => if char = '-' then '+' else if char = '_' then '/' else char)
      = base64Digits bytes := by
    rw [List.map_map]
    refine (List.map_congr_left (fun digit member => ?_)).trans (List.map_id _)
    exact restored digit (mem_base64Digits member)
  have padding : (4 - (base64Digits bytes).length % 4) % 4 = (3 - bytes.length % 3) % 3 := by
    have groups : (4 * bytes.length + 2) / 3
        = 4 * (bytes.length / 3) + (4 * (bytes.length % 3) + 2) / 3 := by omega
    have few : bytes.length % 3 = 0 ∨ bytes.length % 3 = 1 ∨ bytes.length % 3 = 2 := by omega
    rw [length_base64Digits, groups]
    rcases few with few | few | few <;> rw [few] <;> omega
  rw [base64urlEncode_eq writes, base64urlDecode, String.toList_ofList]
  simp only [digits, padding]
  exact reads bytes

/-- A token is 43 characters of the alphabet. -/
theorem IsToken.chars {token : String} (isToken : IsToken platform token)
    (standard : StandardBtoa platform)
    : token.toList.all isBase64urlChar = true ∧ token.toList.length = 43 := by
  obtain ⟨bytes, length, rfl⟩ := isToken
  rw [base64urlEncode_eq standard, String.toList_ofList]
  constructor
  · rw [List.all_eq_true]
    intro char member
    obtain ⟨digit, inside, rfl⟩ := List.mem_map.mp member
    exact base64urlDigit_char (mem_base64Digits inside)
  · rw [List.length_map, length_base64Digits, length]

-----------------------------------------------------------------------------------------
-- The bearer header
-----------------------------------------------------------------------------------------

/-- A character of the alphabet is no white space. -/
theorem not_isJsSpace_of_base64url {char : Char} (allowed : isBase64urlChar char = true)
    : isJsSpace char = false := by
  have printable : 0x2d ≤ char.toNat ∧ char.toNat ≤ 0x7a := by
    simp only [isBase64urlChar, isDigitChar, Bool.or_eq_true, Bool.and_eq_true, decide_eq_true_eq,
      Char.le_def, UInt32.le_iff_toNat_le] at allowed
    simp only [Char.toNat]
    rcases allowed with (((upper | lower) | digit) | rfl) | rfl
    · exact ⟨le_trans (by decide) upper.1, le_trans upper.2 (by decide)⟩
    · exact ⟨le_trans (by decide) lower.1, le_trans lower.2 (by decide)⟩
    · exact ⟨le_trans (by decide) digit.1, le_trans digit.2 (by decide)⟩
    · decide
    · decide
  simp only [isJsSpace, Bool.or_eq_false_iff, Bool.and_eq_false_iff, decide_eq_false_iff_not,
    List.mem_cons, List.not_mem_nil, or_false]
  omega

/-- The trimmed value is the value when its first and last characters are no white space. -/
theorem jsTrim_eq_self {first last : Char} {middle : List Char} (front : isJsSpace first = false)
    (back : isJsSpace last = false)
    : jsTrim (first :: (middle ++ [last])) = first :: (middle ++ [last]) := by
  have kept : (first :: (middle ++ [last])).dropWhile isJsSpace = first :: (middle ++ [last]) := by
    rw [List.dropWhile_cons, front]
    rfl
  rw [jsTrim, kept]
  simp [back]

/-- A header `Bearer …` is trimmed already, and its token is what follows the blank. -/
theorem bearer_parts {header : String} {token : List Char}
    (written : header.toList = "Bearer ".toList ++ token) (some_char : token ≠ [])
    (solid : ∀ char ∈ token, isJsSpace char = false)
    : jsTrim header.toList = "Bearer ".toList ++ token
      ∧ (("Bearer ".toList ++ token).drop 6).dropWhile isJsSpace = token := by
  obtain ⟨front, last, rfl⟩ := (List.eq_nil_or_concat token).resolve_left some_char
  rw [List.concat_eq_append] at written solid ⊢
  have beginning : isJsSpace 'B' = false := rfl
  have whole : jsTrim ('B' :: ("earer ".toList ++ front ++ [last]))
      = 'B' :: ("earer ".toList ++ front ++ [last]) :=
    jsTrim_eq_self beginning (solid last (by simp))
  have after : ("Bearer ".toList ++ (front ++ [last])).drop 6 = ' ' :: (front ++ [last]) := rfl
  constructor
  · rw [written, ← List.append_assoc]
    exact whole
  · rw [after, List.dropWhile_cons, if_pos (by rfl)]
    exact List.dropWhile_eq_self_iff.mpr (fun inside => by simp [solid])

/-- The token of a header `Bearer …` is what follows the blank. -/
theorem bearerToken_eq {header : String} {token : List Char}
    (written : header.toList = "Bearer ".toList ++ token) (some_char : token ≠ [])
    (solid : ∀ char ∈ token, isJsSpace char = false)
    : bearerToken header = some token := by
  obtain ⟨trimmed, rest⟩ := bearer_parts written some_char solid
  have blank_free : token.any isJsSpace = false := by
    rw [List.any_eq_false]
    exact fun char member => by simp [solid char member]
  simp only [bearerToken, trimmed, rest, blank_free]
  rw [if_pos ⟨rfl, by simp, some_char, by simp⟩]

/-- Every character is at most two UTF-16 code units. -/
theorem jsLength_le (value : String) : jsLength value ≤ 2 * value.toList.length := by
  rw [jsLength]
  induction value.toList with
  | nil => rfl
  | cons char rest ih =>
      have unit : utf16Units char ≤ 2 := by
        unfold utf16Units
        split <;> omega
      simp only [List.map_cons, List.sum_cons, List.length_cons]
      omega

/-- A header with a session's token presents the session's id. -/
theorem readBearerSessionId_token {req : HttpRequest} {sid : String}
    (allowed : sid.toList.all isBase64urlChar = true) (length : sid.toList.length = 43)
    (presented : req.header "authorization" = some ("Bearer " ++ bearerSessionToken sid))
    : readBearerSessionId req = some sid := by
  have solid : ∀ char ∈ "wsb_".toList ++ sid.toList, isJsSpace char = false := by
    intro char member
    rcases List.mem_append.mp member with fixed | own
    · have none_blank : "wsb_".toList.all (fun char => !isJsSpace char) := by decide
      simpa using List.all_eq_true.mp none_blank char fixed
    · exact not_isJsSpace_of_base64url (List.all_eq_true.mp allowed char own)
  have token : bearerToken ("Bearer " ++ bearerSessionToken sid) = some ("wsb_".toList ++ sid.toList) :=
    bearerToken_eq (by simp [bearerSessionToken, bearerSessionPrefix]) (by simp) solid
  have dropped : ("wsb_".toList ++ sid.toList).drop 4 = sid.toList := rfl
  have short : jsLength (String.ofList ("wsb_".toList ++ sid.toList)) ≤ 128 := by
    refine (jsLength_le _).trans ?_
    simp [length]
  simp only [readBearerSessionId, presented, Option.bind_some, token, dropped]
  rw [if_pos ⟨short, rfl, by omega, allowed⟩, String.ofList_toList]

end WorkersAuth

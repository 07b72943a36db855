import WorkersAuth.BearerTokens

/-! The format of service API keys.
A key is `tk_<env>_<keyId>.<secret>`. The separators are in none of the parts before them, so a
key has one reading.
-/

namespace WorkersAuth.ApiKeys

structure ParsedApiKey where
  env : String
  keyId : String
  secret : String
deriving DecidableEq

/-- `[a-z0-9]`. -/
def isEnvChar (char : Char) : Bool := ('a' ≤ char && char ≤ 'z') || isDigitChar char

/-- `/^[a-z0-9]{1,16}$/`. -/
def isEnv (env : List Char) : Bool := 1 ≤ env.length && env.length ≤ 16 && env.all isEnvChar

/-- `[a-f0-9]{16,64}`. -/
def isKeyId (keyId : List Char) : Bool :=
  16 ≤ keyId.length && keyId.length ≤ 64 && keyId.all isHexChar

/-- `[A-Za-z0-9_-]{20,256}`. -/
def isSecret (secret : List Char) : Bool :=
  20 ≤ secret.length && secret.length ≤ 256 && secret.all isBase64urlChar

/-- `parseApiKey`, by `KEY_RE`. -/
def parseApiKey (value : String) : Option ParsedApiKey :=
  let env := (value.toList.drop 3).takeWhile isEnvChar
  let afterEnv := (value.toList.drop 3).dropWhile isEnvChar
  let keyId := (afterEnv.drop 1).takeWhile isHexChar
  let afterKeyId := (afterEnv.drop 1).dropWhile isHexChar
  let secret := afterKeyId.drop 1
  if value.toList.take 3 = "tk_".toList ∧ isEnv env ∧ afterEnv.head? = some '_' ∧ isKeyId keyId
      ∧ afterKeyId.head? = some '.' ∧ isSecret secret then
    some { env := .ofList env, keyId := .ofList keyId, secret := .ofList secret }
  else none

/-- The text of a key. -/
def keyText (env keyId secret : String) : String := "tk_" ++ env ++ "_" ++ keyId ++ "." ++ secret

/-- The parts have the documented shape. -/
structure ParsedApiKey.Shaped (parsed : ParsedApiKey) : Prop where
  env : isEnv parsed.env.toList
  keyId : isKeyId parsed.keyId.toList
  secret : isSecret parsed.secret.toList

theorem toList_keyText (env keyId secret : String)
    : (keyText env keyId secret).toList
      = "tk_".toList ++ (env.toList ++ '_' :: (keyId.toList ++ '.' :: secret.toList)) := by
  simp [keyText]

/-- A part of allowed characters is read up to a character that is not allowed. -/
theorem takeWhile_separated {allowed : Char → Bool} {part : List Char} {separator : Char}
    (each : part.all allowed) (ends : allowed separator = false) (rest : List Char)
    : (part ++ separator :: rest).takeWhile allowed = part
      ∧ (part ++ separator :: rest).dropWhile allowed = separator :: rest := by
  rw [List.all_eq_true] at each
  rw [List.takeWhile_append_of_pos each, List.dropWhile_append_of_pos each,
    List.takeWhile_cons_of_neg (by simp [ends]), List.dropWhile_cons_of_neg (by simp [ends]),
    List.append_nil]
  exact ⟨rfl, rfl⟩

/-- Every key of the documented shape is read as its parts. -/
theorem parseApiKey_keyText {parsed : ParsedApiKey} (shaped : parsed.Shaped)
    : parseApiKey (keyText parsed.env parsed.keyId parsed.secret) = some parsed := by
  have envs := shaped.env
  have keyIds := shaped.keyId
  simp only [isEnv, Bool.and_eq_true] at envs
  simp only [isKeyId, Bool.and_eq_true] at keyIds
  obtain ⟨env, afterEnv⟩ := takeWhile_separated envs.2 (show isEnvChar '_' = false by decide)
    (parsed.keyId.toList ++ '.' :: parsed.secret.toList)
  obtain ⟨keyId, afterKeyId⟩ := takeWhile_separated keyIds.2 (show isHexChar '.' = false by decide)
    parsed.secret.toList
  have start : (keyText parsed.env parsed.keyId parsed.secret).toList.drop 3
      = parsed.env.toList ++ '_' :: (parsed.keyId.toList ++ '.' :: parsed.secret.toList) := by
    rw [toList_keyText]
    rfl
  have scheme : (keyText parsed.env parsed.keyId parsed.secret).toList.take 3 = "tk_".toList := by
    rw [toList_keyText]
    rfl
  simp only [parseApiKey, start, scheme, env, afterEnv, List.drop_one, List.tail_cons, keyId,
    afterKeyId, List.head?_cons, shaped.env, shaped.keyId, shaped.secret, and_self, if_true,
    String.ofList_toList]

theorem eq_cons_of_head? {list : List Char} {first : Char} (starts : list.head? = some first)
    : list = first :: list.drop 1 := by
  cases list with
  | nil => cases starts
  | cons char rest =>
      cases starts
      rfl

/-- What is read has the documented shape, and its text is what was read. -/
theorem eq_keyText_of_parsed {value : String} {parsed : ParsedApiKey}
    (read : parseApiKey value = some parsed)
    : parsed.Shaped ∧ value = keyText parsed.env parsed.keyId parsed.secret := by
  unfold parseApiKey at read
  dsimp only at read
  split at read
  · next shape =>
      obtain ⟨scheme, env, underscore, keyId, dot, secret⟩ := shape
      obtain rfl := Option.some.inj read
      refine ⟨⟨by simpa using env, by simpa using keyId, by simpa using secret⟩, ?_⟩
      rw [← String.toList_inj, toList_keyText]
      simp only [String.toList_ofList]
      rw [← eq_cons_of_head? dot, List.takeWhile_append_dropWhile, ← eq_cons_of_head? underscore,
        List.takeWhile_append_dropWhile, ← scheme, List.take_append_drop]
  · cases read

/-- A string is read as some parts exactly when they have the documented shape and it is their
text.
-/
theorem parseApiKey_eq_some_iff {value : String} {parsed : ParsedApiKey}
    : parseApiKey value = some parsed
      ↔ parsed.Shaped ∧ value = keyText parsed.env parsed.keyId parsed.secret := by
  constructor
  · exact eq_keyText_of_parsed
  · rintro ⟨shaped, rfl⟩
    exact parseApiKey_keyText shaped

/-- Keys of the documented shape with one text have the same parts. -/
theorem keyText_injective {first second : ParsedApiKey} (shaped : first.Shaped)
    (shaped' : second.Shaped)
    (same : keyText first.env first.keyId first.secret = keyText second.env second.keyId second.secret)
    : first = second := by
  have read := parseApiKey_keyText shaped
  rw [same, parseApiKey_keyText shaped'] at read
  exact (Option.some.inj read).symm

end WorkersAuth.ApiKeys

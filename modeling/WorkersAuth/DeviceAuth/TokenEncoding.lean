import Mathlib.Algebra.Order.Floor.Semiring
import WorkersAuth.BearerTokens
import WorkersAuth.DeviceAuth.SecretRotation

/-! Tokens in base64url: what is encoded decodes to itself, and a secret of 32 bytes fits the pattern
of a device token.
-/

namespace WorkersAuth.DeviceAuth

open Encodings

variable {platform : Platform}

/-- `atob` decodes every text that is base64 in the standard alphabet, with padding. -/
def DecodesBase64 (platform : Platform) : Prop :=
  ∀ text bytes, decodeBase64 text = some bytes → platform.atob (.ofList text) = some bytes

theorem DecodesBase64.standardAtob (decodes : DecodesBase64 platform) : StandardAtob platform :=
  fun bytes => decodes _ _ (decodeBase64_base64 bytes)

/-- base64url has its own alphabet only, as a digit of base64 is written with a unit of it. -/
theorem isBase64urlChar_of_mem {bytes : Bytes} {char : Char} (standard : StandardBtoa platform)
    (member : char ∈ (base64urlEncode platform bytes).toList)
    : isBase64urlChar char = true := by
  rw [base64urlEncode_eq standard, String.toList_ofList] at member
  obtain ⟨digit, written, rfl⟩ := List.mem_map.mp member
  exact base64urlDigit_char (mem_base64Digits written)

/-- The text has four characters for three bytes, and no more than an incomplete group needs. -/
theorem length_base64urlEncode (standard : StandardBtoa platform) (bytes : Bytes)
    : (base64urlEncode platform bytes).length = ⌈(4 * bytes.length : ℚ) / 3⌉₊ := by
  have whole : (base64urlEncode platform bytes).length = (4 * bytes.length + 2) / 3 := by
    rw [base64urlEncode_eq standard, String.length_ofList, List.length_map, length_base64Digits]
  rw [whole]
  refine eq_of_forall_ge_iff (fun bound => ?_)
  have cleared : (4 * bytes.length : ℚ) / 3 ≤ bound ↔ 4 * bytes.length ≤ bound * 3 := by
    rw [div_le_iff₀ (by norm_num)]
    exact_mod_cast Iff.rfl
  rw [Nat.ceil_le, cleared]
  omega

/-- A device id, a dot and 43 characters of base64url are read as a device token. -/
theorem parseDeviceToken_joined {deviceId secret : String} (idLength : deviceId.toList.length = 32)
    (hex : deviceId.toList.all isHexChar) (secretLength : secret.toList.length = 43)
    (chars : secret.toList.all isBase64urlChar)
    : parseDeviceToken (deviceId ++ "." ++ secret) = some (deviceId, secret) := by
  have parts : (deviceId ++ "." ++ secret).toList = deviceId.toList ++ '.' :: secret.toList := by
    simp
  have id : (deviceId.toList ++ '.' :: secret.toList).take 32 = deviceId.toList := by
    rw [← idLength, List.take_left]
  have dot : (deviceId.toList ++ '.' :: secret.toList)[32]? = some '.' := by
    rw [← idLength, List.getElem?_append_right le_rfl, Nat.sub_self]
    rfl
  have rest : (deviceId.toList ++ '.' :: secret.toList).drop 33 = secret.toList := by
    rw [List.drop_append, List.drop_eq_nil_of_le (by omega), idLength]
    rfl
  simp only [parseDeviceToken, parts, id, dot, rest]
  rw [if_pos ⟨idLength, hex, trivial, secretLength, chars⟩, String.ofList_toList, String.ofList_toList]

/-- base64url loses nothing and is what a device token is made of: it decodes to the bytes, has its
alphabet only and no padding, four characters for three bytes, and 32 bytes of it fit the pattern of
a device token after any device id.
-/
theorem base64url_roundTrip (writes : StandardBtoa platform) (reads : DecodesBase64 platform)
    : (∀ bytes, base64urlDecode platform (base64urlEncode platform bytes) = some bytes
        ∧ (∀ char ∈ (base64urlEncode platform bytes).toList, isBase64urlChar char)
        ∧ '=' ∉ (base64urlEncode platform bytes).toList
        ∧ (base64urlEncode platform bytes).length = ⌈(4 * bytes.length : ℚ) / 3⌉₊
        ∧ (bytes.length = 32 →
          (base64urlEncode platform bytes).length = 43
          ∧ ∀ deviceId : String, deviceId.toList.length = 32 → deviceId.toList.all isHexChar →
            parseDeviceToken (deviceId ++ "." ++ base64urlEncode platform bytes)
              = some (deviceId, base64urlEncode platform bytes)))
      ∧ Function.Injective (base64urlEncode platform) := by
  have decodes := base64urlDecode_encode writes reads.standardAtob
  refine ⟨fun bytes => ⟨decodes bytes, ?alphabet, ?padding, length_base64urlEncode writes bytes, ?token⟩,
    ?injective⟩
  case alphabet => exact fun char member => isBase64urlChar_of_mem writes member
  case padding =>
    intro member
    exact absurd (isBase64urlChar_of_mem writes member) (by decide)
  case token =>
    intro length
    obtain ⟨chars, places⟩ := IsToken.chars ⟨bytes, length, rfl⟩ writes
    refine ⟨places, fun deviceId idLength hex => ?_⟩
    exact parseDeviceToken_joined idLength hex places chars
  case injective =>
    intro first second same
    have decoded := decodes first
    rw [same, decodes second] at decoded
    exact (Option.some.inj decoded).symm

/-- Bytes that need both of the replaced digits, on a platform that writes and reads base64. -/
theorem base64url_roundTrip_sample
    : base64urlDecode Sample.rotatingPlatform (base64urlEncode Sample.rotatingPlatform [251, 255, 254])
        = some [251, 255, 254]
      ∧ base64urlEncode Sample.rotatingPlatform [251, 255, 254] = "-__-" := by
  have writes : StandardBtoa Sample.rotatingPlatform := fun _ => rfl
  have reads : DecodesBase64 Sample.rotatingPlatform := by
    intro text bytes decoded
    simpa only [Sample.rotatingPlatform, String.toList_ofList] using decoded
  exact ⟨((base64url_roundTrip writes reads).1 [251, 255, 254]).1, by decide +kernel⟩

end WorkersAuth.DeviceAuth

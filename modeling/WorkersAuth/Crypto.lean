import Mathlib.Tactic.IntervalCases
import WorkersAuth.Types

/-! `crypto.ts` and what the library relies on of the platform.
Digests, keys and parsers that the runtime provides are a parameter; the encodings and
comparisons around them are the library's own and are definitions here.
-/

namespace WorkersAuth

abbrev Bytes := List UInt8

/-- What `new URL(value)` exposes of an accepted URL. -/
structure Url where
  protocol : String
  host : String
  origin : String

/-- The functions of the runtime that the library calls. A key is the bytes it stands for.
`pbkdf2` and `atob` throw on arguments they do not accept.
-/
structure Platform where
  sha256 : String → Bytes
  hmac : Bytes → String → Bytes
  hkdf : (secret info : String) → Bytes
  pbkdf2 : (password salt : Bytes) → (iterations : ℚ) → Option Bytes
  btoa : Bytes → String
  atob : String → Option Bytes
  parseUrl : String → Option Url
  toLowerCase : String → String

-----------------------------------------------------------------------------------------
-- Hexadecimal
-----------------------------------------------------------------------------------------

def hexDigit (value : Nat) : Char :=
  "0123456789abcdef".toList.getD value '0'

def toHex (bytes : Bytes) : String :=
  .ofList (bytes.flatMap (fun byte => [hexDigit (byte.toNat / 16), hexDigit (byte.toNat % 16)]))

/-- `[0-9a-f]`. -/
def isHexChar (char : Char) : Bool :=
  ('0' ≤ char && char ≤ '9') || ('a' ≤ char && char ≤ 'f')

theorem isHexChar_hexDigit (value : Nat) : isHexChar (hexDigit value) := by
  unfold hexDigit
  rcases lt_or_ge value 16 with small | large
  · interval_cases value <;> rfl
  · rw [List.getD_eq_getElem?_getD, List.getElem?_eq_none (by simpa using large)]
    rfl

/-- A hexadecimal string has only hexadecimal characters. -/
theorem isHexChar_of_mem_toHex {bytes : Bytes} {char : Char} (member : char ∈ (toHex bytes).toList)
    : isHexChar char := by
  simp only [toHex, String.toList_ofList, List.mem_flatMap, List.mem_cons, List.not_mem_nil,
    or_false] at member
  obtain ⟨byte, _, rfl | rfl⟩ := member <;> exact isHexChar_hexDigit _

/-- The sixteen digits are different. -/
theorem hexDigit_inj {first second : Nat} (small : first < 16) (other : second < 16)
    (same : hexDigit first = hexDigit second)
    : first = second := by
  have digits : ∀ one two : Fin 16, hexDigit one = hexDigit two → one = two := by decide
  exact congrArg Fin.val (digits ⟨first, small⟩ ⟨second, other⟩ same)

/-- Two bytes with the same digits are the same byte. -/
theorem byte_eq_of_hexDigits {first second : UInt8}
    (high : hexDigit (first.toNat / 16) = hexDigit (second.toNat / 16))
    (low : hexDigit (first.toNat % 16) = hexDigit (second.toNat % 16))
    : first = second := by
  have first_lt := first.toNat_lt
  have second_lt := second.toNat_lt
  have highs := hexDigit_inj (by omega) (by omega) high
  have lows := hexDigit_inj (by omega) (by omega) low
  exact UInt8.toNat_inj.mp (by omega)

/-- Hexadecimal writing loses nothing, by induction on the bytes. -/
theorem toHex_injective : Function.Injective toHex := by
  intro first second same
  rw [toHex, toHex, String.ofList_inj] at same
  induction first generalizing second with
  | nil => cases second with
    | nil => rfl
    | cons => simp at same
  | cons byte rest ih => cases second with
    | nil => simp at same
    | cons other others =>
        simp only [List.flatMap_cons, List.cons_append, List.nil_append, List.cons.injEq] at same
        obtain ⟨high, low, later⟩ := same
        rw [byte_eq_of_hexDigits high low, ih later]

-----------------------------------------------------------------------------------------
-- Base64url
-----------------------------------------------------------------------------------------

def base64urlEncode (platform : Platform) (bytes : Bytes) : String :=
  .ofList
    ((((platform.btoa bytes).toList.map
        (fun char => if char = '+' then '-' else if char = '/' then '_' else char)).reverse.dropWhile
          (· = '=')).reverse)

def base64urlDecode (platform : Platform) (value : String) : Option Bytes :=
  let normalized := value.toList.map
    (fun char => if char = '-' then '+' else if char = '_' then '/' else char)
  platform.atob (.ofList (normalized ++ List.replicate ((4 - normalized.length % 4) % 4) '='))

-----------------------------------------------------------------------------------------
-- Digests and comparisons
-----------------------------------------------------------------------------------------

def sha256Hex (platform : Platform) (input : String) : String :=
  toHex (platform.sha256 input)

/-- `diff |= a[i] ^ b[i]` over both arrays, and `diff === 0` at the end. -/
def timingSafeEqualBytes (first second : Bytes) : Bool :=
  if first.length ≠ second.length then false
  else (List.zipWith (· ^^^ ·) first second).foldl (· ||| ·) 0 = 0

def timingSafeEqual (first second : String) : Bool :=
  timingSafeEqualBytes first.toUTF8.data.toList second.toUTF8.data.toList

def verifySecretHash (platform : Platform) (raw storedHex : String) : Bool :=
  timingSafeEqual (sha256Hex platform raw) storedHex

def secretEquals (platform : Platform) (first second : String) : Bool :=
  timingSafeEqualBytes (platform.sha256 first) (platform.sha256 second)

def fingerprint (platform : Platform) (secret : String) : String :=
  .ofList ((sha256Hex platform secret).toList.take 12)

/-- An accumulated disjunction is zero exactly when every part is, by list induction. -/
theorem foldl_or_eq_zero (bytes : Bytes) (start : UInt8)
    : bytes.foldl (· ||| ·) start = 0 ↔ start = 0 ∧ ∀ byte ∈ bytes, byte = 0 := by
  induction bytes generalizing start with
  | nil => simp
  | cons head rest ih =>
      rw [List.foldl_cons, ih, List.forall_mem_cons, ← and_assoc]
      refine and_congr_left' ?_
      rw [← UInt8.toBitVec_inj, ← UInt8.toBitVec_inj, ← UInt8.toBitVec_inj, UInt8.toBitVec_or]
      exact BitVec.or_eq_zero_iff

/-- Arrays of one length are equal exactly when all their differences are zero, by
induction on both.
-/
theorem forall_xor_eq_zero {first second : Bytes} (lengths : first.length = second.length)
    : (∀ byte ∈ List.zipWith (· ^^^ ·) first second, byte = 0) ↔ first = second := by
  induction first generalizing second with
  | nil => cases second <;> simp_all
  | cons head rest ih =>
      cases second with
      | nil => simp at lengths
      | cons other others =>
          have later := ih (Nat.succ.inj lengths)
          simp only [List.zipWith_cons_cons, List.forall_mem_cons, UInt8.xor_eq_zero_iff, later,
            List.cons.injEq]

/-- The constant-time comparison of byte arrays is equality. -/
@[simp] theorem timingSafeEqualBytes_iff {first second : Bytes}
    : timingSafeEqualBytes first second = true ↔ first = second := by
  unfold timingSafeEqualBytes
  split
  · next different =>
      exact iff_of_false (by simp) (fun same => different (congrArg List.length same))
  · next lengths =>
      rw [decide_eq_true_eq, foldl_or_eq_zero, forall_xor_eq_zero (not_not.mp lengths)]
      exact and_iff_right rfl

/-- The constant-time comparison of strings is equality: UTF-8 encoding is injective. -/
@[simp] theorem timingSafeEqual_iff {first second : String}
    : timingSafeEqual first second = true ↔ first = second := by
  rw [timingSafeEqual, timingSafeEqualBytes_iff]
  constructor
  · intro bytes
    exact String.toByteArray_inj.mp (ByteArray.ext (Array.toList_inj.mp bytes))
  · rintro rfl
    rfl

/-- A presented secret verifies exactly when it hashes to the stored value. -/
@[simp] theorem verifySecretHash_iff {platform : Platform} {raw storedHex : String}
    : verifySecretHash platform raw storedHex = true ↔ sha256Hex platform raw = storedHex :=
  timingSafeEqual_iff

-----------------------------------------------------------------------------------------
-- String tests shared by the request parsers
-----------------------------------------------------------------------------------------

/-- The characters `\s` matches and `trim()` removes. -/
def isJsSpace (char : Char) : Bool :=
  char.toNat ∈ [0x9, 0xa, 0xb, 0xc, 0xd, 0x20, 0xa0, 0x1680, 0x2028, 0x2029, 0x202f, 0x205f,
    0x3000, 0xfeff]
  || (0x2000 ≤ char.toNat && char.toNat ≤ 0x200a)

/-- `\d`. -/
def isDigitChar (char : Char) : Bool :=
  '0' ≤ char && char ≤ '9'

/-- `[A-Za-z0-9_-]`. -/
def isBase64urlChar (char : Char) : Bool :=
  ('A' ≤ char && char ≤ 'Z') || ('a' ≤ char && char ≤ 'z') || isDigitChar char
  || char = '_' || char = '-'

/-- `value.trim()`, on the characters. -/
def jsTrim (value : List Char) : List Char :=
  ((value.dropWhile isJsSpace).reverse.dropWhile isJsSpace).reverse

/-- The UTF-16 code units of a character. -/
def utf16Units (char : Char) : Nat :=
  if char.toNat < 0x10000 then 1 else 2

/-- `value.length`: UTF-16 code units. -/
def jsLength (value : String) : Nat :=
  (value.toList.map utf16Units).sum

/-- The longest prefix of at most `count` UTF-16 code units. -/
def takeUnits : Nat → List Char → List Char
  | _, [] => []
  | count, char :: rest =>
      if utf16Units char ≤ count then char :: takeUnits (count - utf16Units char) rest else []

/-- `value.slice(0, count)`; a pair cut in half, which no string here can hold, is dropped. -/
def jsSlice (count : Nat) (value : String) : String :=
  .ofList (takeUnits count value.toList)

/-- `/^\d{count}$/.test(value)`. -/
def isDigits (count : Nat) (value : String) : Bool :=
  value.toList.length = count && value.toList.all isDigitChar

end WorkersAuth

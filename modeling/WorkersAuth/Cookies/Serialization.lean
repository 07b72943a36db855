import WorkersAuth.Encodings.Numbers
import WorkersAuth.Encodings.Percent

/-! Serialization of cookies.
The name, the value, the path and the domain reach one header line through three different
guards. What is serialized splits at its semicolons into the attributes that were asked for.
-/

namespace WorkersAuth.Cookies

open Encodings

-----------------------------------------------------------------------------------------
-- Guards
-----------------------------------------------------------------------------------------

/-- What a function throws. -/
inductive CookieError where
  | typeError (message : Utf16)
  | uriError

/-- `TOKEN_RE`'s class. -/
def isTokenUnit (unit : UInt16) : Bool :=
  (0x30 ≤ unit.toNat && unit.toNat ≤ 0x39) || (0x41 ≤ unit.toNat && unit.toNat ≤ 0x5A)
  || (0x61 ≤ unit.toNat && unit.toNat ≤ 0x7A) || unit ∈ ascii "!#$%&'*+-.^_\x60|~"

/-- `TOKEN_RE`. -/
def isToken (name : Utf16) : Bool := !name.isEmpty && name.all isTokenUnit

/-- The control characters of a header. -/
def isControl (unit : UInt16) : Bool := unit.toNat ≤ 0x1F || unit.toNat = 0x7F

/-- `HEADER_SAFE_RE`. -/
def isHeaderSafe (text : Utf16) : Bool :=
  text.all (fun unit => !isControl unit && unit.toNat ≠ 0x3B)

def hostPrefix : Utf16 := ascii "__Host-"

def securePrefix : Utf16 := ascii "__Secure-"

/-- The name without one of the two prefixes at its start. -/
def withoutPrefix (name : Utf16) : Utf16 :=
  if hostPrefix.isPrefixOf name then name.drop hostPrefix.length
  else if securePrefix.isPrefixOf name then name.drop securePrefix.length
  else name

/-- Four hexadecimal digits in lower case. -/
def unicodeEscape (unit : UInt16) : Utf16 :=
  let digit := fun value : Nat => UInt16.ofNat (if value < 10 then 0x30 + value else 0x57 + value)
  ascii "\\u" ++ [
    digit (unit.toNat / 0x1000), digit (unit.toNat / 0x100 % 16), digit (unit.toNat / 16 % 16),
    digit (unit.toNat % 16)
  ]

/-- The units of a string inside `JSON.stringify`, which escapes unpaired surrogates. -/
def escaped : Utf16 → Utf16
  | [] => []
  | unit :: rest =>
      if unit = 0x08 then ascii "\\b" ++ escaped rest
      else if unit = 0x09 then ascii "\\t" ++ escaped rest
      else if unit = 0x0A then ascii "\\n" ++ escaped rest
      else if unit = 0x0C then ascii "\\f" ++ escaped rest
      else if unit = 0x0D then ascii "\\r" ++ escaped rest
      else if unit = 0x22 then ascii "\\\"" ++ escaped rest
      else if unit = 0x5C then ascii "\\\\" ++ escaped rest
      else if unit < 0x20 || isTrail unit then unicodeEscape unit ++ escaped rest
      else if isLead unit then
        match rest with
        | trail :: later =>
            if isTrail trail then unit :: trail :: escaped later
            else unicodeEscape unit ++ escaped (trail :: later)
        | [] => unicodeEscape unit
      else unit :: escaped rest

/-- `JSON.stringify` of a string. -/
def jsonString (text : Utf16) : Utf16 := ascii "\"" ++ escaped text ++ ascii "\""

/-- `if (!condition) throw new TypeError(message)`. -/
def ensure (condition : Bool) (message : Utf16) : Except CookieError Unit :=
  if condition then .ok () else .error (.typeError message)

-----------------------------------------------------------------------------------------
-- `serializeCookie`
-----------------------------------------------------------------------------------------

inductive SameSite where
  | lax
  | strict
  | none
deriving DecidableEq

def SameSite.text : SameSite → String
  | .lax => "Lax"
  | .strict => "Strict"
  | .none => "None"

structure CookieAttributes where
  path : Option Utf16 := none
  domain : Option Utf16 := none
  maxAge : Option JsNumber := none
  httpOnly : Option Bool := none
  secure : Option Bool := none
  sameSite : Option SameSite := none

/-- A number of seconds from `Math.max(0, Math.floor(maxAge))`. -/
inductive MaxAge where
  | seconds (count : Nat)
  | infinite
  | nan

/-- `Math.max(0, Math.floor(maxAge))`. -/
def MaxAge.of : JsNumber → MaxAge
  | .finite value => .seconds ⌊value⌋.toNat
  | .infinity true => .seconds 0
  | .infinity false => .infinite
  | .nan => .nan

/-- `${maxAge}`. -/
def MaxAge.text : MaxAge → Utf16
  | .seconds count => numberText count
  | .infinite => ascii "Infinity"
  | .nan => ascii "NaN"

/-- `new Date(now + maxAge * 1000).toUTCString()`. -/
def MaxAge.expires (now : ℤ) : MaxAge → Utf16
  | .seconds count => toUTCString (now + count * 1000)
  | .infinite | .nan => ascii "Invalid Date"

/-- `serializeCookie` at a time in milliseconds. -/
def serializeCookie (now : ℤ) (name value : Utf16) (attrs : CookieAttributes)
    : Except CookieError Utf16 := do
  ensure (isToken (withoutPrefix name))
    (ascii "serializeCookie: invalid cookie name " ++ jsonString name)
  match encodeURIComponent value with
  | none => throw .uriError
  | some encoded =>
      let path := attrs.path.getD (ascii "/")
      ensure (isHeaderSafe path) (ascii "serializeCookie: invalid path " ++ jsonString path)
      let lifetime :=
        match attrs.maxAge with
        | none => []
        | some maxAge =>
            [
              ascii "Max-Age=" ++ (MaxAge.of maxAge).text,
              ascii "Expires=" ++ (MaxAge.of maxAge).expires now
            ]
      -- An empty domain is falsy, like an absent one.
      let domain := attrs.domain.getD []
      ensure (isHeaderSafe domain) (ascii "serializeCookie: invalid domain " ++ jsonString domain)
      let parts :=
        [name ++ ascii "=" ++ encoded, ascii "Path=" ++ path] ++ lifetime
        ++ (if domain ≠ [] then [ascii "Domain=" ++ domain] else [])
        ++ (if attrs.httpOnly ≠ some false then [ascii "HttpOnly"] else [])
        ++ (if attrs.secure ≠ some false then [ascii "Secure"] else [])
        ++ [ascii "SameSite=" ++ ascii (attrs.sameSite.getD .lax).text]
      ensure
        (!(hostPrefix.isPrefixOf name
          && (path ≠ ascii "/" || domain ≠ [] || attrs.secure = some false)))
        (ascii "__Host- cookies require Secure, Path=/ and no Domain")
      ensure (!(securePrefix.isPrefixOf name && attrs.secure = some false))
        (ascii "__Secure- cookies require Secure")
      return (ascii "; ").intercalate parts

example
    : (serializeCookie 0 (ascii "__Host-session") (ascii "a;b c") {}).toOption
      = some (ascii "__Host-session=a%3Bb%20c; Path=/; HttpOnly; Secure; SameSite=Lax") := by
  decide +kernel

/-- `serializeCookieDeletion`. -/
def serializeCookieDeletion (now : ℤ) (name : Utf16) (attrs : CookieAttributes)
    : Except CookieError Utf16 :=
  serializeCookie now name [] { attrs with maxAge := some (.finite 0) }

-----------------------------------------------------------------------------------------
-- What is serialized
-----------------------------------------------------------------------------------------

/-- An attribute of a cookie. -/
inductive Attribute where
  | path (path : Utf16)
  | maxAge (maxAge : MaxAge)
  | expires (maxAge : MaxAge)
  | domain (domain : Utf16)
  | httpOnly
  | secure
  | sameSite (sameSite : SameSite)

/-- The text of an attribute, for a cookie made at a time. -/
def Attribute.text (now : ℤ) : Attribute → Utf16
  | .path text => ascii "Path=" ++ text
  | .maxAge age => ascii "Max-Age=" ++ age.text
  | .expires age => ascii "Expires=" ++ age.expires now
  | .domain text => ascii "Domain=" ++ text
  | .httpOnly => ascii "HttpOnly"
  | .secure => ascii "Secure"
  | .sameSite rule => ascii "SameSite=" ++ ascii rule.text

namespace CookieAttributes

/-- The path that is asked for. -/
def requestedPath (attrs : CookieAttributes) : Utf16 := attrs.path.getD (ascii "/")

/-- The domain that is asked for, empty when there is none. -/
def requestedDomain (attrs : CookieAttributes) : Utf16 := attrs.domain.getD []

/-- The attributes that are asked for, each at most once. -/
def requested (attrs : CookieAttributes) : List Attribute :=
  .path attrs.requestedPath
  :: (attrs.maxAge.toList.map MaxAge.of).flatMap (fun maxAge => [.maxAge maxAge, .expires maxAge])
  ++ (if attrs.requestedDomain = [] then [] else [.domain attrs.requestedDomain])
  ++ (if attrs.httpOnly = some false then [] else [.httpOnly])
  ++ (if attrs.secure = some false then [] else [.secure])
  ++ [.sameSite (attrs.sameSite.getD .lax)]

/-- Whether an attribute is asked for. -/
def Asks (attrs : CookieAttributes) : Attribute → Prop
  | .path text => text = attrs.requestedPath
  | .maxAge age | .expires age => ∃ given, attrs.maxAge = some given ∧ age = .of given
  | .domain text => text = attrs.requestedDomain ∧ text ≠ []
  | .httpOnly => attrs.httpOnly ≠ some false
  | .secure => attrs.secure ≠ some false
  | .sameSite rule => rule = attrs.sameSite.getD .lax

/-- The list holds the attributes that are asked for, by cases on the attribute. -/
theorem mem_requested {attrs : CookieAttributes} {asked : Attribute}
    : asked ∈ attrs.requested ↔ attrs.Asks asked := by
  have chosen : ∀ (condition : Prop) [Decidable condition] (other : Attribute),
      asked ∈ (if condition then [] else [other]) ↔ ¬ condition ∧ asked = other := by
    intro condition _ other
    by_cases holds : condition
    · simp [holds]
    · simp [holds]
  simp only [requested, List.mem_append, List.mem_cons, chosen, List.mem_flatMap, List.mem_map,
    Option.mem_toList, List.not_mem_nil, or_false]
  cases asked with
  | path text => simp [Asks]
  | maxAge age => simp [Asks]
  | expires age => simp [Asks]
  | domain text =>
      simp only [Asks, reduceCtorEq, and_false, or_false, false_or, exists_false,
        Attribute.domain.injEq]
      constructor
      · rintro ⟨some, rfl⟩
        exact ⟨rfl, some⟩
      · rintro ⟨rfl, some⟩
        exact ⟨some, rfl⟩
  | httpOnly => simp [Asks]
  | secure => simp [Asks]
  | sameSite rule => simp [Asks]

end CookieAttributes

/-- The conditions under which a cookie is serialized. -/
structure Serializable (name value : Utf16) (attrs : CookieAttributes) : Prop where
  token : isToken (withoutPrefix name)
  wellFormed : isWellFormed value
  path : isHeaderSafe attrs.requestedPath
  domain : isHeaderSafe attrs.requestedDomain
  host : hostPrefix.isPrefixOf name
    → attrs.requestedPath = ascii "/" ∧ attrs.requestedDomain = [] ∧ attrs.secure ≠ some false
  secure : securePrefix.isPrefixOf name → attrs.secure ≠ some false

/-- A condition that is ensured holds, and the rest is returned. -/
theorem ensure_bind_eq_ok {α : Type} {condition : Bool} {message : Utf16}
    {next : Unit → Except CookieError α} {result : α}
    : (ensure condition message >>= next) = .ok result
      ↔ condition = true ∧ next () = .ok result := by
  cases condition with
  | false =>
      simp only [ensure, Bool.false_eq_true, if_false, false_and, iff_false]
      exact nofun
  | true =>
      simp only [ensure, if_true, true_and]
      rfl

/-- The text of a cookie from its first part. -/
def cookieText (now : ℤ) (first : Utf16) (attributes : List Attribute) : Utf16 :=
  (ascii "; ").intercalate (first :: attributes.map (Attribute.text now))

/-- The parts that are pushed are the texts of the attributes that are asked for. -/
theorem CookieAttributes.map_requested (attrs : CookieAttributes) (now : ℤ)
    : attrs.requested.map (Attribute.text now)
      = [ascii "Path=" ++ attrs.path.getD (ascii "/")]
        ++ (match attrs.maxAge with
          | none => []
          | some maxAge =>
              [
                ascii "Max-Age=" ++ (MaxAge.of maxAge).text,
                ascii "Expires=" ++ (MaxAge.of maxAge).expires now
              ])
        ++ (if attrs.domain.getD [] ≠ [] then [ascii "Domain=" ++ attrs.domain.getD []] else [])
        ++ (if attrs.httpOnly ≠ some false then [ascii "HttpOnly"] else [])
        ++ (if attrs.secure ≠ some false then [ascii "Secure"] else [])
        ++ [ascii "SameSite=" ++ ascii (attrs.sameSite.getD .lax).text] := by
  have chosen : ∀ (condition : Prop) [Decidable condition] (asked : Attribute),
      (if condition then [] else [asked]).map (Attribute.text now)
        = if ¬ condition then [asked.text now] else [] := by
    intro condition _ asked
    by_cases holds : condition
    · simp [holds]
    · simp [holds]
  simp only [requested, List.map_append, List.map_cons, chosen]
  cases attrs.maxAge with
  | none => rfl
  | some maxAge => rfl

/-- A cookie is serialized exactly under its conditions, to the name, the encoded value and the
attributes that are asked for.
-/
theorem serializeCookie_eq_ok_iff {now : ℤ} {name value : Utf16} {attrs : CookieAttributes}
    {text : Utf16}
    : serializeCookie now name value attrs = .ok text
      ↔ Serializable name value attrs ∧ ∃ encoded, encodeURIComponent value = some encoded
          ∧ text = cookieText now (name ++ ascii "=" ++ encoded) attrs.requested := by
  have wellFormed := encodeURIComponent_isSome value
  unfold serializeCookie
  rw [ensure_bind_eq_ok]
  cases encoding : encodeURIComponent value with
  | none =>
      rw [encoding] at wellFormed
      constructor
      · intro accepted
        cases accepted.2
      · intro ⟨_, _, impossible, _⟩
        cases impossible
  | some encoded =>
      rw [encoding] at wellFormed
      simp only [ensure_bind_eq_ok]
      have parts : ∀ first : Utf16, cookieText now first attrs.requested
          = (ascii "; ").intercalate (first :: attrs.requested.map (Attribute.text now)) :=
        fun _ => rfl
      simp only [attrs.map_requested now] at parts
      simp only [Option.some.injEq, exists_eq_left', parts]
      constructor
      · rintro ⟨token, path, domain, host, secure, written⟩
        refine ⟨⟨token, wellFormed.symm, path, domain, ?_, ?_⟩, (Except.ok.inj written).symm⟩
        · intro start
          simpa [start, CookieAttributes.requestedPath, CookieAttributes.requestedDomain,
            and_assoc] using host
        · intro start
          simpa [start] using secure
      · rintro ⟨accepted, rfl⟩
        refine ⟨accepted.token, accepted.path, accepted.domain, ?_, ?_, rfl⟩
        · have host := accepted.host
          simp only [CookieAttributes.requestedPath, CookieAttributes.requestedDomain] at host
          simpa [or_iff_not_imp_left, and_assoc] using host
        · simpa [or_iff_not_imp_left] using accepted.secure

-----------------------------------------------------------------------------------------
-- Nothing is injected
-----------------------------------------------------------------------------------------

/-- Printable text other than semicolons is safe in a header. -/
theorem isHeaderSafe_of_field {text : Utf16} (field : text.all isFieldUnit) : isHeaderSafe text := by
  simp only [isHeaderSafe, List.all_eq_true] at field ⊢
  intro unit member
  have printable := field unit member
  simp only [isFieldUnit, isControl, Bool.and_eq_true, Bool.not_eq_true', Bool.or_eq_false_iff,
    decide_eq_true_eq, decide_eq_false_iff_not] at printable ⊢
  omega

/-- Units of a token are printable, and none is a semicolon. -/
theorem isFieldUnit_of_token {unit : UInt16} (token : isTokenUnit unit) : isFieldUnit unit := by
  have marks : ∀ unit ∈ ascii "!#$%&'*+-.^_\x60|~", isFieldUnit unit :=
    List.all_eq_true.mp (by decide)
  simp only [isTokenUnit, Bool.or_eq_true, Bool.and_eq_true, decide_eq_true_eq] at token
  rcases token with ranged | mark
  · simp only [isFieldUnit, Bool.and_eq_true, decide_eq_true_eq]
    omega
  · exact marks unit mark

/-- Units of an encoding are printable, and none separates. -/
theorem isFieldUnit_of_encoded {unit : UInt16} (encoded : isEncodedUnit unit)
    : isFieldUnit unit ∧ unit ∉ ascii ";, \"" := by
  have separators : (ascii ";, \"").all (fun unit => !isEncodedUnit unit) := by decide
  constructor
  · simp only [isEncodedUnit, isUnreserved, Bool.or_eq_true, Bool.and_eq_true, decide_eq_true_eq,
      List.mem_cons, List.not_mem_nil, or_false] at encoded
    simp only [isFieldUnit, Bool.and_eq_true, decide_eq_true_eq]
    rcases encoded with plain | rfl
    · omega
    · decide
  · intro separator
    have other := List.all_eq_true.mp separators unit separator
    rw [encoded] at other
    cases other

/-- White space is not part of a token. -/
theorem isWhitespace_of_token {unit : UInt16} (token : isTokenUnit unit)
    : isWhitespace unit = false := by
  have marks : (ascii "!#$%&'*+-.^_\x60|~").all (fun unit => !isWhitespace unit) := by decide
  simp only [isTokenUnit, Bool.or_eq_true, Bool.and_eq_true, decide_eq_true_eq] at token
  rcases token with ranged | mark
  · simp only [isWhitespace, Bool.or_eq_false_iff, Bool.and_eq_false_iff, decide_eq_false_iff_not,
      List.mem_cons, List.not_mem_nil, or_false]
    omega
  · simpa using List.all_eq_true.mp marks unit mark

/-- White space is not part of an encoding. -/
theorem isWhitespace_of_encoded {unit : UInt16} (encoded : isEncodedUnit unit)
    : isWhitespace unit = false := by
  simp only [isEncodedUnit, isUnreserved, Bool.or_eq_true, Bool.and_eq_true, decide_eq_true_eq,
    List.mem_cons, List.not_mem_nil, or_false] at encoded
  rcases encoded with plain | rfl
  · simp only [isWhitespace, Bool.or_eq_false_iff, Bool.and_eq_false_iff, decide_eq_false_iff_not,
      List.mem_cons, List.not_mem_nil, or_false]
    omega
  · decide

theorem isToken.units {name : Utf16} (token : isToken name) : name.all isTokenUnit := by
  simp only [isToken, Bool.and_eq_true] at token
  exact token.2

/-- Every unit of a name is one of a token, the units of its prefix too. -/
theorem isTokenUnit_of_name {name : Utf16} (token : isToken (withoutPrefix name))
    : name.all isTokenUnit := by
  have prefixed : ∀ start : Utf16, start.all isTokenUnit → start.isPrefixOf name
      → isToken (name.drop start.length) → name.all isTokenUnit := by
    intro start units first written
    obtain ⟨rest, rfl⟩ := List.isPrefixOf_iff_prefix.mp first
    rw [List.drop_left] at written
    rw [List.all_append, units, isToken.units written]
    rfl
  unfold withoutPrefix at token
  split at token
  · next first => exact prefixed hostPrefix (by decide) first token
  split at token
  · next first => exact prefixed securePrefix (by decide) first token
  · exact isToken.units token

/-- Parts of printable text. -/
theorem isHeaderSafe_append {first second : Utf16}
    : isHeaderSafe (first ++ second) = (isHeaderSafe first && isHeaderSafe second) :=
  List.all_append

/-- The part with the name and the encoded value is safe. -/
theorem Serializable.pair_safe {name value encoded : Utf16} {attrs : CookieAttributes}
    (accepted : Serializable name value attrs) (encoding : encodeURIComponent value = some encoded)
    : isHeaderSafe (name ++ ascii "=" ++ encoded) := by
  have units := isEncodedUnit_of_encoded encoding
  have named : name.all isFieldUnit := by
    have tokens := List.all_eq_true.mp (isTokenUnit_of_name accepted.token)
    exact List.all_eq_true.mpr (fun unit member => isFieldUnit_of_token (tokens unit member))
  have valued : encoded.all isFieldUnit :=
    List.all_eq_true.mpr (fun unit member => (isFieldUnit_of_encoded (units unit member)).1)
  rw [isHeaderSafe_append, isHeaderSafe_append, isHeaderSafe_of_field named,
    isHeaderSafe_of_field valued]
  decide

/-- Every attribute that is asked for has a safe text, by cases on it. -/
theorem Serializable.attribute_safe {name value : Utf16} {attrs : CookieAttributes}
    (accepted : Serializable name value attrs) (now : ℤ)
    : ∀ asked ∈ attrs.requested, isHeaderSafe (asked.text now) := by
  have named : ∀ {key text : Utf16}, key.all isFieldUnit → isHeaderSafe text
      → isHeaderSafe (key ++ text) := by
    intro key text printable safe
    rw [isHeaderSafe_append, isHeaderSafe_of_field printable, safe]
    rfl
  intro asked member
  rw [CookieAttributes.mem_requested] at member
  cases asked with
  | path text =>
      obtain rfl : text = attrs.requestedPath := member
      exact named (by decide) accepted.path
  | maxAge age =>
      refine named (by decide) (isHeaderSafe_of_field ?_)
      cases age with
      | seconds count => exact isFieldUnit_numberText count
      | infinite => decide
      | nan => decide
  | expires age =>
      refine named (by decide) (isHeaderSafe_of_field ?_)
      have never : (ascii "Invalid Date").all isFieldUnit := by decide
      cases age with
      | seconds count => exact isFieldUnit_toUTCString _
      | infinite => exact never
      | nan => exact never
  | domain text =>
      obtain rfl : text = attrs.requestedDomain := member.1
      exact named (by decide) accepted.domain
  | httpOnly =>
      change isHeaderSafe (ascii "HttpOnly")
      decide
  | secure =>
      change isHeaderSafe (ascii "Secure")
      decide
  | sameSite rule =>
      refine named (by decide) ?_
      cases rule with
      | lax => decide
      | strict => decide
      | none => decide

/-- Texts that are joined by a semicolon and a space are joined by a semicolon once all but the
first begin with a space, by induction on them.
-/
theorem intercalate_spaced (first : Utf16) (others : List Utf16)
    : (ascii "; ").intercalate (first :: others)
      = [0x3B].intercalate (first :: others.map (0x20 :: ·)) := by
  induction others generalizing first with
  | nil => simp
  | cons second rest ih =>
      rw [List.intercalate_cons_cons, ih second, List.map_cons, List.intercalate_cons_cons]
      cases rest with
      | nil => simp [ascii]
      | cons third later => simp [ascii, List.intercalate_cons_cons]

/-- A cookie's text splits at its semicolons into its parts, as none of them has one. -/
theorem splitOn_cookieText {now : ℤ} {first : Utf16} {attributes : List Attribute}
    (safe : isHeaderSafe first) (others : ∀ asked ∈ attributes, isHeaderSafe (asked.text now))
    : (cookieText now first attributes).splitOn 0x3B
      = first :: attributes.map (fun asked => 0x20 :: asked.text now) := by
  have whole : ∀ {text : Utf16}, isHeaderSafe text → (0x3B : UInt16) ∉ text := by
    intro text safe member
    have impossible := List.all_eq_true.mp safe _ member
    exact absurd impossible (by decide)
  rw [cookieText, intercalate_spaced, List.splitOn_intercalate]
  · rw [List.map_map]
    rfl
  · intro part member
    rw [List.map_map, List.mem_cons, List.mem_map] at member
    rcases member with rfl | ⟨asked, listed, rfl⟩
    · exact whole safe
    · simp only [Function.comp_apply, List.mem_cons, not_or]
      exact ⟨by decide, whole (others asked listed)⟩
  · exact List.cons_ne_nil _ _

/-- A cookie's text has no control character, as none of its parts has one. -/
theorem isControl_cookieText {now : ℤ} {first : Utf16} {attributes : List Attribute}
    (safe : isHeaderSafe first) (others : ∀ asked ∈ attributes, isHeaderSafe (asked.text now))
    : ∀ unit ∈ cookieText now first attributes, isControl unit = false := by
  have whole : ∀ {text : Utf16}, isHeaderSafe text → ∀ unit ∈ text, isControl unit = false := by
    intro text safe unit member
    have allowed := List.all_eq_true.mp safe _ member
    simp only [Bool.and_eq_true, Bool.not_eq_true'] at allowed
    exact allowed.1
  have separator : ∀ unit ∈ ascii "; ", isControl unit = false := by simp [ascii, isControl]
  intro unit member
  rcases mem_intercalate member with between | ⟨part, listed, inPart⟩
  · exact separator unit between
  · rw [List.mem_cons, List.mem_map] at listed
    rcases listed with rfl | ⟨asked, listed, rfl⟩
    · exact whole safe unit inPart
    · exact whole (others asked listed) unit inPart

/-- Without a domain, no attribute that is asked for is written as one. -/
theorem CookieAttributes.not_domain {attrs : CookieAttributes} (domain : attrs.requestedDomain = [])
    (now : ℤ)
    : ∀ asked ∈ attrs.requested, ¬ (ascii " Domain").isPrefixOf (0x20 :: asked.text now) := by
  intro asked member start
  rw [mem_requested] at member
  cases asked with
  | domain text => exact member.2 (member.1.trans domain)
  | path text => cases start
  | maxAge age => cases start
  | expires age => cases start
  | httpOnly => cases start
  | secure => cases start
  | sameSite rule => cases start

/-- What `serializeCookie` promises of the cookie it returns. -/
structure Intact (now : ℤ) (name value : Utf16) (attrs : CookieAttributes) (text : Utf16) : Prop where
  /-- It has no control characters. -/
  plain : ∀ unit ∈ text, isControl unit = false
  /-- It splits into the name with the encoded value, and the attributes that are asked for. -/
  parts
    : ∃ encoded,
        text.splitOn 0x3B
          = (name ++ ascii "=" ++ encoded)
            :: attrs.requested.map (fun asked => 0x20 :: asked.text now)
        ∧ (∀ unit ∈ encoded, unit ∉ ascii ";, \"")
        ∧ decodeURIComponent encoded = some value
  /-- A `__Host-` cookie has `Secure`, the path `/` and no domain. -/
  host
    : hostPrefix.isPrefixOf name
      → ascii " Secure" ∈ text.splitOn 0x3B
        ∧ ascii " Path=/" ∈ text.splitOn 0x3B
        ∧ ∀ part ∈ text.splitOn 0x3B, ¬ (ascii " Domain").isPrefixOf part
  /-- A `__Secure-` cookie has `Secure`. -/
  secure : securePrefix.isPrefixOf name → ascii " Secure" ∈ text.splitOn 0x3B

/-- For every name, value and attributes, a cookie is refused or is returned intact. Its parts are
the texts of the attributes that are asked for, each of them safe in a header.
-/
theorem serializeCookie_intact (now : ℤ) (name value : Utf16) (attrs : CookieAttributes)
    : (∃ error, serializeCookie now name value attrs = .error error)
      ∨ ∃ text, serializeCookie now name value attrs = .ok text
        ∧ Intact now name value attrs text := by
  cases result : serializeCookie now name value attrs with
  | error error => exact .inl ⟨error, rfl⟩
  | ok text =>
      obtain ⟨accepted, encoded, encoding, rfl⟩ := serializeCookie_eq_ok_iff.mp result
      have units := isEncodedUnit_of_encoded encoding
      have safe := accepted.pair_safe encoding
      have split := splitOn_cookieText safe (accepted.attribute_safe now)
      have listed : ∀ {asked : Attribute}, attrs.Asks asked
          → 0x20 :: asked.text now
            ∈ (cookieText now (name ++ ascii "=" ++ encoded) attrs.requested).splitOn 0x3B := by
        intro asked asks
        rw [split]
        exact List.mem_cons_of_mem _
          (List.mem_map.mpr ⟨asked, CookieAttributes.mem_requested.mpr asks, rfl⟩)
      refine .inr ⟨_, rfl, ?_⟩
      constructor
      case plain => exact isControl_cookieText safe (accepted.attribute_safe now)
      case parts =>
        exact ⟨encoded, split, fun unit member => (isFieldUnit_of_encoded (units unit member)).2,
          decodeURIComponent_encodeURIComponent encoding⟩
      case host =>
        intro start
        obtain ⟨path, domain, secure⟩ := accepted.host start
        refine ⟨@listed .secure secure, ?_, ?_⟩
        · have asks : attrs.Asks (.path (ascii "/")) := path.symm
          exact listed asks
        · intro part member
          rw [split, List.mem_cons, List.mem_map] at member
          rcases member with rfl | ⟨asked, asks, rfl⟩
          · obtain ⟨rest, rfl⟩ := List.isPrefixOf_iff_prefix.mp start
            exact nofun
          · exact CookieAttributes.not_domain domain now asked asks
      case secure =>
        intro start
        exact @listed .secure (accepted.secure start)

end WorkersAuth.Cookies

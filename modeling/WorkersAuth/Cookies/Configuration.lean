import WorkersAuth.Cookies.Serialization

/-! Which cookie configurations can be served.
A configuration is checked when the SDK is constructed, a cookie when it is serialized, and a
browser drops a cookie that breaks the rule of its name's prefix. The first check does not look
at a prefix that is part of the configured name.
-/

namespace WorkersAuth.Cookies

open Encodings

-----------------------------------------------------------------------------------------
-- `resolveCookieConfig`
-----------------------------------------------------------------------------------------

inductive NamePrefix where
  | host
  | secure
  | empty
deriving DecidableEq

def NamePrefix.text : NamePrefix → Utf16
  | .host => hostPrefix
  | .secure => securePrefix
  | .empty => []

structure CookieConfig where
  namePrefix : Option NamePrefix := none
  name : Option Utf16 := none
  csrfName : Option Utf16 := none
  sameSite : Option SameSite := none
  dangerouslyAllowInsecureCookies : Option Bool := none

/-- The path is always `/`. -/
structure ResolvedCookieConfig where
  sessionCookieName : Utf16
  csrfCookieName : Utf16
  secure : Bool
  sameSite : SameSite
deriving DecidableEq

def resolveCookieConfig (config : CookieConfig) : Except CookieError ResolvedCookieConfig := do
  let insecure := config.dangerouslyAllowInsecureCookies = some true
  let namePrefix := config.namePrefix.getD (if insecure then .empty else .host)
  let name := config.name.getD (ascii "session")
  let csrfName := config.csrfName.getD (ascii "csrf")
  let sameSite := config.sameSite.getD .lax
  let secure : Bool := !insecure
  ensure (isToken name && isToken csrfName)
    (ascii "cookie: name and csrfName must be valid cookie tokens")
  ensure (name ≠ csrfName) (ascii "cookie: name and csrfName must differ")
  ensure (!(!secure && namePrefix ≠ .empty))
    (ascii ("cookie: the __Host-/__Secure- prefix requires Secure; "
      ++ "drop the prefix if you really want insecure cookies"))
  ensure (!(namePrefix = .empty && secure))
    (ascii ("cookie: dropping the cookie prefix requires dangerouslyAllowInsecureCookies "
      ++ "(it disables subdomain-injection protection)"))
  ensure (!(sameSite = .none && !secure)) (ascii "cookie: SameSite=None requires Secure")
  return {
    sessionCookieName := namePrefix.text ++ name
    csrfCookieName := namePrefix.text ++ csrfName
    secure
    sameSite
  }

-----------------------------------------------------------------------------------------
-- Login and logout
-----------------------------------------------------------------------------------------

/-- The `Set-Cookie` headers of an answer, and what was thrown while they were written. -/
structure Written where
  headers : List Utf16 := []
  thrown : Option CookieError := none

/-- `c.header('set-cookie', …, { append: true })`, unless something was thrown before. -/
def Written.append (written : Written) (cookie : Except CookieError Utf16) : Written :=
  match written.thrown, cookie with
  | some _, _ => written
  | none, .ok text => { written with headers := written.headers ++ [text] }
  | none, .error error => { written with thrown := some error }

def ResolvedCookieConfig.base (config : ResolvedCookieConfig) : CookieAttributes :=
  { secure := some config.secure, sameSite := some config.sameSite, path := some (ascii "/") }

def setSessionCookies (now : ℤ) (config : ResolvedCookieConfig) (sid csrfToken : Utf16)
    (maxAgeSec : JsNumber)
    : Written :=
  let session := serializeCookie now config.sessionCookieName sid
    { config.base with httpOnly := some true, maxAge := some maxAgeSec }
  let csrf := serializeCookie now config.csrfCookieName csrfToken
    { config.base with httpOnly := some false, maxAge := some maxAgeSec }
  (({} : Written).append session).append csrf

def clearSessionCookies (now : ℤ) (config : ResolvedCookieConfig) : Written :=
  let session := serializeCookieDeletion now config.sessionCookieName
    { config.base with httpOnly := some true }
  let csrf := serializeCookieDeletion now config.csrfCookieName
    { config.base with httpOnly := some false }
  (({} : Written).append session).append csrf

-----------------------------------------------------------------------------------------
-- The browser's rule
-----------------------------------------------------------------------------------------

def lowerUnit (unit : UInt16) : UInt16 :=
  if 0x41 ≤ unit.toNat ∧ unit.toNat ≤ 0x5A then unit + 0x20 else unit

/-- Whether a name begins with a prefix, for a browser that may ignore the case of letters. -/
def begins (ignoresCase : Bool) (start name : Utf16) : Bool :=
  if ignoresCase then (start.map lowerUnit).isPrefixOf (name.map lowerUnit)
  else start.isPrefixOf name

/-- The text before the first equals sign, in lower case. -/
def attributeKey (part : Utf16) : Utf16 := (trim (part.takeWhile (· ≠ 0x3D))).map lowerUnit

/-- The text after the first equals sign. -/
def attributeValue (part : Utf16) : Utf16 := trim ((part.dropWhile (· ≠ 0x3D)).drop 1)

/-- Whether a browser drops a cookie for its name: a `__Secure-` cookie must have `Secure`, and a
`__Host-` cookie also the path `/` and no domain.
-/
def breaksPrefixRule (ignoresCase : Bool) (text : Utf16) : Bool :=
  match text.splitOn 0x3B with
  | [] => false
  | pair :: attributes =>
      let name := trim (pair.takeWhile (· ≠ 0x3D))
      let keys := attributes.map attributeKey
      let secure : Bool := ascii "secure" ∈ keys
      let root := attributes.any
        (fun part => attributeKey part = ascii "path" && attributeValue part = ascii "/")
      let domain : Bool := ascii "domain" ∈ keys
      (begins ignoresCase hostPrefix name && !(secure && root && !domain))
      || (begins ignoresCase securePrefix name && !secure)

/-- Nothing was thrown, and no browser drops what was written. -/
def Written.Kept (ignoresCase : Bool) (written : Written) : Prop :=
  written.thrown.isNone ∧ ∀ text ∈ written.headers, breaksPrefixRule ignoresCase text = false

-----------------------------------------------------------------------------------------
-- One cookie
-----------------------------------------------------------------------------------------

/-- Whether a name begins with one of the two prefixes. -/
def prefixed (ignoresCase : Bool) (name : Utf16) : Bool :=
  begins ignoresCase hostPrefix name || begins ignoresCase securePrefix name

/-- A prefix is one for a browser that ignores case too. -/
theorem begins_of_isPrefixOf {start name : Utf16} (first : start.isPrefixOf name)
    (ignoresCase : Bool) : begins ignoresCase start name := by
  cases ignoresCase with
  | false => exact first
  | true =>
      obtain ⟨rest, rfl⟩ := List.isPrefixOf_iff_prefix.mp first
      simp only [begins, if_true, List.map_append]
      exact List.isPrefixOf_iff_prefix.mpr ⟨_, rfl⟩

/-- The name of an attribute, in lower case. -/
def Attribute.key : Attribute → Utf16
  | .path _ => ascii "path"
  | .maxAge _ => ascii "max-age"
  | .expires _ => ascii "expires"
  | .domain _ => ascii "domain"
  | .httpOnly => ascii "httponly"
  | .secure => ascii "secure"
  | .sameSite _ => ascii "samesite"

/-- A browser reads the name of an attribute, by cases on it. -/
theorem attributeKey_text (asked : Attribute) (now : ℤ)
    : attributeKey (0x20 :: asked.text now) = asked.key := by
  cases asked with
  | path text => rfl
  | maxAge age => rfl
  | expires age => rfl
  | domain text => rfl
  | httpOnly => rfl
  | secure => rfl
  | sameSite rule => rfl

/-- A browser reads a name before the first equals sign, since no unit of a name is one. -/
theorem trim_takeWhile_name {name : Utf16} (token : isToken (withoutPrefix name)) (rest : Utf16)
    : trim ((name ++ ascii "=" ++ rest).takeWhile (· ≠ 0x3D)) = name := by
  have units := List.all_eq_true.mp (isTokenUnit_of_name token)
  have before : ∀ unit ∈ name, decide (unit ≠ 0x3D) = true := by
    intro unit member
    have written := units unit member
    rw [decide_eq_true_eq]
    rintro rfl
    exact absurd written (by decide)
  have solid : ∀ unit ∈ name, isWhitespace unit = false :=
    fun unit member => isWhitespace_of_token (units unit member)
  rw [List.append_assoc, List.takeWhile_append_of_pos before]
  have whole := trim_spaces solid 0 0
  simpa [spaces, ascii] using whole

/-- What a browser makes of a cookie for the path `/` and no domain: it is dropped exactly when
its name begins with a prefix and `Secure` is missing.
-/
theorem breaksPrefixRule_cookieText {now : ℤ} {name value encoded : Utf16} {attrs : CookieAttributes}
    (ignoresCase : Bool) (accepted : Serializable name value attrs)
    (encoding : encodeURIComponent value = some encoded)
    (root : attrs.requestedPath = ascii "/") (domain : attrs.requestedDomain = [])
    : breaksPrefixRule ignoresCase (cookieText now (name ++ ascii "=" ++ encoded) attrs.requested)
      = (prefixed ignoresCase name && attrs.secure = some false) := by
  have keys : ∀ key,
      key ∈ (attrs.requested.map (fun asked => 0x20 :: asked.text now)).map attributeKey
        ↔ ∃ asked, attrs.Asks asked ∧ asked.key = key := by
    intro key
    rw [List.map_map, List.mem_map]
    simp only [Function.comp_apply, attributeKey_text, CookieAttributes.mem_requested]
  have secured : ascii "secure"
      ∈ (attrs.requested.map (fun asked => 0x20 :: asked.text now)).map attributeKey
      ↔ attrs.secure ≠ some false := by
    rw [keys]
    constructor
    · rintro ⟨asked, asks, same⟩
      cases asked with
      | secure => exact asks
      | _ => cases same
    · intro asks
      exact ⟨.secure, asks, rfl⟩
  have hostOnly : ascii "domain"
      ∉ (attrs.requested.map (fun asked => 0x20 :: asked.text now)).map attributeKey := by
    rw [keys]
    rintro ⟨asked, asks, same⟩
    cases asked with
    | domain text => exact asks.2 (asks.1.trans domain)
    | _ => cases same
  have rooted : (attrs.requested.map (fun asked => 0x20 :: asked.text now)).any
      (fun part => attributeKey part = ascii "path" && attributeValue part = ascii "/") = true := by
    have asks : attrs.Asks (.path (ascii "/")) := root.symm
    rw [List.any_eq_true]
    exact ⟨_, List.mem_map.mpr ⟨_, CookieAttributes.mem_requested.mpr asks, rfl⟩, rfl⟩
  have split := splitOn_cookieText (accepted.pair_safe encoding) (accepted.attribute_safe now)
  unfold breaksPrefixRule
  rw [split]
  simp only [trim_takeWhile_name accepted.token, rooted, hostOnly, secured, prefixed]
  by_cases exposed : attrs.secure = some false
  · simp [exposed]
  · simp [exposed]

/-- A cookie for the path `/` and no domain is written and kept exactly when its name is valid and
its value well-formed, and the name has no prefix unless `Secure` is set.
-/
theorem serializeCookie_kept_iff {now : ℤ} {name value : Utf16} {attrs : CookieAttributes}
    (ignoresCase : Bool) (root : attrs.requestedPath = ascii "/")
    (domain : attrs.requestedDomain = [])
    : (∃ text, serializeCookie now name value attrs = .ok text
        ∧ breaksPrefixRule ignoresCase text = false)
      ↔ isToken (withoutPrefix name) ∧ isWellFormed value
        ∧ (prefixed ignoresCase name → attrs.secure ≠ some false) := by
  constructor
  · rintro ⟨text, written, kept⟩
    obtain ⟨accepted, encoded, encoding, rfl⟩ := serializeCookie_eq_ok_iff.mp written
    rw [breaksPrefixRule_cookieText ignoresCase accepted encoding root domain] at kept
    refine ⟨accepted.token, accepted.wellFormed, ?_⟩
    intro first
    simpa [first] using kept
  · rintro ⟨token, wellFormed, secure⟩
    have accepted : Serializable name value attrs := by
      constructor
      case token => exact token
      case wellFormed => exact wellFormed
      case path =>
        rw [root]
        decide
      case domain =>
        rw [domain]
        decide
      case host =>
        intro first
        refine ⟨root, domain, secure ?_⟩
        rw [prefixed, begins_of_isPrefixOf first, Bool.true_or]
      case secure =>
        intro first
        refine secure ?_
        rw [prefixed, begins_of_isPrefixOf first ignoresCase, Bool.or_true]
    have encodes := encodeURIComponent_isSome value
    rw [wellFormed] at encodes
    obtain ⟨encoded, encoding⟩ := Option.isSome_iff_exists.mp encodes
    refine ⟨_, serializeCookie_eq_ok_iff.mpr ⟨accepted, encoded, encoding, rfl⟩, ?_⟩
    rw [breaksPrefixRule_cookieText ignoresCase accepted encoding root domain]
    cases first : prefixed ignoresCase name with
    | false => rfl
    | true => simpa using secure first

-----------------------------------------------------------------------------------------
-- Configurations
-----------------------------------------------------------------------------------------

namespace CookieConfig

/-- The flag is set. -/
def insecure (config : CookieConfig) : Prop := config.dangerouslyAllowInsecureCookies = some true

def sessionName (config : CookieConfig) : Utf16 := config.name.getD (ascii "session")

def tokenName (config : CookieConfig) : Utf16 := config.csrfName.getD (ascii "csrf")

/-- What an accepted configuration is resolved to: its names are tokens, and one of the prefixes
stands before them unless cookies are insecure.
-/
structure ResolvesTo (config : CookieConfig) (resolved : ResolvedCookieConfig) : Prop where
  session : isToken config.sessionName
  csrf : isToken config.tokenName
  insecure : config.insecure → resolved.secure = false
    ∧ resolved.sessionCookieName = config.sessionName
    ∧ resolved.csrfCookieName = config.tokenName
  secure : ¬ config.insecure → resolved.secure = true
    ∧ ∃ start ∈ [hostPrefix, securePrefix],
      resolved.sessionCookieName = start ++ config.sessionName
      ∧ resolved.csrfCookieName = start ++ config.tokenName

/-- What acceptance says, from each check in turn. -/
theorem resolvesTo {config : CookieConfig} {resolved : ResolvedCookieConfig}
    (accepted : resolveCookieConfig config = .ok resolved) : config.ResolvesTo resolved := by
  unfold resolveCookieConfig at accepted
  simp only [ensure_bind_eq_ok, Bool.and_eq_true, Bool.not_eq_true', Bool.and_eq_false_iff]
    at accepted
  obtain ⟨⟨session, csrf⟩, -, bare, dropped, -, result⟩ := accepted
  obtain rfl := Except.ok.inj result
  constructor
  case session => exact session
  case csrf => exact csrf
  case insecure =>
    intro set
    simp only [insecure] at set
    simp only [set, decide_true, Bool.not_true, Bool.not_false, Bool.true_eq_false, false_or,
      decide_eq_false_iff_not, not_not, if_true] at bare
    simp [set, bare, NamePrefix.text, sessionName, tokenName]
  case secure =>
    intro unset
    simp only [insecure] at unset
    simp only [unset, decide_false, Bool.not_false, Bool.true_eq_false, or_false, if_false,
      decide_eq_false_iff_not] at dropped
    refine ⟨by simp [unset], ?_⟩
    simp only [unset, if_false]
    cases chosen : config.namePrefix.getD .host with
    | host => exact ⟨hostPrefix, List.mem_cons_self, rfl, rfl⟩
    | secure => exact ⟨securePrefix, List.mem_cons_of_mem _ List.mem_cons_self, rfl, rfl⟩
    | empty => exact absurd chosen dropped

end CookieConfig

/-- A prefix and a token after it are a valid name. -/
theorem isToken_prefixed {start name : Utf16} (first : start ∈ [hostPrefix, securePrefix])
    (token : isToken name) : isToken (withoutPrefix (start ++ name)) := by
  simp only [List.mem_cons, List.not_mem_nil, or_false] at first
  rcases first with rfl | rfl
  · have begun : hostPrefix.isPrefixOf (hostPrefix ++ name) :=
      List.isPrefixOf_iff_prefix.mpr ⟨_, rfl⟩
    rw [withoutPrefix, if_pos begun, List.drop_left]
    exact token
  · have begun : securePrefix.isPrefixOf (securePrefix ++ name) :=
      List.isPrefixOf_iff_prefix.mpr ⟨_, rfl⟩
    have other : hostPrefix.isPrefixOf (securePrefix ++ name) = false := rfl
    rw [withoutPrefix, other, if_neg Bool.false_ne_true, if_pos begun, List.drop_left]
    exact token

/-- A token that begins with neither prefix is a valid name as it stands. -/
theorem isToken_bare {name : Utf16} {ignoresCase : Bool} (token : isToken name)
    (bare : ¬ prefixed ignoresCase name) : isToken (withoutPrefix name) := by
  have never : ∀ start ∈ [hostPrefix, securePrefix], ¬ start.isPrefixOf name := by
    intro start member first
    have begun := begins_of_isPrefixOf first ignoresCase
    simp only [List.mem_cons, List.not_mem_nil, or_false] at member
    rcases member with rfl | rfl
    · exact bare (by rw [prefixed, begun, Bool.true_or])
    · exact bare (by rw [prefixed, begun, Bool.or_true])
  rw [withoutPrefix, if_neg (never hostPrefix (by simp)), if_neg (never securePrefix (by simp))]
  exact token

/-- Two cookies are kept together exactly when each is. -/
theorem Written.kept_append_append {ignoresCase : Bool} {first second : Except CookieError Utf16}
    : ((({} : Written).append first).append second).Kept ignoresCase
      ↔ (∃ text, first = .ok text ∧ breaksPrefixRule ignoresCase text = false)
        ∧ ∃ text, second = .ok text ∧ breaksPrefixRule ignoresCase text = false := by
  cases first with
  | error thrown => simp [Kept, append]
  | ok text =>
      cases second with
      | error thrown => simp [Kept, append]
      | ok other => simp [Kept, append]

/-- An accepted configuration is served at every login and logout, for a browser that may ignore
the case of a prefix, exactly when the session id and the CSRF token can be encoded and, unless
cookies are `Secure`, neither configured name begins with `__Host-` or `__Secure-`.
-/
theorem resolveCookieConfig_kept_iff {config : CookieConfig} {resolved : ResolvedCookieConfig}
    (accepted : resolveCookieConfig config = .ok resolved) (ignoresCase : Bool) (now later : ℤ)
    (sid csrfToken : Utf16) (maxAgeSec : JsNumber)
    : ((setSessionCookies now resolved sid csrfToken maxAgeSec).Kept ignoresCase
        ∧ (clearSessionCookies later resolved).Kept ignoresCase)
      ↔ isWellFormed sid ∧ isWellFormed csrfToken
        ∧ (config.dangerouslyAllowInsecureCookies = some true
          → ¬ prefixed ignoresCase (config.name.getD (ascii "session"))
            ∧ ¬ prefixed ignoresCase (config.csrfName.getD (ascii "csrf"))) := by
  have resolves := CookieConfig.resolvesTo accepted
  simp only [setSessionCookies, clearSessionCookies, serializeCookieDeletion,
    Written.kept_append_append]
  rw [serializeCookie_kept_iff ignoresCase rfl rfl, serializeCookie_kept_iff ignoresCase rfl rfl,
    serializeCookie_kept_iff ignoresCase rfl rfl, serializeCookie_kept_iff ignoresCase rfl rfl]
  have empty : isWellFormed [] = true := rfl
  simp only [ResolvedCookieConfig.base, empty, true_and]
  by_cases set : config.insecure
  · obtain ⟨exposed, session, csrf⟩ := resolves.insecure set
    rw [session, csrf, exposed]
    simp only [CookieConfig.insecure] at set
    simp only [set, ne_eq, not_true_eq_false, imp_false, true_implies]
    constructor
    · rintro ⟨⟨⟨_, first, named⟩, ⟨_, second, crossed⟩⟩, _⟩
      exact ⟨first, second, named, crossed⟩
    · rintro ⟨first, second, named, crossed⟩
      have session := isToken_bare resolves.session named
      have csrf := isToken_bare resolves.csrf crossed
      exact ⟨⟨⟨session, first, named⟩, ⟨csrf, second, crossed⟩⟩, ⟨session, named⟩, csrf, crossed⟩
  · obtain ⟨secure, start, first, session, csrf⟩ := resolves.secure set
    simp only [CookieConfig.insecure] at set
    have named := isToken_prefixed first resolves.session
    have crossed := isToken_prefixed first resolves.csrf
    rw [session, csrf, secure]
    simp [set, named, crossed]

/-- A local development configuration is accepted, and no login is served with it. -/
theorem host_name_not_served
    : ∃ resolved,
        resolveCookieConfig
            { name := some (ascii "__Host-session"), dangerouslyAllowInsecureCookies := some true }
          = .ok resolved
        ∧ (setSessionCookies 0 resolved (ascii "sid") (ascii "token") (.finite 3600)).thrown.isSome :=
  ⟨⟨ascii "__Host-session", ascii "csrf", false, .lax⟩, rfl, rfl⟩

/-- The default configuration is served to a browser that ignores case. -/
theorem resolveCookieConfig_kept_default
    : (setSessionCookies 0 ⟨ascii "__Host-session", ascii "__Host-csrf", true, .lax⟩ (ascii "sid")
          (ascii "token") (.finite 3600)).Kept true
        ∧ (clearSessionCookies 0 ⟨ascii "__Host-session", ascii "__Host-csrf", true, .lax⟩).Kept
          true := by
  have accepted : resolveCookieConfig {}
      = .ok ⟨ascii "__Host-session", ascii "__Host-csrf", true, .lax⟩ := rfl
  exact (resolveCookieConfig_kept_iff accepted true 0 0 (ascii "sid") (ascii "token")
    (.finite 3600)).mpr ⟨rfl, rfl, nofun⟩

end WorkersAuth.Cookies

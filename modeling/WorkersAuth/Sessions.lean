import Mathlib.Data.Rat.Floor
import WorkersAuth.Calls
import WorkersAuth.Http

/-! Reading and minting sessions: `middleware.ts`, `session-bearer.ts`, `routes.ts` and
`deviceBoundSessionStore`. The SDK's own facts about a session live under one key of its
metadata; a session bound to a device is read only through a store that checks the device.
-/

namespace WorkersAuth

open Atomic DeviceAuth

-----------------------------------------------------------------------------------------
-- The SDK's namespace in a session's metadata
-----------------------------------------------------------------------------------------

def authMetaKey : String := "__auth"

/-- `session.meta?.[AUTH_META_KEY]`. -/
def authMeta (session : Session) : Option Json :=
  session.metadata.bind (JsonObject.get · authMetaKey)

/-- A property of the SDK's namespace, undefined when there is none. -/
def authMetaField (session : Session) (name : String) : Option Json :=
  (authMeta session).bind (Json.get · name)

/-- The trusted device a session was minted on, or null. -/
def sessionBoundDeviceId (session : Session) : Option String :=
  (authMetaField session "deviceId").bind Json.string?

def isBearerSession (session : Session) : Bool :=
  (authMetaField session "transport").bind Json.string? = some "bearer"

def emailVerifiedAt (session : Session) : Option Millis :=
  (authMetaField session "emailVerifiedAt").bind Json.number?

/-- The `rateLimitId` when it is a non-empty string. -/
def sessionRateLimitId (session : Session) : Option String :=
  ((authMetaField session "rateLimitId").bind Json.string?).filter (· ≠ "")

def hasRateLimitId (session : Session) : Bool :=
  (sessionRateLimitId session).isSome

-----------------------------------------------------------------------------------------
-- Session stores and the device check
-----------------------------------------------------------------------------------------

/-- A session store object: one that `deviceBoundSessionStore()` returned and registered, or
any other. Either way the sessions come from the calls of the store inside.
-/
inductive StoreObject where
  | plain
  | deviceBound
  deriving DecidableEq

def isRegisteredDeviceBoundStore (store : StoreObject) : Bool :=
  store = .deviceBound

/-- The condition `deviceBoundSessionStore` calls `live`. -/
def deviceServes (device : Option DeviceRecord) (session : Session) (readAt : Millis) : Bool :=
  match device with
  | none => false
  | some device =>
      device.accountId = session.userId && device.revokedAt.isNone
      && readAt < device.idleExpiresAt && readAt < device.absoluteExpiresAt

/-- `get` of a device-bound store: a session whose device is dead is revoked, not served. -/
def deviceBoundGet (sid : String) : Handler (Option Session) := do
  let some session ← sessionStore.get sid | return none
  match sessionBoundDeviceId session with
  | none => return some session
  | some deviceId =>
      let device ← store.findDevice deviceId
      let readAt ← host.clock
      if deviceServes device session readAt then
        return some session
      sessionStore.revoke sid
      return none

def StoreObject.get : StoreObject → String → Handler (Option Session)
  | .plain, sid => sessionStore.get sid
  | .deviceBound, sid => deviceBoundGet sid

def deviceCheckApplied (store : StoreObject) (session : Session) : Bool :=
  sessionBoundDeviceId session = none || isRegisteredDeviceBoundStore store

structure CookieNames where
  sessionCookieName : String
  csrfCookieName : String
  secure : Bool
  sameSite : String

structure SessionLifetime where
  idleTtlSec : ℚ
  absoluteTtlSec : ℚ

/-- The parts of `ResolvedAuthConfig` that sessions are read and minted with, and what
`createAuth` has checked of the lifetimes.
-/
structure AuthConfig where
  store : StoreObject
  cookie : CookieNames
  session : SessionLifetime
  csrf : CsrfConfig
  storeUserClaims : Bool
  idleTtl_pos : 0 < session.idleTtlSec
  idleTtl_le : session.idleTtlSec ≤ session.absoluteTtlSec

-----------------------------------------------------------------------------------------
-- Readers
-----------------------------------------------------------------------------------------

structure CookieSession where
  session : Option Session
  csrfCookie : Option String

/-- The session of the request's cookie, when it is a cookie session that may be used. -/
def readCookieSession (config : AuthConfig) (req : HttpRequest) : Handler CookieSession := do
  let csrfCookie := req.cookie config.cookie.csrfCookieName
  match (req.cookie config.cookie.sessionCookieName).filter (· ≠ "") with
  | none => return { session := none, csrfCookie }
  | some sid =>
      let found ← config.store.get sid
      let session := found.filter (fun found =>
        !isBearerSession found && deviceCheckApplied config.store found && hasRateLimitId found)
      return { session, csrfCookie }

def bearerSessionPrefix : String := "wsb_"

def bearerSessionToken (sid : String) : String := bearerSessionPrefix ++ sid

/-- `/^Bearer\s+(\S+)$/i` on the trimmed header. -/
def bearerToken (header : String) : Option (List Char) :=
  let trimmed := jsTrim header.toList
  let after := trimmed.drop 6
  let token := after.dropWhile isJsSpace
  if (trimmed.take 6).map Char.toLower = "bearer".toList
      ∧ token.length < after.length ∧ token ≠ [] ∧ !token.any isJsSpace then
    some token
  else
    none

/-- The raw sid of `Authorization: Bearer wsb_…`, or null. -/
def readBearerSessionId (req : HttpRequest) : Option String :=
  match (req.header "authorization").bind bearerToken with
  | none => none
  | some token =>
      let sid := token.drop 4
      if jsLength (.ofList token) ≤ 128 ∧ token.take 4 = bearerSessionPrefix.toList
          ∧ 20 ≤ sid.length ∧ sid.all isBase64urlChar then
        some (.ofList sid)
      else
        none

def readBearerSession (store : StoreObject) (req : HttpRequest) : Handler (Option Session) := do
  match readBearerSessionId req with
  | none => return none
  | some sid =>
      let session ← store.get sid
      return session.filter (fun session =>
        isBearerSession session && deviceCheckApplied store session && hasRateLimitId session)

-----------------------------------------------------------------------------------------
-- Minting
-----------------------------------------------------------------------------------------

structure InternalAuthMeta where
  emailVerifiedAt : Option Millis := none
  deviceId : Option String := none

/-- `bearer` is `transport: 'bearer'`; `internal` is the entry under `INTERNAL_AUTH_META`. -/
structure CreateSessionOptions where
  scope : Option SessionScope := none
  metadata : Option JsonObject := none
  previousSession : Option (Option Session) := none
  bearer : Bool := false
  ttl : Option SessionLifetime := none
  internal : InternalAuthMeta := {}

/-- A field that is only there when it has a value: `...(value ? { name: value } : {})`. -/
def optionalField (name : String) (value : Option Json) : JsonObject :=
  (value.map (fun value => (name, value))).toList

@[simp] theorem get_optionalField (name sought : String) (value : Option Json)
    : (optionalField name value).get sought = if name = sought then value else none := by
  cases value <;> simp [optionalField, JsonObject.get]

/-- The record `createSessionFor` keeps under the SDK's key. -/
def newAuthMeta (config : AuthConfig) (user : AuthUser) (options : CreateSessionOptions)
    : JsonObject :=
  optionalField "email" ((user.email.filter (· ≠ "")).map .str)
  ++ optionalField "provider" (((user.claims.get "provider").bind Json.string?).map .str)
  ++ [("rateLimitId", .str user.rateLimitId)]
  ++ optionalField "claims" (if config.storeUserClaims then some (.obj user.claims) else none)
  ++ optionalField "transport" (if options.bearer then some (.str "bearer") else none)
  ++ optionalField "emailVerifiedAt" (options.internal.emailVerifiedAt.map .num)
  ++ optionalField "deviceId" (options.internal.deviceId.map .str)

/-- `randomToken()`: 32 random bytes in base64url. -/
def randomToken (platform : Platform) : Handler String := do
  return base64urlEncode platform (← host.randomBytes 32)

/-- `Math.max(1, Math.ceil(ms / 1000))`. -/
def wholeSeconds (duration : Millis) : ℤ :=
  max 1 ⌈duration / sec⌉

def setSessionCookies (config : AuthConfig) (sid csrfToken : String) (maxAge : ℤ)
    : Handler Unit := do
  let { sessionCookieName, csrfCookieName, secure, sameSite } := config.cookie
  host.setCookie { name := sessionCookieName, value := sid, httpOnly := true, secure, sameSite, maxAge }
  host.setCookie
    { name := csrfCookieName, value := csrfToken, httpOnly := false, secure, sameSite, maxAge }

def clearSessionCookies (config : AuthConfig) : Handler Unit := do
  let { sessionCookieName, csrfCookieName, secure, sameSite } := config.cookie
  host.setCookie
    { name := sessionCookieName, value := "", httpOnly := true, secure, sameSite, maxAge := 0 }
  host.setCookie
    { name := csrfCookieName, value := "", httpOnly := false, secure, sameSite, maxAge := 0 }

/-- The session of the request that a login rotates out: a bearer session lives beside it. -/
def previousSession (config : AuthConfig) (req : HttpRequest) (options : CreateSessionOptions)
    : Handler (Option Session) := do
  match options.bearer, options.previousSession with
  | true, _ => return none
  | false, some previous => return previous
  | false, none => return (← readCookieSession config req).session

def revokePrevious (previous : Option Session) : Handler Unit := do
  match previous with
  | none => return
  | some previous => sessionStore.revoke previous.sid

/-- The session `createSessionFor` asks the store for. -/
def newSession (config : AuthConfig) (user : AuthUser) (options : CreateSessionOptions)
    (ttl : SessionLifetime)
    : NewSession where
  userId := user.id
  subjectType := user.subjectType
  idleTtlSec := ttl.idleTtlSec
  absoluteTtlSec := ttl.absoluteTtlSec
  scope := options.scope
  metadata := some
    (JsonObject.set (options.metadata.getD []) authMetaKey (.obj (newAuthMeta config user options)))

/-- A bearer session is handed out in the body and sets no cookies. -/
def issueCookies (platform : Platform) (config : AuthConfig) (bearer : Bool) (session : Session)
    : Handler Unit := do
  match bearer with
  | true => return
  | false =>
      let maxAge := wholeSeconds (session.absoluteExpiresAt - (← host.clock))
      setSessionCookies config session.sid (← randomToken platform) maxAge

/-- Mints a session for a verified user; a cookie login rotates out the request's session.
Arguments that make the source throw are answered with the text of its error.
-/
def createSessionFor (platform : Platform) (config : AuthConfig) (req : HttpRequest)
    (user : AuthUser) (options : CreateSessionOptions)
    : Handler (Except String Session) := do
  if user.rateLimitId = "" then
    return .error "createSession: AuthUser.rateLimitId is required and must be a non-empty string"
  if ((options.metadata.getD []).get authMetaKey).isSome then
    return .error "createSession: \"__auth\" is reserved for the SDK; put application metadata under another key"
  let ttl := options.ttl.getD config.session
  if ttl.idleTtlSec ≤ 0 ∨ ttl.absoluteTtlSec < ttl.idleTtlSec then
    return .error "createSession: ttl needs positive idleTtlSec <= absoluteTtlSec"
  revokePrevious (← previousSession config req options)
  let session ← sessionStore.create (newSession config user options ttl)
  issueCookies platform config options.bearer session
  host.onEvent (.sessionCreated session.userId session.subjectType (fingerprint platform session.sid))
  return .ok session

end WorkersAuth

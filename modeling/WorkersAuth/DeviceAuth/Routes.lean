import WorkersAuth.DeviceAuth.Credentials
import WorkersAuth.DeviceAuth.Ip
import WorkersAuth.Sessions

/-! `deviceAuth()`: the routes as programs over their calls, in the source's order. -/

namespace WorkersAuth.DeviceAuth

open Atomic

-----------------------------------------------------------------------------------------
-- Configuration
-----------------------------------------------------------------------------------------

inductive Transport where
  | cookie
  | response
  deriving DecidableEq

structure Limits where
  cooldownSec : ℚ
  perEmail : Nat
  startsPerIp : Nat
  verifiesPerIp : Nat
  pinLoginsPerIp : Nat

structure CircuitBreaker where
  minFailures : Nat
  ratio : ℚ
  windowSec : ℚ

/-- The constants `deviceAuth(options)` computes, with what its checks guarantee of them.
`normalizeEmail` answers nothing when the configured function throws or gives no string;
`isWeakPin` is the built-in rule and the configured one together; `botCheck` says whether
a hook is configured.
-/
structure Config where
  auth : AuthConfig
  transport : Transport
  secret : String
  previousSecrets : List String
  normalizeEmail : String → Option String
  deviceCookieName : String
  deviceIdleMs : Millis
  deviceAbsoluteMs : Millis
  pinMaxAttempts : Nat
  pinIterations : Nat
  isWeakPin : String → Bool
  revokeOthersOnChange : Bool
  codeTtlMs : Millis
  codeMaxAttempts : Nat
  codeDigits : Nat
  maxFailuresPerEmail : Nat
  maxFailuresPerDevice : Nat
  failureWindowSec : ℚ
  freshMs : Millis
  bearerTtlSec : ℚ
  limits : Limits
  breaker : Option CircuitBreaker
  getClientIp : HttpRequest → Option String
  requireClientIp : Bool
  botCheck : Bool
  storeBound : auth.store = .deviceBound
  deviceIdle_pos : 0 < deviceIdleMs
  deviceIdle_le : deviceIdleMs ≤ deviceAbsoluteMs
  pinMaxAttempts_pos : 0 < pinMaxAttempts
  codeTtl_pos : 0 < codeTtlMs
  codeMaxAttempts_pos : 0 < codeMaxAttempts
  codeDigits_eq : codeDigits = 6 ∨ codeDigits = 8
  maxFailuresPerEmail_pos : 0 < maxFailuresPerEmail
  maxFailuresPerDevice_pos : 0 < maxFailuresPerDevice
  failureWindow_pos : 0 < failureWindowSec
  bearerTtl_pos : 0 < bearerTtlSec

def hourSec : ℚ := 60 * 60

variable (platform : Platform) (cfg : Config)

/-- `keys()`: the ring is the same for every request of one `deviceAuth`. -/
def Config.keys : KeyRing := buildKeyRing platform cfg.secret cfg.previousSecrets

-----------------------------------------------------------------------------------------
-- Request plumbing
-----------------------------------------------------------------------------------------

inductive Gate where
  | ok (session : Option Session)
  | refused (res : Response)

/-- Cookie mode checks CSRF; response mode carries nothing ambient. -/
def gate (req : HttpRequest) : Handler Gate := do
  match cfg.transport with
  | .response => return .ok (← readBearerSession cfg.auth.store req)
  | .cookie =>
      let current ← readCookieSession cfg.auth req
      match verifyCsrf platform req current.csrfCookie current.session.isSome true cfg.auth.csrf with
      | some failure =>
          host.onEvent (.csrfFailed failure.reason)
          return .refused (.error 403 "csrf_failed")
      | none => return .ok current.session

def payloadTooLarge : Response := .error 413 "payload_too_large"

def bodyTooLarge (req : HttpRequest) : Bool :=
  match req.body with
  | .tooLarge => true
  | .body _ => false

/-- `retryAfter`: the seconds until a window that started at `windowStart` has passed. -/
def retryAfter (windowStart : Millis) (windowSec : ℚ) (now : Millis) : ℤ :=
  wholeSeconds (windowStart + windowSec * sec - now)

/-- A refusal that says when to come back. -/
def retryResponse (status : Nat) (error : String) (retryAfterSec : ℤ) : Response :=
  {
    status
    body := .obj [("error", .str error), ("retryAfterSec", .num retryAfterSec)]
    retryAfterSec
  }

/-- Counts a hit; answers the refusal when the hit is over the limit. -/
def rateLimited (bucket : String) (windowSec : ℚ) (limit : Nat) (scope : String) (now : Millis)
    : Handler (Option Response) := do
  let { count, windowStart } ← store.hitRateLimit bucket (windowSec * sec) now
  if count ≤ limit then
    return none
  host.onEvent (.rateLimited scope)
  return some (retryResponse 429 "rate_limited" (retryAfter windowStart windowSec now))

def ipBucket (action ip : String) : String :=
  action ++ ":ip:" ++ ipRateLimitKey platform ip

def ipLimited (req : HttpRequest) (action : String) (limit : Nat) (scope : String) (now : Millis)
    : Handler (Option Response) := do
  match (cfg.getClientIp req).filter (· ≠ "") with
  | none => return if cfg.requireClientIp then some (.error 400 "client_ip_required") else none
  | some ip => rateLimited (ipBucket platform action ip) hourSec limit scope now

def BotCheckAction.name : BotCheckAction → String
  | .emailStart => "email_start"
  | .emailVerify => "email_verify"
  | .pinLogin => "pin_login"

def botRefused (action : BotCheckAction) : Handler (Option Response) := do
  if !cfg.botCheck then
    return none
  if ← host.botCheck action then
    return none
  host.onEvent (.botCheckFailed (BotCheckAction.name action))
  return some (.error 403 "bot_check_failed")

def emailVerificationRequired : Response := .error 401 "email_verification_required"

def presentedDeviceToken (req : HttpRequest) : Option String :=
  match cfg.transport with
  | .cookie => req.cookie cfg.deviceCookieName
  | .response => req.header "x-device-token"

/-- `DEVICE_TOKEN_RE`: the device id and the secret of a token. -/
def parseDeviceToken (token : String) : Option (String × String) :=
  let deviceId := token.toList.take 32
  let secret := token.toList.drop 33
  if deviceId.length = 32 ∧ deviceId.all isHexChar ∧ token.toList[32]? = some '.'
      ∧ secret.length = 43 ∧ secret.all isBase64urlChar then
    some (.ofList deviceId, .ofList secret)
  else
    none

/-- The presented device, if it is real, unrevoked and unexpired. -/
def readDevice (req : HttpRequest) (now : Millis) : Handler (Option DeviceRecord) := do
  match parseDeviceToken ((presentedDeviceToken cfg req).getD "") with
  | none => return none
  | some (deviceId, secret) =>
      let some device ← store.findDevice deviceId | return none
      if !verifySecretHash platform secret device.secretHash then
        return none
      if device.revokedAt.isSome then
        return none
      if now ≥ device.idleExpiresAt ∨ now ≥ device.absoluteExpiresAt then
        return none
      return some device

def deviceCookie (value : String) (maxAge : ℤ) : SetCookie where
  name := cfg.deviceCookieName
  value := value
  httpOnly := true
  sameSite := "Lax"
  secure := cfg.auth.cookie.secure
  maxAge := maxAge

def setDeviceCookie (token : String) (expiresAt now : Millis) : Handler Unit := do
  match cfg.transport with
  | .response => return
  | .cookie => host.setCookie (deviceCookie cfg token (wholeSeconds (expiresAt - now)))

def clearDeviceCookie : Handler Unit := do
  match cfg.transport with
  | .response => return
  | .cookie => host.setCookie (deviceCookie cfg "" 0)

/-- The record of a device registered now. -/
def newDevice (user : AuthUser) (email : String) (label : Option String) (deviceId secret : String)
    (now : Millis)
    : DeviceRecord where
  deviceId := deviceId
  accountId := user.id
  email := email
  secretHash := sha256Hex platform secret
  label := label
  createdAt := now
  lastUsedAt := now
  idleExpiresAt := min (now + cfg.deviceIdleMs) (now + cfg.deviceAbsoluteMs)
  absoluteExpiresAt := now + cfg.deviceAbsoluteMs
  revokedAt := none

/-- Registers a device and answers it with its token. -/
def registerDevice (user : AuthUser) (email : String) (label : Option String) (now : Millis)
    : Handler (DeviceRecord × String) := do
  let deviceId := toHex (← host.randomBytes 16)
  let secret ← randomToken platform
  let device := newDevice platform cfg user email label deviceId secret now
  store.createDevice device
  let token := deviceId ++ "." ++ secret
  setDeviceCookie cfg token device.idleExpiresAt now
  host.onEvent (.deviceRegistered user.id deviceId)
  return (device, token)

/-- Mints the session in the shape the transport needs; answers the body fields for it. -/
def mintSession (req : HttpRequest) (user : AuthUser) (internal : InternalAuthMeta)
    : Handler (Except String JsonObject) := do
  match cfg.transport with
  | .cookie =>
      match ← createSessionFor platform cfg.auth req user { internal } with
      | .error message => return .error message
      | .ok _ => return .ok []
  | .response =>
      let ttl : SessionLifetime := { idleTtlSec := cfg.bearerTtlSec, absoluteTtlSec := cfg.bearerTtlSec }
      match ← createSessionFor platform cfg.auth req user { bearer := true, ttl := some ttl, internal } with
      | .error message => return .error message
      | .ok session =>
          return .ok [
            ("sessionToken", .str (bearerSessionToken session.sid)),
            ("sessionExpiresAt", .num session.absoluteExpiresAt)
          ]

/-- `if (cookieMode) clearSessionCookies(c, config)`. -/
def forgetSessionCookies : Handler Unit := do
  match cfg.transport with
  | .response => return
  | .cookie => clearSessionCookies cfg.auth

/-- Every session of the account; a request in cookie mode also loses its cookies. -/
def revokeAllSessions (userId reason : String) : Handler Unit := do
  sessionStore.revokeAllForUser userId
  host.onEvent (.sessionsRevokedAll userId reason)
  forgetSessionCookies cfg

def checkUser (user : Option AuthUser) : Option AuthUser :=
  user.filter (fun user => user.rateLimitId ≠ "")

/-- `looksLikeEmail`: one `@`, no white space, a dot after a non-empty domain label. -/
def looksLikeEmail (email : String) : Bool :=
  let localPart := email.toList.takeWhile (· ≠ '@')
  let domain := email.toList.drop (localPart.length + 1)
  let host := domain.takeWhile (· ≠ '.')
  2 < jsLength email && jsLength email ≤ 320
  && !email.toList.any isJsSpace
  && localPart ≠ [] && email.toList.count '@' = 1
  && host ≠ [] && host.length + 1 < domain.length

/-- The address input normalised, or nothing if it is not an address. -/
def readEmail (value : Option Json) : Option String := do
  let raw ← (← value).string?
  let email ← cfg.normalizeEmail raw
  guard (looksLikeEmail email)
  return email

/-- A live trusted device, presented with the request, registered to this very address. -/
def deviceOfAddress (req : HttpRequest) (email : String) (now : Millis)
    : Handler (Option DeviceRecord) := do
  let device ← readDevice platform cfg req now
  return device.filter (fun device => device.email = email)

structure Budget where
  failures : String
  maxFailures : Nat
  send : String
  scope : String

def budgetFor (emailKey : String) (device : Option DeviceRecord) : Budget :=
  match device with
  | some device =>
      {
        failures := "otp-fail:device:" ++ device.deviceId
        maxFailures := cfg.maxFailuresPerDevice
        send := "device:" ++ device.deviceId
        scope := "device"
      }
  | none =>
      {
        failures := "otp-fail:" ++ emailKey
        maxFailures := cfg.maxFailuresPerEmail
        send := emailKey
        scope := "email"
      }

def cbBucket : String := "cb:email-verify"

def SubjectType.toJson : SubjectType → Json
  | .user => .str "user"
  | .service => .str "service"

def userJson (user : AuthUser) : Json :=
  .obj
    ([("id", .str user.id), ("subjectType", SubjectType.toJson user.subjectType)]
      ++ optionalField "email" (user.email.map .str)
      ++ [("rateLimitId", .str user.rateLimitId), ("claims", .obj user.claims)])

/-- `publicDevice`. -/
def publicDevice (device : DeviceRecord) : Json :=
  .obj [
    ("deviceId", .str device.deviceId),
    ("idleExpiresAt", .num device.idleExpiresAt),
    ("absoluteExpiresAt", .num device.absoluteExpiresAt)
  ]

def nullable (value : Option Json) : Json := value.getD .null

-----------------------------------------------------------------------------------------
-- POST /email/start
-----------------------------------------------------------------------------------------

def okResponse (fields : JsonObject := []) : Response :=
  { status := 200, body := .obj (("ok", .bool true) :: fields) }

/-- The record stored for a code sent now. -/
def newEmailCode (email code : String) (now : Millis) : EmailCodeRecord where
  email := email
  codeHash := hmacHex platform (cfg.keys platform).current.otpKey (email ++ "\n" ++ code)
  keyId := (cfg.keys platform).current.keyId
  expiresAt := now + cfg.codeTtlMs
  createdAt := now
  attemptsResetAt := now + cfg.codeTtlMs

/-- The code is issued: stored first, then sent, whatever becomes of the sending. -/
def issueCode (email : String) (now : Millis) : Handler Response := do
  let code ← host.generateEmailCode cfg.codeDigits
  store.putEmailCode (newEmailCode platform cfg email code now)
  let _ ← host.sendCode email code
  host.onEvent (.emailCodeSent (fingerprint platform email))
  return okResponse

def emailStart (req : HttpRequest) : Handler Response := do
  match ← gate platform cfg req with
  | .refused res => return res
  | .ok _ =>
      if bodyTooLarge req then
        return payloadTooLarge
      let some email := readEmail cfg (req.field "email") | return .error 400 "invalid_request"
      if let some bot ← botRefused cfg .emailStart then
        return bot
      let now ← host.clock
      if let some hit ← ipLimited platform cfg req "otp-start" cfg.limits.startsPerIp
          "email_start_ip" now then
        return hit
      let budget := budgetFor cfg (sha256Hex platform email) (← deviceOfAddress platform cfg req email now)
      let failures ← store.readRateLimit budget.failures (cfg.failureWindowSec * sec) now
      if failures.count ≥ budget.maxFailures then
        host.onEvent (.rateLimited (budget.scope ++ "_failures"))
        return retryResponse 429 "rate_limited"
          (retryAfter failures.windowStart cfg.failureWindowSec now)
      if let some cooled ← rateLimited ("otp-cool:" ++ budget.send) cfg.limits.cooldownSec 1
          (budget.scope ++ "_cooldown") now then
        return cooled
      if let some capped ← rateLimited ("otp-email:" ++ budget.send) hourSec cfg.limits.perEmail
          (budget.scope ++ "_hourly") now then
        return capped
      issueCode platform cfg email now

-----------------------------------------------------------------------------------------
-- POST /email/verify
-----------------------------------------------------------------------------------------

/-- `checked`: one checked verification for the breaker. -/
def checked (now : Millis) (failed : Bool) : Handler Unit := do
  match cfg.breaker with
  | none => return
  | some breaker =>
      let _ ← store.hitCircuitBreaker cbBucket (breaker.windowSec * sec) now failed

/-- `invalid`: a code was compared and refused. -/
def invalid (email : String) (now : Millis) (reason : String) : Handler Response := do
  host.onEvent (.emailCodeFailed (fingerprint platform email) reason)
  checked cfg now true
  return .error 401 "invalid_code"

/-- The device a verified request ends up with, and the token when it is a new one. -/
def trustedDevice (req : HttpRequest) (user : AuthUser) (email : String) (now : Millis)
    (trustDevice : Bool) (label : Option String)
    : Handler (Option DeviceRecord × Option String) := do
  if !trustDevice then
    return (none, none)
  let presented ← readDevice platform cfg req now
  match presented.filter (fun presented => presented.accountId = user.id) with
  | some presented =>
      match ← store.touchDevice presented.deviceId now (now + cfg.deviceIdleMs) with
      | some idleExpiresAt =>
          setDeviceCookie cfg ((presentedDeviceToken cfg req).getD "") idleExpiresAt now
          return (some { presented with lastUsedAt := now, idleExpiresAt }, none)
      | none =>
          let (device, token) ← registerDevice platform cfg user email label now
          return (some device, some token)
  | none =>
      let (device, token) ← registerDevice platform cfg user email label now
      return (some device, some token)

/-- The code was right and the user accepted: unlock the PIN, trust the device, sign in. -/
def emailVerified (req : HttpRequest) (resolved : AuthUser) (email : String) (now : Millis)
    (trustDevice : Bool) (label : Option String)
    : Handler Response := do
  let user := { resolved with claims := JsonObject.set resolved.claims "provider" (.str "email-code") }
  host.onEvent (.emailCodeVerified user.id (fingerprint platform email))
  let before ← store.resetLoginGuard user.id now
  host.onEventIf (before.bind (·.lockedAt)).isSome (.pinUnlocked user.id)
  let (device, deviceToken) ← trustedDevice platform cfg req user email now trustDevice label
  match ← mintSession platform cfg req user
      { emailVerifiedAt := some now, deviceId := device.map (·.deviceId) } with
  | .error _ => return .uncaught
  | .ok sessionFields =>
      let pinSet := (← store.getActiveCredential user.id .pin).isSome
      return okResponse
        ([
          ("user", userJson user),
          ("pinSet", .bool pinSet),
          ("device", nullable (device.map publicDevice))
        ]
          ++ (if cfg.transport = .response then optionalField "deviceToken" (deviceToken.map .str) else [])
          ++ sessionFields)

/-- The digits presented for an address hash to the stored value under this key. -/
def codeMatches (derived : DerivedKeys) (email code codeHash : String) : Bool :=
  timingSafeEqual (hmacHex platform derived.otpKey (email ++ "\n" ++ code)) codeHash

/-- From the reserved slot on: the attempt, the comparison, the consumption, the user. -/
def checkCode (req : HttpRequest) (email code : String) (now : Millis) (budget : Budget)
    (slot : WindowCount) (trustDevice : Bool) (label : Option String)
    : Handler Response := do
  match ← store.reserveEmailCodeAttempt email now cfg.codeMaxAttempts with
  | none =>
      store.refundRateLimit budget.failures slot.windowStart
      host.onEvent (.emailCodeFailed (fingerprint platform email) "no_live_code")
      return .error 401 "invalid_code"
  | some reserved =>
      match (cfg.keys platform).get reserved.keyId with
      | none => invalid platform cfg email now "unknown_key"
      | some derived =>
          if !codeMatches platform derived email code reserved.codeHash then
            invalid platform cfg email now "mismatch"
          else
            let consumed ← store.consumeEmailCode email reserved.codeHash
            if !consumed then
              invalid platform cfg email now "already_used"
            else
              match checkUser (← host.resolveUser email) with
              | none => invalid platform cfg email now "user_refused"
              | some resolved =>
                  store.refundRateLimit budget.failures slot.windowStart
                  checked cfg now false
                  emailVerified platform cfg req resolved email now trustDevice label

/-- The open breaker refuses; a closed one, or none, lets the request pass. -/
def breakerRefused (now : Millis) : Handler (Option Response) := do
  match cfg.breaker with
  | none => return none
  | some breaker =>
      let cb ← store.readCircuitBreaker cbBucket (breaker.windowSec * sec) now
      if cb.failures ≥ breaker.minFailures ∧ (cb.failures : ℚ) ≥ breaker.ratio * max cb.attempts 1 then
        host.onEvent (.circuitBreakerOpen "email_verify")
        return some (retryResponse 503 "temporarily_unavailable"
          (retryAfter cb.windowStart breaker.windowSec now))
      return none

/-- `trustDevice` unless the body says `false`. -/
def wantsTrustedDevice (req : HttpRequest) : Bool :=
  match req.field "trustDevice" with
  | some (.bool false) => false
  | _ => true

/-- The label when it is a non-empty string, cut to 100 UTF-16 code units. -/
def deviceLabel (req : HttpRequest) : Option String :=
  (((req.field "deviceLabel").bind Json.string?).filter (· ≠ "")).map (jsSlice 100)

/-- The code when it is a string of the configured number of digits. -/
def readCode (value : Option Json) : Option String :=
  (value.bind Json.string?).filter (isDigits cfg.codeDigits)

/-- A failure is reserved against the budget before anything is checked. -/
def reserveSlot (req : HttpRequest) (email code : String) (now : Millis) (budget : Budget)
    : Handler Response := do
  match ← store.reserveRateLimit budget.failures (cfg.failureWindowSec * sec) now budget.maxFailures with
  | none =>
      host.onEvent (.rateLimited (budget.scope ++ "_failures"))
      let current ← store.readRateLimit budget.failures (cfg.failureWindowSec * sec) now
      return retryResponse 429 "rate_limited"
        (retryAfter current.windowStart cfg.failureWindowSec now)
  | some slot =>
      checkCode platform cfg req email code now budget slot (wantsTrustedDevice req) (deviceLabel req)

def emailVerify (req : HttpRequest) : Handler Response := do
  match ← gate platform cfg req with
  | .refused res => return res
  | .ok _ =>
      if bodyTooLarge req then
        return payloadTooLarge
      let some email := readEmail cfg (req.field "email") | return .error 400 "invalid_request"
      let some code := readCode cfg (req.field "code") | return .error 400 "invalid_request"
      if let some bot ← botRefused cfg .emailVerify then
        return bot
      let now ← host.clock
      if let some hit ← ipLimited platform cfg req "otp-verify" cfg.limits.verifiesPerIp
          "email_verify_ip" now then
        return hit
      if let some open_ ← breakerRefused cfg now then
        return open_
      let budget := budgetFor cfg (sha256Hex platform email) (← deviceOfAddress platform cfg req email now)
      reserveSlot platform cfg req email code now budget

-----------------------------------------------------------------------------------------
-- POST /pin and GET /pin/status
-----------------------------------------------------------------------------------------

def unauthenticated : Response := .error 401 "unauthenticated"

/-- The credential of a PIN set now. -/
def newPinCredential (accountId credentialId : String) (material : JsonObject) (now : Millis)
    : CredentialRecord where
  credentialId := credentialId
  accountId := accountId
  type := .pin
  deviceId := none
  material := material
  createdAt := now
  updatedAt := now
  lastUsedAt := none

/-- The options of the one replacement a PIN change makes. -/
def pinChangeOptions (session : Session) : ReplaceCredentialOptions where
  resetLoginGuard := true
  revokeOtherDevices := if cfg.revokeOthersOnChange then some (sessionBoundDeviceId session) else none

def setPin (req : HttpRequest) : Handler Response := do
  match ← gate platform cfg req with
  | .refused res => return res
  | .ok none => return unauthenticated
  | .ok (some session) =>
      let now ← host.clock
      match emailVerifiedAt session with
      | none => return emailVerificationRequired
      | some verifiedAt =>
          if now - verifiedAt > cfg.freshMs then
            return emailVerificationRequired
          if bodyTooLarge req then
            return payloadTooLarge
          let some pin := isPinFormat (req.field "pin") | return .error 400 "invalid_pin_format"
          if cfg.isWeakPin pin then
            return .error 400 "weak_pin"
          let some material ← enroll platform cfg.pinIterations pin (cfg.keys platform) | return .uncaught
          let credentialId := toHex (← host.randomBytes 16)
          let { replaced, devicesRevoked } ← store.replaceCredential
            (newPinCredential session.userId credentialId material now) (pinChangeOptions cfg session)
          host.onEvent (.pinSet session.userId replaced)
          if replaced ∧ cfg.revokeOthersOnChange then
            host.onEventIf (devicesRevoked > 0)
              (.deviceRevoked session.userId none (some devicesRevoked) "pin_changed")
            revokeAllSessions cfg session.userId "pin_changed"
            return okResponse [("signedOut", .bool true)]
          return okResponse

def pinStatus (req : HttpRequest) : Handler Response := do
  match ← gate platform cfg req with
  | .refused res => return res
  | .ok none => return unauthenticated
  | .ok (some session) =>
      let pinSet := (← store.getActiveCredential session.userId .pin).isSome
      return { status := 200, body := .obj [("pinSet", .bool pinSet)] }

-----------------------------------------------------------------------------------------
-- POST /pin/login
-----------------------------------------------------------------------------------------

/-- Once the guard is cleared: keep the credential current, check the user and the device
once more, and sign in.
-/
def signIn (req : HttpRequest) (device : DeviceRecord) (credential : CredentialRecord)
    (upgraded : Option JsonObject) (now : Millis)
    : Handler Response := do
  let base := (device.accountId, device.deviceId)
  store.markCredentialUsed credential.credentialId now upgraded
  let resolved ← host.resolveUser device.email
  match (checkUser resolved).filter (fun resolved => resolved.id = device.accountId) with
  | none =>
      host.onEvent (.pinLoginFailed "user_unresolved" (some base) none)
      return emailVerificationRequired
  | some resolved =>
      match ← store.touchDevice device.deviceId now (now + cfg.deviceIdleMs) with
      | none =>
          host.onEvent (.pinLoginFailed "device_invalid" (some base) none)
          return emailVerificationRequired
      | some idleExpiresAt =>
          setDeviceCookie cfg ((presentedDeviceToken cfg req).getD "") idleExpiresAt now
          let user := { resolved with claims := JsonObject.set resolved.claims "provider" (.str "device-pin") }
          match ← mintSession platform cfg req user { deviceId := some device.deviceId } with
          | .error _ => return .uncaught
          | .ok sessionFields =>
              host.onEvent (.pinLoginSucceeded device.accountId device.deviceId)
              return okResponse
                ([
                  ("user", userJson user),
                  ("device", publicDevice { device with lastUsedAt := now, idleExpiresAt })
                ]
                  ++ sessionFields)

/-- The PIN was right: the guard is cleared, then the login goes on. -/
def pinVerified (req : HttpRequest) (device : DeviceRecord) (credential : CredentialRecord)
    (upgraded : Option JsonObject) (now : Millis)
    : Handler Response := do
  let _ ← store.resetLoginGuard device.accountId now
  signIn platform cfg req device credential upgraded now

/-- From the reserved attempt on: the derivation, then the lock or the answer. -/
def checkPin (req : HttpRequest) (pin : String) (device : DeviceRecord)
    (credential : CredentialRecord) (failedCount : Nat) (now : Millis)
    : Handler Response := do
  let base := (device.accountId, device.deviceId)
  match ← pinVerify platform cfg.pinIterations pin credential.material (cfg.keys platform) with
  | none => return .uncaught
  | some .refused =>
      host.onEvent (.pinLoginFailed "invalid_pin" (some base) (some failedCount))
      if failedCount ≥ cfg.pinMaxAttempts then
        store.lockAccount device.accountId cfg.pinMaxAttempts now
        host.onEvent (.pinLocked device.accountId device.deviceId)
        return emailVerificationRequired
      return {
        status := 401
        body := .obj [
          ("error", .str "invalid_pin"),
          ("attemptsRemaining", .num (cfg.pinMaxAttempts - failedCount : ℤ))
        ]
      }
  | some (.ok upgraded) => pinVerified platform cfg req device credential upgraded now

/-- On a live device: the credential is loaded, then the attempt is reserved. -/
def attemptPin (req : HttpRequest) (pin : String) (device : DeviceRecord) (now : Millis)
    : Handler Response := do
  let base := (device.accountId, device.deviceId)
  match ← store.getActiveCredential device.accountId .pin with
  | none =>
      host.onEvent (.pinLoginFailed "pin_not_set" (some base) none)
      return emailVerificationRequired
  | some credential =>
      match ← store.reserveLoginAttempt device.accountId cfg.pinMaxAttempts now with
      | none =>
          host.onEvent (.pinLoginFailed "locked" (some base) none)
          return emailVerificationRequired
      | some failedCount => checkPin platform cfg req pin device credential failedCount now

/-- The device presented is checked before anything of the account is touched. -/
def loginOnDevice (req : HttpRequest) (pin : String) (now : Millis) : Handler Response := do
  match ← readDevice platform cfg req now with
  | none =>
      host.onEvent (.pinLoginFailed "device_invalid" none none)
      return emailVerificationRequired
  | some device => attemptPin platform cfg req pin device now

def pinLogin (req : HttpRequest) : Handler Response := do
  match ← gate platform cfg req with
  | .refused res => return res
  | .ok _ =>
      if bodyTooLarge req then
        return payloadTooLarge
      let some pin := isPinFormat (req.field "pin") | return .error 400 "invalid_pin_format"
      if let some bot ← botRefused cfg .pinLogin then
        return bot
      let now ← host.clock
      if let some hit ← ipLimited platform cfg req "pin-login" cfg.limits.pinLoginsPerIp
          "pin_login_ip" now then
        return hit
      loginOnDevice platform cfg req pin now

-----------------------------------------------------------------------------------------
-- Devices and logout
-----------------------------------------------------------------------------------------

def deviceInfoJson (device : DeviceInfo) : Json :=
  .obj [
    ("deviceId", .str device.deviceId),
    ("accountId", .str device.accountId),
    ("label", nullable (device.label.map .str)),
    ("createdAt", .num device.createdAt),
    ("lastUsedAt", .num device.lastUsedAt),
    ("idleExpiresAt", .num device.idleExpiresAt),
    ("absoluteExpiresAt", .num device.absoluteExpiresAt)
  ]

def listDevices (req : HttpRequest) : Handler Response := do
  match ← gate platform cfg req with
  | .refused res => return res
  | .ok none => return unauthenticated
  | .ok (some session) =>
      let devices ← store.listDevices session.userId (← host.clock)
      return {
        status := 200
        body := .obj [
          ("devices", .arr (devices.map deviceInfoJson)),
          ("currentDeviceId", nullable ((sessionBoundDeviceId session).map .str))
        ]
      }

def revokeAllDevices (req : HttpRequest) : Handler Response := do
  match ← gate platform cfg req with
  | .refused res => return res
  | .ok none => return unauthenticated
  | .ok (some session) =>
      let count ← store.revokeAllDevices session.userId (← host.clock)
      host.onEvent (.deviceRevoked session.userId none (some count) "revoke_all")
      revokeAllSessions cfg session.userId "revoke_all"
      clearDeviceCookie cfg
      return okResponse [("revoked", .num count)]

def revokeDevice (req : HttpRequest) (deviceId : String) : Handler Response := do
  match ← gate platform cfg req with
  | .refused res => return res
  | .ok none => return unauthenticated
  | .ok (some session) =>
      let revoked ← store.revokeDevice session.userId deviceId (← host.clock)
      host.onEventIf revoked (.deviceRevoked session.userId (some deviceId) none "user")
      return okResponse [("revoked", .bool revoked)]

/-- The presented device, if there is one, is revoked. -/
def forgetPresented (req : HttpRequest) (now : Millis) : Handler Unit := do
  match ← readDevice platform cfg req now with
  | none => return
  | some device =>
      let revoked ← store.revokeDevice device.accountId device.deviceId now
      host.onEventIf revoked (.deviceRevoked device.accountId (some device.deviceId) none "forget")

def forgetDevice (req : HttpRequest) : Handler Response := do
  match ← gate platform cfg req with
  | .refused res => return res
  | .ok _ =>
      forgetPresented platform cfg req (← host.clock)
      clearDeviceCookie cfg
      return okResponse

/-- The request's own session, if it has one, is revoked. -/
def revokeOwn (session : Option Session) : Handler Unit := do
  match session with
  | none => return
  | some session =>
      sessionStore.revoke session.sid
      host.onEvent (.sessionRevoked (fingerprint platform session.sid))

def logout (req : HttpRequest) : Handler Response := do
  match ← gate platform cfg req with
  | .refused res => return res
  | .ok session =>
      revokeOwn platform session
      forgetSessionCookies cfg
      return okResponse

-----------------------------------------------------------------------------------------
-- The service
-----------------------------------------------------------------------------------------

/-- A request to one of the routes. -/
inductive Request where
  | emailStart (req : HttpRequest)
  | emailVerify (req : HttpRequest)
  | setPin (req : HttpRequest)
  | pinStatus (req : HttpRequest)
  | pinLogin (req : HttpRequest)
  | listDevices (req : HttpRequest)
  | revokeAllDevices (req : HttpRequest)
  | revokeDevice (req : HttpRequest) (deviceId : String)
  | forgetDevice (req : HttpRequest)
  | logout (req : HttpRequest)

def handle : Request → Handler Response
  | .emailStart req => emailStart platform cfg req
  | .emailVerify req => emailVerify platform cfg req
  | .setPin req => setPin platform cfg req
  | .pinStatus req => pinStatus platform cfg req
  | .pinLogin req => pinLogin platform cfg req
  | .listDevices req => listDevices platform cfg req
  | .revokeAllDevices req => revokeAllDevices platform cfg req
  | .revokeDevice req deviceId => revokeDevice platform cfg req deviceId
  | .forgetDevice req => forgetDevice platform cfg req
  | .logout req => logout platform cfg req

/-- Any number of requests to the routes, over one store and one session store. -/
def deviceAuth {σ : Type} (sessions : Semantics SessionCall SessionCall.Reply σ)
    : Service Op Op.Reply (World σ) Request Response where
  program := handle platform cfg
  exec := exec platform sessions

end WorkersAuth.DeviceAuth

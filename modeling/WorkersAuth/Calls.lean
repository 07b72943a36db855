import WorkersAuth.Atomic.Monitor
import WorkersAuth.Crypto
import WorkersAuth.DeviceAuth.Store

/-! The calls a request makes: on the device-auth store, on a session store, and on the host.
A handler is a program over these calls. The store's calls act on the tables; what a
session store does is a parameter; the host answers freely except where the platform
fixes the reply.
-/

namespace WorkersAuth

open Atomic DeviceAuth

-----------------------------------------------------------------------------------------
-- Operations and their replies
-----------------------------------------------------------------------------------------

/-- One call of the `DeviceAuthStore` interface. -/
inductive StoreCall where
  | hitRateLimit (bucket : String) (windowMs now : Millis)
  | readRateLimit (bucket : String) (windowMs now : Millis)
  | reserveRateLimit (bucket : String) (windowMs now : Millis) (max : Nat)
  | refundRateLimit (bucket : String) (windowStart : Millis)
  | hitCircuitBreaker (bucket : String) (windowMs now : Millis) (failed : Bool)
  | readCircuitBreaker (bucket : String) (windowMs now : Millis)
  | putEmailCode (record : EmailCodeRecord)
  | reserveEmailCodeAttempt (email : String) (now : Millis) (maxAttempts : Nat)
  | consumeEmailCode (email codeHash : String)
  | createDevice (record : DeviceRecord)
  | findDevice (deviceId : String)
  | touchDevice (deviceId : String) (now idleExpiresAt : Millis)
  | listDevices (accountId : String) (now : Millis)
  | revokeDevice (accountId deviceId : String) (now : Millis)
  | revokeAllDevices (accountId : String) (now : Millis) (exceptDeviceId : Option String)
  | getActiveCredential (accountId : String) (type : CredentialType)
  | replaceCredential (record : CredentialRecord) (options : ReplaceCredentialOptions)
  | markCredentialUsed (credentialId : String) (now : Millis) (material : Option JsonObject)
  | reserveLoginAttempt (accountId : String) (maxAttempts : Nat) (now : Millis)
  | lockAccount (accountId : String) (maxAttempts : Nat) (now : Millis)
  | resetLoginGuard (accountId : String) (now : Millis)

@[reducible] def StoreCall.Reply : StoreCall → Type
  | .hitRateLimit .. => WindowCount
  | .readRateLimit .. => WindowCount
  | .reserveRateLimit .. => Option WindowCount
  | .refundRateLimit .. => Unit
  | .hitCircuitBreaker .. => CircuitBreakerState
  | .readCircuitBreaker .. => CircuitBreakerState
  | .putEmailCode .. => Unit
  | .reserveEmailCodeAttempt .. => Option ReservedEmailCode
  | .consumeEmailCode .. => Bool
  | .createDevice .. => Unit
  | .findDevice .. => Option DeviceRecord
  | .touchDevice .. => Option Millis
  | .listDevices .. => List DeviceInfo
  | .revokeDevice .. => Bool
  | .revokeAllDevices .. => Nat
  | .getActiveCredential .. => Option CredentialRecord
  | .replaceCredential .. => ReplaceCredentialResult
  | .markCredentialUsed .. => Unit
  | .reserveLoginAttempt .. => Option Nat
  | .lockAccount .. => Unit
  | .resetLoginGuard .. => Option GuardState

/-- The store's answer to a call and the tables it leaves, or nothing when it throws. -/
def StoreCall.run : (op : StoreCall) → Database → Option (op.Reply × Database)
  | .hitRateLimit bucket windowMs now, db => some (db.hitRateLimit bucket windowMs now)
  | .readRateLimit bucket windowMs now, db => some (db.readRateLimit bucket windowMs now, db)
  | .reserveRateLimit bucket windowMs now max, db =>
      some (db.reserveRateLimit bucket windowMs now max)
  | .refundRateLimit bucket windowStart, db => some ((), db.refundRateLimit bucket windowStart)
  | .hitCircuitBreaker bucket windowMs now failed, db =>
      some (db.hitCircuitBreaker bucket windowMs now failed)
  | .readCircuitBreaker bucket windowMs now, db =>
      some (db.readCircuitBreaker bucket windowMs now, db)
  | .putEmailCode record, db => some ((), db.putEmailCode record)
  | .reserveEmailCodeAttempt email now maxAttempts, db =>
      some (db.reserveEmailCodeAttempt email now maxAttempts)
  | .consumeEmailCode email codeHash, db => some (db.consumeEmailCode email codeHash)
  | .createDevice record, db => (db.createDevice record).map (fun after => ((), after))
  | .findDevice deviceId, db => some (db.findDevice deviceId, db)
  | .touchDevice deviceId now idleExpiresAt, db => some (db.touchDevice deviceId now idleExpiresAt)
  | .listDevices accountId now, db => some (db.listDevices accountId now, db)
  | .revokeDevice accountId deviceId now, db => some (db.revokeDevice accountId deviceId now)
  | .revokeAllDevices accountId now exceptDeviceId, db =>
      some (db.revokeAllDevices accountId now exceptDeviceId)
  | .getActiveCredential accountId type, db => some (db.getActiveCredential accountId type, db)
  | .replaceCredential record options, db => db.replaceCredential record options
  | .markCredentialUsed credentialId now material, db =>
      some ((), db.markCredentialUsed credentialId now material)
  | .reserveLoginAttempt accountId maxAttempts now, db =>
      some (db.reserveLoginAttempt accountId maxAttempts now)
  | .lockAccount accountId maxAttempts now, db => some ((), db.lockAccount accountId maxAttempts now)
  | .resetLoginGuard accountId now, db => some (db.resetLoginGuard accountId now)

/-- One call of the `SessionStore` interface. -/
inductive SessionCall where
  | get (sid : String)
  | create (input : NewSession)
  | revoke (sid : String)
  | revokeAllForUser (userId : String)
  | touch (sid : String) (idleExpiresAt : Millis)

@[reducible] def SessionCall.Reply : SessionCall → Type
  | .get .. => Option Session
  | .create .. => Session
  | .revoke .. => Unit
  | .revokeAllForUser .. => Unit
  | .touch .. => Unit

inductive BotCheckAction where
  | emailStart
  | emailVerify
  | pinLogin

/-- A cookie a response sets; deletion is an empty value with `maxAge` zero. -/
structure SetCookie where
  name : String
  value : String
  httpOnly : Bool
  sameSite : String
  secure : Bool
  maxAge : ℤ

/-- What a magic-link store keeps of a token. -/
structure MagicLinkRecord where
  email : String
  expiresAt : Millis

/-- What a handler asks of its surroundings: the clock, the application's hooks, randomness,
the magic-link store of a provider, and the PIN derivation, which is a call so that its cost
can be counted.
-/
inductive HostCall where
  | clock
  | botCheck (action : BotCheckAction)
  | resolveUser (email : String)
  | sendCode (email code : String)
  | onEvent (event : AuthEvent)
  | randomBytes (length : Nat)
  | generateEmailCode (digits : Nat)
  | derive (pin : String) (pepperKey salt : Bytes) (iterations : ℚ)
  | setCookie (cookie : SetCookie)
  | takeMagicLink (tokenHash : String)

/-- `botCheck` answers whether the hook returned true, `sendCode` whether it did not throw,
`derive` nothing when the platform refuses the parameters.
-/
@[reducible] def HostCall.Reply : HostCall → Type
  | .clock => Millis
  | .botCheck .. => Bool
  | .resolveUser .. => Option AuthUser
  | .sendCode .. => Bool
  | .onEvent .. => Unit
  | .randomBytes .. => Bytes
  | .generateEmailCode .. => String
  | .derive .. => Option Bytes
  | .setCookie .. => Unit
  | .takeMagicLink .. => Option MagicLinkRecord

inductive Op where
  | store (call : StoreCall)
  | session (call : SessionCall)
  | host (call : HostCall)

@[reducible] def Op.Reply : Op → Type
  | .store call => call.Reply
  | .session call => call.Reply
  | .host call => call.Reply

/-- A handler, or a part of one. -/
abbrev Handler := Program Op Op.Reply

-----------------------------------------------------------------------------------------
-- What the calls do
-----------------------------------------------------------------------------------------

/-- The replies the host can give. A PIN derivation is HMAC with the pepper, then PBKDF2. -/
def HostCall.Answers (platform : Platform) : (op : HostCall) → op.Reply → Prop
  | .generateEmailCode digits, code => isDigits digits code
  | .randomBytes length, bytes => bytes.length = length
  | .derive pin pepperKey salt iterations, derived =>
      derived = platform.pbkdf2 (platform.hmac pepperKey pin) salt iterations
  | _, _ => True

/-- The device-auth tables and the state of the session store behind them. -/
structure World (σ : Type) where
  db : Database
  sessions : σ

/-- The semantics of all calls over a session store: a call reaches only its own part of the
world, and a store call that throws never replies.
-/
def exec {σ : Type} (platform : Platform) (sessions : Semantics SessionCall SessionCall.Reply σ)
    : Semantics Op Op.Reply (World σ)
  | .store call, before, reply, after =>
      call.run before.db = some (reply, after.db) ∧ after.sessions = before.sessions
  | .session call, before, reply, after =>
      sessions call before.sessions reply after.sessions ∧ after.db = before.db
  | .host call, before, reply, after => call.Answers platform reply ∧ after = before

section

variable {σ : Type} {platform : Platform} {sessions : Semantics SessionCall SessionCall.Reply σ}
  {before after : World σ}

@[simp] theorem exec_store {call : StoreCall} {reply : call.Reply}
    : exec platform sessions (.store call) before reply after
      ↔ call.run before.db = some (reply, after.db) ∧ after.sessions = before.sessions := .rfl

@[simp] theorem exec_session {call : SessionCall} {reply : call.Reply}
    : exec platform sessions (.session call) before reply after
      ↔ sessions call before.sessions reply after.sessions ∧ after.db = before.db := .rfl

@[simp] theorem exec_host {call : HostCall} {reply : call.Reply}
    : exec platform sessions (.host call) before reply after
      ↔ call.Answers platform reply ∧ after = before := .rfl

end

-----------------------------------------------------------------------------------------
-- The calls under the source's names
-----------------------------------------------------------------------------------------

namespace store

abbrev hitRateLimit (bucket : String) (windowMs now : Millis) : Handler WindowCount :=
  Program.perform (Op.store (.hitRateLimit bucket windowMs now))
abbrev readRateLimit (bucket : String) (windowMs now : Millis) : Handler WindowCount :=
  Program.perform (Op.store (.readRateLimit bucket windowMs now))
abbrev reserveRateLimit (bucket : String) (windowMs now : Millis) (max : Nat)
    : Handler (Option WindowCount) :=
  Program.perform (Op.store (.reserveRateLimit bucket windowMs now max))
abbrev refundRateLimit (bucket : String) (windowStart : Millis) : Handler Unit :=
  Program.perform (Op.store (.refundRateLimit bucket windowStart))
abbrev hitCircuitBreaker (bucket : String) (windowMs now : Millis) (failed : Bool)
    : Handler CircuitBreakerState :=
  Program.perform (Op.store (.hitCircuitBreaker bucket windowMs now failed))
abbrev readCircuitBreaker (bucket : String) (windowMs now : Millis)
    : Handler CircuitBreakerState :=
  Program.perform (Op.store (.readCircuitBreaker bucket windowMs now))
abbrev putEmailCode (record : EmailCodeRecord) : Handler Unit :=
  Program.perform (Op.store (.putEmailCode record))
abbrev reserveEmailCodeAttempt (email : String) (now : Millis) (maxAttempts : Nat)
    : Handler (Option ReservedEmailCode) :=
  Program.perform (Op.store (.reserveEmailCodeAttempt email now maxAttempts))
abbrev consumeEmailCode (email codeHash : String) : Handler Bool :=
  Program.perform (Op.store (.consumeEmailCode email codeHash))
abbrev createDevice (record : DeviceRecord) : Handler Unit :=
  Program.perform (Op.store (.createDevice record))
abbrev findDevice (deviceId : String) : Handler (Option DeviceRecord) :=
  Program.perform (Op.store (.findDevice deviceId))
abbrev touchDevice (deviceId : String) (now idleExpiresAt : Millis) : Handler (Option Millis) :=
  Program.perform (Op.store (.touchDevice deviceId now idleExpiresAt))
abbrev listDevices (accountId : String) (now : Millis) : Handler (List DeviceInfo) :=
  Program.perform (Op.store (.listDevices accountId now))
abbrev revokeDevice (accountId deviceId : String) (now : Millis) : Handler Bool :=
  Program.perform (Op.store (.revokeDevice accountId deviceId now))
abbrev revokeAllDevices (accountId : String) (now : Millis) (exceptDeviceId : Option String := none)
    : Handler Nat :=
  Program.perform (Op.store (.revokeAllDevices accountId now exceptDeviceId))
abbrev getActiveCredential (accountId : String) (type : CredentialType)
    : Handler (Option CredentialRecord) :=
  Program.perform (Op.store (.getActiveCredential accountId type))
abbrev replaceCredential (record : CredentialRecord) (options : ReplaceCredentialOptions)
    : Handler ReplaceCredentialResult :=
  Program.perform (Op.store (.replaceCredential record options))
abbrev markCredentialUsed (credentialId : String) (now : Millis) (material : Option JsonObject)
    : Handler Unit :=
  Program.perform (Op.store (.markCredentialUsed credentialId now material))
abbrev reserveLoginAttempt (accountId : String) (maxAttempts : Nat) (now : Millis)
    : Handler (Option Nat) :=
  Program.perform (Op.store (.reserveLoginAttempt accountId maxAttempts now))
abbrev lockAccount (accountId : String) (maxAttempts : Nat) (now : Millis) : Handler Unit :=
  Program.perform (Op.store (.lockAccount accountId maxAttempts now))
abbrev resetLoginGuard (accountId : String) (now : Millis) : Handler (Option GuardState) :=
  Program.perform (Op.store (.resetLoginGuard accountId now))

end store

namespace sessionStore

abbrev get (sid : String) : Handler (Option Session) :=
  Program.perform (Op.session (.get sid))
abbrev create (input : NewSession) : Handler Session :=
  Program.perform (Op.session (.create input))
abbrev revoke (sid : String) : Handler Unit :=
  Program.perform (Op.session (.revoke sid))
abbrev revokeAllForUser (userId : String) : Handler Unit :=
  Program.perform (Op.session (.revokeAllForUser userId))
abbrev touch (sid : String) (idleExpiresAt : Millis) : Handler Unit :=
  Program.perform (Op.session (.touch sid idleExpiresAt))

end sessionStore

namespace host

abbrev clock : Handler Millis :=
  Program.perform (Op.host .clock)
abbrev botCheck (action : BotCheckAction) : Handler Bool :=
  Program.perform (Op.host (.botCheck action))
abbrev resolveUser (email : String) : Handler (Option AuthUser) :=
  Program.perform (Op.host (.resolveUser email))
abbrev sendCode (email code : String) : Handler Bool :=
  Program.perform (Op.host (.sendCode email code))
abbrev onEvent (event : AuthEvent) : Handler Unit :=
  Program.perform (Op.host (.onEvent event))
abbrev randomBytes (length : Nat) : Handler Bytes :=
  Program.perform (Op.host (.randomBytes length))
abbrev generateEmailCode (digits : Nat) : Handler String :=
  Program.perform (Op.host (.generateEmailCode digits))
abbrev derive (pin : String) (pepperKey salt : Bytes) (iterations : ℚ) : Handler (Option Bytes) :=
  Program.perform (Op.host (.derive pin pepperKey salt iterations))
abbrev setCookie (cookie : SetCookie) : Handler Unit :=
  Program.perform (Op.host (.setCookie cookie))
abbrev takeMagicLink (tokenHash : String) : Handler (Option MagicLinkRecord) :=
  Program.perform (Op.host (.takeMagicLink tokenHash))

/-- `if (condition) onEvent(event)`. -/
def onEventIf (condition : Bool) (event : AuthEvent) : Handler Unit :=
  if condition then onEvent event else pure ()

end host

end WorkersAuth

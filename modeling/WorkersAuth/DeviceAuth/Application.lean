import WorkersAuth.DeviceAuth.Routes
import WorkersAuth.Middleware

/-! The application around the routes: what else `createAuth` and `deviceAuth` offer it.
It mints sessions of its own, guards its routes with a fresh email verification, and manages the devices
of its accounts, all over the same two stores.
-/

namespace WorkersAuth.DeviceAuth

open Atomic

variable (platform : Platform) (cfg : Config)

-----------------------------------------------------------------------------------------
-- The interface
-----------------------------------------------------------------------------------------

/-- What the application asks for. The options of a session it mints have no entry under
`INTERNAL_AUTH_META`: that symbol is not exported. `maxAgeMs` is what `requireFreshEmailAuth` was made with.
-/
inductive AppRequest where
  | route (request : Request)
  | createSession (req : HttpRequest) (user : AuthUser) (options : CreateSessionOptions)
      (own : options.internal = {})
  | requireFreshEmailAuth (maxAgeMs : Millis) (req : HttpRequest)
  | listDevices (userId : String)
  | revokeDevice (userId deviceId : String)
  | revokeAllDevices (userId : String)
  | hasPin (userId : String)

/-- What it gets: a response, a session or the error thrown, the go-ahead with `user` and `authSession`
set, or a value.
-/
inductive AppAnswer where
  | response (res : Response)
  | minted (session : Except String Session)
  | next (user : AuthUser) (authSession : SessionInfo)
  | devices (devices : List DeviceInfo)
  | count (devices : Nat)
  | decided (value : Bool)

/-- The middleware `requireFreshEmailAuth` returns: only a session whose email verification is at most
so old goes on.
-/
def requireFreshEmailAuth (maxAgeMs : Millis) (req : HttpRequest) : Handler AppAnswer := do
  match ← gate platform cfg req with
  | .refused res => return .response res
  | .ok none => return .response unauthenticated
  | .ok (some session) =>
      match emailVerifiedAt session with
      | none => return .response emailVerificationRequired
      | some verifiedAt =>
          if (← host.clock) - verifiedAt > maxAgeMs then
            return .response emailVerificationRequired
          match sessionToUser session with
          | none => return .response unauthenticated
          | some user => return .next user (toSessionInfo session)

namespace App

def listDevices (userId : String) : Handler (List DeviceInfo) := do
  store.listDevices userId (← host.clock)

def revokeDevice (userId deviceId : String) : Handler Bool := do
  let revoked ← store.revokeDevice userId deviceId (← host.clock)
  host.onEventIf revoked (.deviceRevoked userId (some deviceId) none "app")
  return revoked

/-- As the route, but there is no request whose cookies could be cleared. -/
def revokeAllDevices (userId : String) : Handler Nat := do
  let count ← store.revokeAllDevices userId (← host.clock)
  host.onEvent (.deviceRevoked userId none (some count) "app")
  sessionStore.revokeAllForUser userId
  host.onEvent (.sessionsRevokedAll userId "app")
  return count

def hasPin (userId : String) : Handler Bool := do
  return (← store.getActiveCredential userId .pin).isSome

end App

def AppRequest.run : AppRequest → Handler AppAnswer
  | .route request => do return .response (← handle platform cfg request)
  | .createSession req user options _ => do
      return .minted (← createSessionFor platform cfg.auth req user options)
  | .requireFreshEmailAuth maxAgeMs req => DeviceAuth.requireFreshEmailAuth platform cfg maxAgeMs req
  | .listDevices userId => do return .devices (← App.listDevices userId)
  | .revokeDevice userId deviceId => do return .decided (← App.revokeDevice userId deviceId)
  | .revokeAllDevices userId => do return .count (← App.revokeAllDevices userId)
  | .hasPin userId => do return .decided (← App.hasPin userId)

/-- Any number of requests of the application and of its clients, over one store and one session store. -/
def application {σ : Type} (sessions : Semantics SessionCall SessionCall.Reply σ)
    : Service Op Op.Reply (World σ) AppRequest AppAnswer where
  program := AppRequest.run platform cfg
  exec := exec platform sessions

end WorkersAuth.DeviceAuth

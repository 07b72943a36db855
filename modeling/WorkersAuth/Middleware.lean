import WorkersAuth.Sessions

/-! The middleware: `middleware.ts` and the bearer provider.
A request is authenticated by its cookie session or by one of the providers. Only a cookie
session that is used has its idle window extended.
-/

namespace WorkersAuth

open Atomic

-----------------------------------------------------------------------------------------
-- Subjects
-----------------------------------------------------------------------------------------

/-- A session without its `sid`. -/
structure SessionInfo where
  userId : String
  subjectType : SubjectType
  createdAt : Millis
  lastSeenAt : Millis
  idleExpiresAt : Millis
  absoluteExpiresAt : Millis
  scope : Option SessionScope
  metadata : Option JsonObject

def toSessionInfo (session : Session) : SessionInfo :=
  { session with }

/-- The properties of a value that is spread: an array's are its indices. -/
def spread : Json → JsonObject
  | .obj fields => fields
  | .arr items => items.zipIdx.map (fun (item, index) => (toString index, item))
  | _ => []

/-- The subject of a session, or null without a `rateLimitId`. -/
def sessionToUser (session : Session) : Option AuthUser :=
  (sessionRateLimitId session).map (fun rateLimitId =>
    let claims := ((authMetaField session "claims").map spread).getD []
    {
      id := session.userId
      subjectType := session.subjectType
      email := (authMetaField session "email").bind Json.string?
      rateLimitId
      claims :=
        match (authMetaField session "provider").bind Json.string? with
        | some provider => JsonObject.set claims "provider" (.str provider)
        | none => claims
    })

-----------------------------------------------------------------------------------------
-- Providers
-----------------------------------------------------------------------------------------

/-- The call extends no session's idle window. -/
def Op.TouchesNone : Op → Prop
  | .session (.touch ..) => False
  | _ => True

theorem deviceBoundGet_touchesNone (sid : String) : (deviceBoundGet sid).Within Op.TouchesNone := by
  refine .perform trivial (fun session => ?_)
  cases session with
  | none => trivial
  | some session =>
      dsimp only
      split
      · trivial
      · refine .perform trivial (fun device => .perform trivial (fun readAt => ?_))
        split
        · trivial
        · exact .perform trivial (fun _ => trivial)

theorem StoreObject.get_touchesNone (store : StoreObject) (sid : String)
    : (store.get sid).Within Op.TouchesNone := by
  cases store with
  | plain => exact (Program.within_perform _ _).mpr trivial
  | deviceBound => exact deviceBoundGet_touchesNone sid

/-- Reading a session does not extend it. -/
theorem readCookieSession_touchesNone (config : AuthConfig) (req : HttpRequest)
    : (readCookieSession config req).Within Op.TouchesNone := by
  unfold readCookieSession
  split
  · trivial
  · exact (StoreObject.get_touchesNone _ _).bind (fun _ => trivial)

theorem readBearerSession_touchesNone (store : StoreObject) (req : HttpRequest)
    : (readBearerSession store req).Within Op.TouchesNone := by
  unfold readBearerSession
  split
  · trivial
  · exact (StoreObject.get_touchesNone _ _).bind (fun _ => trivial)

theorem previousSession_touchesNone (config : AuthConfig) (req : HttpRequest)
    (options : CreateSessionOptions)
    : (previousSession config req options).Within Op.TouchesNone := by
  unfold previousSession
  split
  · trivial
  · trivial
  · exact (readCookieSession_touchesNone config req).bind (fun _ => trivial)

theorem revokePrevious_touchesNone (previous : Option Session)
    : (revokePrevious previous).Within Op.TouchesNone := by
  cases previous with
  | none => trivial
  | some previous => exact (Program.within_perform _ _).mpr trivial

theorem issueCookies_touchesNone (platform : Platform) (config : AuthConfig) (bearer : Bool)
    (session : Session)
    : (issueCookies platform config bearer session).Within Op.TouchesNone := by
  cases bearer with
  | true => trivial
  | false => simp [issueCookies, randomToken, setSessionCookies, Op.TouchesNone]

/-- Minting a session extends none. -/
theorem createSessionFor_touchesNone (platform : Platform) (config : AuthConfig) (req : HttpRequest)
    (user : AuthUser) (options : CreateSessionOptions)
    : (createSessionFor platform config req user options).Within Op.TouchesNone := by
  unfold createSessionFor
  split
  · trivial
  split
  · trivial
  dsimp only
  split
  · trivial
  refine (previousSession_touchesNone config req options).bind (fun previous => ?_)
  refine (revokePrevious_touchesNone previous).bind (fun _ => .perform trivial (fun session => ?_))
  exact (issueCookies_touchesNone ..).bind (fun _ => .perform trivial (fun _ => trivial))

/-- A provider answers a subject, null, or the name of the error it has thrown. It only
verifies: no provider extends a session.
-/
structure AuthProvider where
  name : String
  verify : HttpRequest → Handler (Except String (Option AuthUser))
  touchesNone : ∀ req, (verify req).Within Op.TouchesNone

/-- The provider of bearer sessions. -/
def sessionBearer (store : StoreObject) (name : String := "session-bearer") : AuthProvider where
  name := name
  verify req := do
    let session ← readBearerSession store req
    return .ok (session.bind sessionToUser)
  touchesNone req := (readBearerSession_touchesNone store req).bind (fun _ => trivial)

/-- The first success of the providers in order. -/
def verifyProviders (req : HttpRequest) : List AuthProvider → Handler (Option AuthUser)
  | [] => return none
  | provider :: rest => do
      match ← provider.verify req with
      | .error name =>
          host.onEvent (.authFailed name (some provider.name))
          verifyProviders req rest
      | .ok none => verifyProviders req rest
      | .ok (some user) =>
          if user.rateLimitId = "" then
            host.onEvent (.authFailed "missing_rate_limit_id" (some provider.name))
            verifyProviders req rest
          else return some user

/-- Asking the providers extends no session, by induction on them. -/
theorem verifyProviders_touchesNone (req : HttpRequest) (providers : List AuthProvider)
    : (verifyProviders req providers).Within Op.TouchesNone := by
  induction providers with
  | nil => trivial
  | cons provider rest ih =>
      refine (provider.touchesNone req).bind (fun verified => ?_)
      rcases verified with name | user | user
      · exact .perform trivial (fun _ => ih)
      · exact ih
      · dsimp only
        split
        · exact .perform trivial (fun _ => ih)
        · trivial

-----------------------------------------------------------------------------------------
-- The middleware
-----------------------------------------------------------------------------------------

/-- The configuration a request is served with. -/
structure ResolvedAuthConfig extends AuthConfig where
  touchIntervalSec : ℚ
  providers : List AuthProvider
  touchInterval_nonneg : 0 ≤ touchIntervalSec

structure ResolvedRequestAuth where
  user : Option AuthUser
  session : Option Session
  csrfCookie : Option String

/-- Cookie session first, then the providers. -/
def resolveRequestAuth (config : ResolvedAuthConfig) (req : HttpRequest)
    : Handler ResolvedRequestAuth := do
  let { session, csrfCookie } ← readCookieSession config.toAuthConfig req
  match session.bind sessionToUser with
  | some user => return { user := some user, session, csrfCookie }
  | none =>
      let user ← verifyProviders req config.providers
      return { user, session := none, csrfCookie }

/-- Finding out who a request is from extends no session. -/
theorem resolveRequestAuth_touchesNone (config : ResolvedAuthConfig) (req : HttpRequest)
    : (resolveRequestAuth config req).Within Op.TouchesNone := by
  refine (readCookieSession_touchesNone _ req).bind (fun current => ?_)
  dsimp only
  split
  · trivial
  · exact (verifyProviders_touchesNone req _).bind (fun _ => trivial)

/-- What the middleware leaves: a response of its own, or `user` and `authSession` for `next()`. -/
inductive MiddlewareOutcome where
  | refused (response : Response)
  | next (user : Option AuthUser) (authSession : Option SessionInfo)

/-- The sliding window of the cookie session that was used. -/
def touchIfDue (config : ResolvedAuthConfig) (session : Option Session) : Handler Unit := do
  match session with
  | none => return
  | some session =>
      let readAt ← host.clock
      if config.touchIntervalSec * sec ≤ readAt - session.lastSeenAt then
        sessionStore.touch session.sid (readAt + config.session.idleTtlSec * sec)

def createMiddleware (platform : Platform) (config : ResolvedAuthConfig) (optional : Bool)
    (req : HttpRequest)
    : Handler MiddlewareOutcome := do
  let { user, session, csrfCookie } ← resolveRequestAuth config req
  match verifyCsrf platform req csrfCookie session.isSome false config.csrf with
  | some failure =>
      host.onEvent (.csrfFailed failure.reason)
      return .refused (.error 403 "csrf_failed")
  | none =>
      match user, optional with
      | none, true => return .next none none
      | none, false =>
          host.onEvent (.authFailed "no_credentials" none)
          return .refused (.error 401 "unauthenticated")
      | some user, _ =>
          touchIfDue config session
          return .next (some user) (session.map toSessionInfo)

end WorkersAuth

import WorkersAuth.DeviceAuth.Routes
import WorkersAuth.Middleware

/-! `POST /session` of `createRoutes`. -/

namespace WorkersAuth

open Atomic DeviceAuth

def SessionScope.toJson (scope : SessionScope) : Json :=
  .obj (optionalField "orgId" (scope.orgId.map .str) ++ optionalField "role" (scope.role.map .str))

/-- Public view of a session, without its sid. -/
def publicSession (session : Session) : Json :=
  .obj
    ([("userId", .str session.userId), ("subjectType", SubjectType.toJson session.subjectType),
        ("createdAt", .num session.createdAt), ("idleExpiresAt", .num session.idleExpiresAt),
        ("absoluteExpiresAt", .num session.absoluteExpiresAt)]
      ++ optionalField "scope" (session.scope.map SessionScope.toJson))

/-- `POST /session`: CSRF, then the providers, then a session. -/
def postSession (platform : Platform) (config : ResolvedAuthConfig) (req : HttpRequest)
    : Handler Response := do
  let current ← readCookieSession config.toAuthConfig req
  match verifyCsrf platform req current.csrfCookie current.session.isSome true config.csrf with
  | some failure =>
      host.onEvent (.csrfFailed failure.reason)
      return .error 403 "csrf_failed"
  | none =>
      match ← verifyProviders req config.providers with
      | none =>
          host.onEvent (.authFailed "no_credentials" none)
          return .error 401 "unauthenticated"
      | some user =>
          match ← createSessionFor platform config.toAuthConfig req user
              { previousSession := some current.session } with
          | .error _ => return .uncaught
          | .ok session =>
              return okResponse [("user", userJson user), ("session", publicSession session)]

end WorkersAuth

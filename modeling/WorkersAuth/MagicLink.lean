import Mathlib.Data.List.Infix
import WorkersAuth.Middleware
import WorkersAuth.Tables.Table

/-! The magic-link provider and its D1 store.
The store's table stands next to the rest of the world; only taking a token changes it.
-/

namespace WorkersAuth

open Atomic DeviceAuth Tables

/-- A row of `auth_magic_link_tokens`. -/
structure MagicLinkRow where
  tokenHash : String
  email : String
  expiresAt : Millis
  createdAt : Millis

abbrev MagicLinkTable := Table String MagicLinkRow MagicLinkRow.tokenHash

def MagicLinkRow.record (row : MagicLinkRow) : MagicLinkRecord where
  email := row.email
  expiresAt := row.expiresAt

/-- `DELETE … WHERE token_hash = ?1 RETURNING email, expires_at`. -/
def MagicLinkTable.take (table : MagicLinkTable) (tokenHash : String)
    : Option MagicLinkRecord × MagicLinkTable :=
  let (row, remaining) := table.deleteReturning tokenHash (fun _ => true)
  (row.map MagicLinkRow.record, remaining)

/-- The world of the other calls, and the table of a `d1MagicLinkStore`. -/
structure LinkedWorld (σ : Type) where
  base : World σ
  links : MagicLinkTable

/-- All calls, with the magic-link store at hand. -/
def execLinked {σ : Type} (platform : Platform) (sessions : Semantics SessionCall SessionCall.Reply σ)
    : Semantics Op Op.Reply (LinkedWorld σ)
  | .host (.takeMagicLink tokenHash), before, reply, after =>
      (reply, after.links) = before.links.take tokenHash ∧ after.base = before.base
  | op, before, reply, after =>
      exec platform sessions op before.base reply after.base ∧ after.links = before.links

structure MagicLinkOptions where
  getToken : HttpRequest → Option String
  /-- Whether a `resolveUser` hook is given. -/
  resolvesUser : Bool := false
  name : String := "magic-link"

/-- The token in the `x-magic-token` header or in a JSON body, as read without
`allowTokenInQuery`.
-/
def getMagicToken (req : HttpRequest) : Option String :=
  match (req.header "x-magic-token").filter (· ≠ "") with
  | some token => some token
  | none =>
      if "application/json".toList <:+: ((req.header "content-type").getD "").toList then
        (req.field "token").bind Json.string?
      else none

/-- The token that the provider looks up for a request. -/
def MagicLinkOptions.carried (options : MagicLinkOptions) (req : HttpRequest) : Option String :=
  (options.getToken req).filter (fun token => token ≠ "" && jsLength token ≤ 512)

/-- The subject of a verified address when there is no hook. -/
def MagicLinkOptions.userOf (options : MagicLinkOptions) (email : String) : AuthUser where
  id := email
  subjectType := .user
  email := some email
  rateLimitId := email
  claims := [("email", .str email), ("provider", .str options.name)]

/-- What the provider makes of the record of a token it has taken. -/
def acceptMagicLink (options : MagicLinkOptions) (record : MagicLinkRecord)
    : Handler (Option AuthUser) := do
  let readAt ← host.clock
  if record.expiresAt ≤ readAt then return none
  if options.resolvesUser then
    match ← host.resolveUser record.email with
    | none => return none
    | some user =>
        return some { user with claims := JsonObject.set user.claims "provider" (.str options.name) }
  return some (options.userOf record.email)

/-- `magicLink(options).verify`. -/
def verifyMagicLink (platform : Platform) (options : MagicLinkOptions) (req : HttpRequest)
    : Handler (Option AuthUser) := do
  match options.carried req with
  | none => return none
  | some token =>
      match ← host.takeMagicLink (sha256Hex platform token) with
      | none => return none
      | some record => acceptMagicLink options record

/-- Verifying a token extends no session. -/
theorem verifyMagicLink_touchesNone (platform : Platform) (options : MagicLinkOptions)
    (req : HttpRequest)
    : (verifyMagicLink platform options req).Within Op.TouchesNone := by
  unfold verifyMagicLink
  split
  · trivial
  · refine .perform trivial (fun taken => ?_)
    cases taken with
    | none => trivial
    | some record =>
        refine .perform trivial (fun readAt => ?_)
        split
        · trivial
        · split
          · refine .perform trivial (fun user => ?_)
            cases user <;> trivial
          · trivial

/-- The provider over a `d1MagicLinkStore`. -/
def magicLink (platform : Platform) (options : MagicLinkOptions) : AuthProvider where
  name := options.name
  verify req := do
    return .ok (← verifyMagicLink platform options req)
  touchesNone req := (verifyMagicLink_touchesNone platform options req).bind (fun _ => trivial)

end WorkersAuth

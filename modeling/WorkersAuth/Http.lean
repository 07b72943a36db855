import WorkersAuth.Crypto

/-! Requests as the handlers read them, responses, and the CSRF check on a request. -/

namespace WorkersAuth

/-- What `readJson` makes of a request body: too large, or a JSON object, or neither. -/
inductive JsonBody where
  | tooLarge
  | body (fields : Option JsonObject)

/-- The parts of a request the library reads. `header` is `headers.get` for lower-case
names, `cookie` the lookup in `parseCookies` of the `cookie` header.
-/
structure HttpRequest where
  method : String
  url : String
  header : String → Option String
  cookie : String → Option String
  body : JsonBody

/-- The property of the body's object, undefined when there is none. -/
def HttpRequest.field (req : HttpRequest) (name : String) : Option Json :=
  match req.body with
  | .tooLarge => none
  | .body fields => fields.bind (JsonObject.get · name)

/-- A status, a JSON body and the `retry-after` header when there is one. -/
structure Response where
  status : Nat
  body : Json
  retryAfterSec : Option ℤ := none

/-- `c.json({ error }, status)`. -/
def Response.error (status : Nat) (error : String) : Response :=
  { status, body := .obj [("error", .str error)] }

/-- What an uncaught exception becomes. -/
def Response.uncaught : Response := .error 500 "Internal Server Error"

-----------------------------------------------------------------------------------------
-- CSRF
-----------------------------------------------------------------------------------------

structure CsrfConfig where
  trustedOrigins : List String
  headerName : String
  dangerouslyDisable : Bool

inductive CsrfFailure where
  | originMissing
  | originMismatch
  | tokenMissing
  | tokenMismatch

def CsrfFailure.reason : CsrfFailure → String
  | .originMissing => "origin_missing"
  | .originMismatch => "origin_mismatch"
  | .tokenMissing => "token_missing"
  | .tokenMismatch => "token_mismatch"

/-- A failed check, or nothing when the check passes. -/
abbrev CsrfResult := Option CsrfFailure

def isStateChanging (method : String) : Bool :=
  method.toUpper ∉ ["GET", "HEAD", "OPTIONS"]

def canonicalOrigin (platform : Platform) (value : String) : Option String :=
  match platform.parseUrl value with
  | none => none
  | some url => if url.protocol = "" ∨ url.host = "" then none else some url.origin

def checkOrigin (platform : Platform) (req : HttpRequest) (trustedOrigins : List String)
    : CsrfResult :=
  match req.header "origin" with
  | none => some .originMissing
  | some raw =>
      if raw = "" ∨ raw = "null" then some .originMissing
      else
        match canonicalOrigin platform raw with
        | none => some .originMismatch
        | some origin =>
            if origin = "" then some .originMismatch
            else if canonicalOrigin platform req.url = some origin then none
            else if trustedOrigins.any (fun trusted => canonicalOrigin platform trusted = some origin)
            then none
            else some .originMismatch

/-- Absent and empty tokens are both missing. -/
def checkDoubleSubmit (platform : Platform) (req : HttpRequest) (cookieToken : Option String)
    (headerName : String)
    : CsrfResult :=
  match cookieToken.filter (· ≠ ""), (req.header headerName).filter (· ≠ "") with
  | some cookieToken, some headerToken =>
      if secretEquals platform cookieToken headerToken then none else some .tokenMismatch
  | _, _ => some .tokenMissing

def verifyCsrf (platform : Platform) (req : HttpRequest) (cookieToken : Option String)
    (cookieAuthenticated requireOrigin : Bool) (config : CsrfConfig)
    : CsrfResult :=
  let ambient := cookieAuthenticated || cookieToken.isSome
  if config.dangerouslyDisable then none
  else if !isStateChanging req.method then none
  else if !ambient && !requireOrigin then none
  else
    match checkOrigin platform req config.trustedOrigins with
    | some failure => some failure
    | none => if !ambient then none else checkDoubleSubmit platform req cookieToken config.headerName

end WorkersAuth

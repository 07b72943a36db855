import Mathlib.Data.List.DropRight

/-! The host that a reference names once it is resolved against a web URL.
References are read as the URL standard reads them: the ends are trimmed, tabs and newlines are
taken out anywhere, and a backslash counts as a slash.
-/

namespace Urls

/-- A scheme, a host and a port; the scheme's default port is none. -/
structure Origin (Host : Type) where
  scheme : String
  host : Host
  port : Option Nat
deriving DecidableEq

/-- A URL that references are resolved against, as far as its origin goes. -/
structure WebBase (Host : Type) extends Origin Host where
  scheme_web : scheme = "http" ∨ scheme = "https"

/-- What a parser does beyond the states below: the host parser of web URLs, and references that
begin with a scheme of their own.
-/
structure UrlParser (Host : Type) where
  parseHost : List Char → Option Host
  parseAbsolute : List Char → Option (Origin Host)

-----------------------------------------------------------------------------------------
-- Reading the input
-----------------------------------------------------------------------------------------

def isC0OrSpace (c : Char) : Bool := c.toNat ≤ 0x20

def isTabOrNewline (c : Char) : Bool := c = '\t' || c = '\n' || c = '\r'

/-- The URLs in question are special, so that either slash is one. -/
def isSlash (c : Char) : Bool := c = '/' || c = '\\'

def endsAuthority (c : Char) : Bool := isSlash c || c = '?' || c = '#'

/-- The ends are stripped of controls and spaces, and tabs and newlines go. -/
def clean (input : List Char) : List Char :=
  ((input.dropWhile isC0OrSpace).rdropWhile isC0OrSpace).filter (fun c => !isTabOrNewline c)

def isSchemeChar (c : Char) : Bool := c.isAlphanum || c = '+' || c = '-' || c = '.'

/-- The scheme states reach a colon. -/
def hasScheme : List Char → Bool
  | c :: rest => c.isAlpha && (rest.dropWhile isSchemeChar).head? = some ':'
  | [] => false

-----------------------------------------------------------------------------------------
-- The states
-----------------------------------------------------------------------------------------

variable {Host : Type}

def defaultPort (scheme : String) : Nat := if scheme = "http" then 80 else 443

/-- The text after the last `@`, before which the credentials stand. -/
def afterCredentials (authority : List Char) : List Char :=
  authority.rtakeWhile (fun c => c ≠ '@')

/-- The host, up to a colon outside brackets, and what follows that colon. -/
def splitHost (insideBrackets : Bool) : List Char → List Char × Option (List Char)
  | [] => ([], none)
  | c :: rest =>
      if c = ':' ∧ insideBrackets = false then
        ([], some rest)
      else
        let inside := if c = '[' then true else if c = ']' then false else insideBrackets
        let (host, port) := splitHost inside rest
        (c :: host, port)

/-- The port state: no digits name no port, and neither does the scheme's default. -/
def readPort (scheme : String) (digits : List Char) : Option (Option Nat) :=
  if digits.all Char.isDigit then
    let port := digits.foldl (fun value c => value * 10 + (c.toNat - '0'.toNat)) 0
    if digits = [] ∨ port = defaultPort scheme then
      some none
    else if port ≤ 65535 then
      some (some port)
    else
      none
  else
    none

/-- The authority, host and port states. -/
def authorityState (parser : UrlParser Host) (scheme : String) (input : List Char)
    : Option (Origin Host) :=
  match splitHost false (afterCredentials (input.takeWhile (fun c => !endsAuthority c))) with
  | ([], _) => none
  | (host, port) => do
      let host ← parser.parseHost host
      let port ← readPort scheme (port.getD [])
      return { scheme, host, port }

/-- The relative slash state: a second slash begins an authority, slashes before it ignored. -/
def relativeSlashState (parser : UrlParser Host) (base : WebBase Host)
    : List Char → Option (Origin Host)
  | c :: rest =>
      if isSlash c then
        authorityState parser base.scheme (rest.dropWhile isSlash)
      else
        some base.toOrigin
  | [] => some base.toOrigin

/-- The relative state: whatever begins with no slash keeps the authority of the base. -/
def relativeState (parser : UrlParser Host) (base : WebBase Host)
    : List Char → Option (Origin Host)
  | c :: rest => if isSlash c then relativeSlashState parser base rest else some base.toOrigin
  | [] => some base.toOrigin

/-- The origin of what a reference resolves to, when it resolves at all. -/
def resolve (parser : UrlParser Host) (base : WebBase Host) (reference : List Char)
    : Option (Origin Host) :=
  let input := clean reference
  if hasScheme input then parser.parseAbsolute input else relativeState parser base input

-----------------------------------------------------------------------------------------
-- References that begin with a slash
-----------------------------------------------------------------------------------------

/-- The end of a list is stripped behind an element that stays, by induction from the end. -/
theorem rdropWhile_cons_of_not {α : Type} {p : α → Bool} {kept : α} (rest : List α)
    (stays : p kept = false)
    : (kept :: rest).rdropWhile p = kept :: rest.rdropWhile p := by
  induction rest using List.reverseRecOn with
  | nil => simp [List.rdropWhile_singleton, stays]
  | append_singleton initial last ih =>
      rw [← List.cons_append]
      by_cases strips : p last = true
      · rw [List.rdropWhile_concat_pos _ _ _ strips, List.rdropWhile_concat_pos _ _ _ strips, ih]
      · rw [List.rdropWhile_concat_neg _ _ _ strips, List.rdropWhile_concat_neg _ _ _ strips,
          List.cons_append]

/-- A slash at the head is not stripped, nor anything before what follows it. -/
theorem clean_slash (rest : List Char)
    : clean ('/' :: rest)
      = '/' :: (rest.rdropWhile isC0OrSpace).filter (fun c => !isTabOrNewline c) := by
  have stays : isC0OrSpace '/' = false := by decide
  have printed : isTabOrNewline '/' = false := by decide
  rw [clean, List.dropWhile_cons_of_neg (by simp [stays]), rdropWhile_cons_of_not rest stays,
    List.filter_cons_of_pos (by simp [printed])]

/-- The text begins with a slash of either kind. -/
def beginsWithSlash (input : List Char) : Bool := input.head?.any isSlash

/-- Stripping the end neither removes nor uncovers a slash in front: no slash is stripped. -/
theorem beginsWithSlash_strip (input : List Char)
    : beginsWithSlash ((input.rdropWhile isC0OrSpace).filter (fun c => !isTabOrNewline c))
      = beginsWithSlash (input.filter (fun c => !isTabOrNewline c)) := by
  induction input using List.reverseRecOn with
  | nil => simp
  | append_singleton initial last ih =>
      by_cases strips : isC0OrSpace last = true
      · rw [List.rdropWhile_concat_pos _ _ _ strips, ih, List.filter_append]
        cases before : initial.filter (fun c => !isTabOrNewline c) with
        | cons head tail => simp [beginsWithSlash]
        | nil =>
            have other : isSlash last = false := by
              by_contra slash
              simp only [isSlash, Bool.not_eq_false, Bool.or_eq_true, decide_eq_true_eq] at slash
              rcases slash with rfl | rfl <;> exact absurd strips (by decide)
            by_cases removed : isTabOrNewline last = true
            · simp [removed]
            · simp [beginsWithSlash, removed, other]
      · rw [List.rdropWhile_concat_neg _ _ _ strips]

/-- The authority that a reference beginning with slashes names. -/
def namedAuthority (parser : UrlParser Host) (base : WebBase Host) (reference : List Char)
    : Option (Origin Host) :=
  authorityState parser base.scheme ((clean reference).dropWhile isSlash)

/-- A reference that begins with a slash names an authority when a second slash follows, tabs and
newlines apart, and keeps the authority of the base otherwise.
-/
theorem resolve_slash (parser : UrlParser Host) (base : WebBase Host) (rest : List Char)
    : resolve parser base ('/' :: rest)
      = if beginsWithSlash (rest.filter (fun c => !isTabOrNewline c)) then
          namedAuthority parser base ('/' :: rest)
        else
          some base.toOrigin := by
  have slash : isSlash '/' = true := by decide
  have schemeless : ∀ tail, hasScheme ('/' :: tail) = false := fun tail => by
    simp [hasScheme, show Char.isAlpha '/' = false from by decide]
  rw [← beginsWithSlash_strip, resolve, namedAuthority, clean_slash]
  cases (rest.rdropWhile isC0OrSpace).filter (fun c => !isTabOrNewline c) with
  | nil => simp [schemeless, relativeState, slash, relativeSlashState, beginsWithSlash]
  | cons second tail =>
      by_cases again : isSlash second = true
      · simp [schemeless, relativeState, slash, relativeSlashState, beginsWithSlash, again]
      · simp [schemeless, relativeState, slash, relativeSlashState, beginsWithSlash, again]

end Urls

import WorkersAuth.JsValues
import WorkersAuth.Sessions
import WorkersAuth.Stores.OneAtATime

/-! `createSessionFor` on whatever an application passes it, down to what the stores write.
TypeScript's types bind nobody at run time: the metadata, the scope and the claims are any
values, and each store turns them into text before its storage sees them.
-/

namespace WorkersAuth.Js

open Atomic Stores

-----------------------------------------------------------------------------------------
-- Arguments
-----------------------------------------------------------------------------------------

structure AuthUser where
  id : JsValue
  subjectType : JsValue
  email : JsValue
  rateLimitId : JsValue
  claims : JsValue

structure SessionLifetime where
  idleTtlSec : JsValue
  absoluteTtlSec : JsValue

/-- `internal` is the entry under `INTERNAL_AUTH_META`, which only the SDK's own modules set. -/
structure CreateSessionOptions where
  scope : JsValue := .undefined
  metadata : JsValue := .undefined
  previousSession : Option (Option Session) := none
  bearer : Bool := false
  ttl : Option SessionLifetime := none
  internal : InternalAuthMeta := {}

/-- What `createSession` throws: an error of its own, of `JSON.stringify` or of the storage. -/
inductive Failure where
  | typeError (message : String)
  | stringify
  | storage

-----------------------------------------------------------------------------------------
-- What the stores write
-----------------------------------------------------------------------------------------

structure NewSession where
  userId : JsValue
  subjectType : JsValue
  idleTtlSec : JsValue
  absoluteTtlSec : JsValue
  scope : Option JsValue
  metadata : JsObject

/-- The parameters of the SQL stores' `INSERT` but for the hash of the new id, or the text and the
`expirationTtl` of the KV store's `put`. A parameter that is `JSON.stringify(value)` is undefined
where the value has no JSON form.
-/
inductive Write where
  | row (userId subjectType : JsValue) (createdAt lastSeenAt idleExpiresAt absoluteExpiresAt : Millis)
    (scope metadata : Option (Option Json))
  | record (text : Option Json) (expirationTtl : ℤ)

/-- `Number.isFinite(value) && value > 0`. -/
def positive? (value : JsValue) : Option ℚ := value.finite?.filter (0 < ·)

@[simp] theorem positive?_num (value : ℚ)
    : positive? (.num value) = if 0 < value then some value else none := by
  simp [positive?, JsValue.finite?, Option.filter]

/-- `input.scope ? JSON.stringify(input.scope) : null`; nothing when `JSON.stringify` throws. -/
def textOrNull (value : Option JsValue) : Option (Option (Option Json)) :=
  match value with
  | none => some none
  | some value => value.stringify.map some

/-- A field that is only there when it has a value: `...(value ? { name: value } : {})`. -/
def optionalField (name : String) (value : Option JsValue) : JsObject :=
  (value.map (fun value => (name, value))).toList

/-- The parameters of `d1SessionStore` and `pgSessionStore`. -/
def writeRow (input : NewSession) (idleTtlSec absoluteTtlSec : ℚ) (readAt : Millis) : Option Write := do
  let absoluteExpiresAt := readAt + absoluteTtlSec * sec
  let idleExpiresAt := min (readAt + idleTtlSec * sec) absoluteExpiresAt
  let scope ← textOrNull input.scope
  let metadata ← textOrNull (some (.obj input.metadata))
  return .row input.userId input.subjectType readAt readAt idleExpiresAt absoluteExpiresAt scope metadata

/-- The text of `kvSessionStore`. -/
def writeRecord (input : NewSession) (idleTtlSec absoluteTtlSec : ℚ) (readAt : Millis)
    : Option Write := do
  let absoluteExpiresAt := readAt + absoluteTtlSec * sec
  let record : JsObject := [
      ("v", .num recordVersion),
      ("userId", input.userId),
      ("subjectType", input.subjectType),
      ("createdAt", .num readAt),
      ("absoluteExpiresAt", .num absoluteExpiresAt),
      ("idleTtlSec", .num idleTtlSec)
    ] ++ optionalField "scope" input.scope ++ [("meta", .obj input.metadata)]
  let text ← JsValue.stringify (.obj record)
  return .record text (ttlSecondsUntil absoluteExpiresAt readAt)

/-- What `create` of a store hands to its storage at a reading of the clock. -/
def write (store : SessionStore) (input : NewSession) (readAt : Millis) : Except Failure Write :=
  match positive? input.idleTtlSec, positive? input.absoluteTtlSec with
  | none, _ => .error (.typeError "session: idleTtlSec must be a positive number of seconds")
  | some _, none => .error (.typeError "session: absoluteTtlSec must be a positive number of seconds")
  | some idleTtlSec, some absoluteTtlSec =>
      let written := match store with
        | .d1 _ => writeRow input idleTtlSec absoluteTtlSec readAt
        | .pg _ => writeRow input idleTtlSec absoluteTtlSec readAt
        | .kv _ => writeRecord input idleTtlSec absoluteTtlSec readAt
      written.elim (.error .stringify) .ok

-----------------------------------------------------------------------------------------
-- `createSessionFor`
-----------------------------------------------------------------------------------------

variable (config : AuthConfig) (user : AuthUser) (options : CreateSessionOptions)

/-- `options.ttl ?? config.session`. -/
def lifetime : SessionLifetime :=
  options.ttl.getD ⟨.num config.session.idleTtlSec, .num config.session.absoluteTtlSec⟩

/-- The error for a lifetime that is not positive, or whose idle window outlasts the absolute one. -/
def lifetimeRefusal (ttl : SessionLifetime) : Option Failure :=
  let refused := some (.typeError "createSession: ttl needs positive idleTtlSec <= absoluteTtlSec")
  match positive? ttl.idleTtlSec, ttl.absoluteTtlSec.finite? with
  | some idleTtlSec, some absoluteTtlSec => if absoluteTtlSec < idleTtlSec then refused else none
  | _, _ => refused

/-- The checks before anything is done, and the error of the first that fails. -/
def refusal : Option Failure :=
  if user.rateLimitId.nonEmptyString?.isNone then
    some (.typeError "createSession: AuthUser.rateLimitId is required and must be a non-empty string")
  else
    match options.metadata.truthy, options.metadata.hasProperty authMetaKey with
    | true, none => some (.typeError "Cannot use 'in' operator")
    | true, some true => some (.typeError "createSession: \"__auth\" is reserved for the SDK; put application metadata under another key")
    | _, _ => lifetimeRefusal (lifetime config options)

/-- The record kept under the SDK's key; nothing when the claims have no properties to read. -/
def newAuthMeta : Option JsObject := do
  let provider ← user.claims.property "provider"
  return optionalField "email" (if user.email.truthy then some user.email else none)
    ++ optionalField "provider" (if provider.isString then some provider else none)
    ++ [("rateLimitId", user.rateLimitId)]
    ++ optionalField "claims" (if config.storeUserClaims then some user.claims else none)
    ++ optionalField "transport" (if options.bearer then some (.str "bearer") else none)
    ++ optionalField "emailVerifiedAt" (options.internal.emailVerifiedAt.map .num)
    ++ optionalField "deviceId" (options.internal.deviceId.map .str)

/-- The input of `create`, around the record under the SDK's key. -/
def requested (authMeta : JsObject) : NewSession where
  userId := user.id
  subjectType := user.subjectType
  idleTtlSec := (lifetime config options).idleTtlSec
  absoluteTtlSec := (lifetime config options).absoluteTtlSec
  scope := if options.scope.truthy then some options.scope else none
  metadata := JsObject.set options.metadata.spread authMetaKey (.obj authMeta)

/-- What the store is asked to create. -/
def newSession : Option NewSession :=
  (newAuthMeta config user options).map (requested config user options)

/-- Everything between the revocation and the storage: the write, or what is thrown instead. -/
def prepare (store : SessionStore) (readAt : Millis) : Except Failure Write :=
  match newSession config user options with
  | none => .error (.typeError "Cannot read properties of undefined")
  | some input => write store input readAt

/-- `createSessionFor`, over a store whose storage keeps a write as the session it stands for, or
refuses it.
-/
def createSessionFor (platform : Platform) (store : SessionStore)
    (keeps : Write → Option WorkersAuth.NewSession) (req : HttpRequest)
    : Handler (Except Failure Session) := do
  match refusal config user options with
  | some failure => return .error failure
  | none =>
      revokePrevious (← previousSession config req
        { bearer := options.bearer, previousSession := options.previousSession })
      match prepare config user options store (← host.clock) with
      | .error failure => return .error failure
      | .ok written =>
          match keeps written with
          | none => return .error .storage
          | some kept =>
              let session ← sessionStore.create kept
              issueCookies platform config options.bearer session
              host.onEvent (.sessionCreated session.userId session.subjectType
                (fingerprint platform session.sid))
              return .ok session

-----------------------------------------------------------------------------------------
-- Which arguments can be written
-----------------------------------------------------------------------------------------

/-- `JSON.stringify` of the value does not throw. -/
def Writable (value : JsValue) : Prop := value.stringify ≠ none

/-- Every part of the arguments that the store turns into text can be. -/
structure Serialisable (store : SessionStore) : Prop where
  readable : user.claims.property "provider" ≠ none
  metadata : ∀ field ∈ options.metadata.spread, field.1 ≠ authMetaKey → Writable field.2
  email : user.email.truthy = true → Writable user.email
  claims : config.storeUserClaims = true → Writable user.claims
  scope : options.scope.truthy = true → Writable options.scope
  subject : store.usesKv = true → Writable user.id ∧ Writable user.subjectType

variable {config user options}

@[simp] theorem writable_str (value : String) : Writable (.str value) := by
  simp [Writable, JsValue.stringify]

@[simp] theorem writable_num (value : ℚ) : Writable (.num value) := by
  simp [Writable, JsValue.stringify]

theorem writable_obj {fields : JsObject}
    : Writable (.obj fields) ↔ ∀ field ∈ fields, Writable field.2 := by
  simp [Writable, JsValue.stringify, JsValue.stringifyFields_eq_none_iff]

theorem writable_set {object : JsObject} {name : String} {value : JsValue}
    : Writable (.obj (JsObject.set object name value))
      ↔ Writable value ∧ ∀ field ∈ object, field.1 ≠ name → Writable field.2 := by
  simp [Writable, JsValue.stringify, JsValue.stringifyFields_set_eq_none_iff]

theorem writable_optionalField {name : String} {value : Option JsValue}
    : (∀ field ∈ optionalField name value, Writable field.2)
      ↔ ∀ own, value = some own → Writable own := by
  cases value <;> simp [optionalField]

theorem writable_optionalField_if {name : String} {value : JsValue} {condition : Bool}
    : (∀ field ∈ optionalField name (if condition then some value else none), Writable field.2)
      ↔ (condition = true → Writable value) := by
  cases condition <;> simp [optionalField]

/-- The SDK's record can be written when the email and the claims in it can. -/
theorem writable_newAuthMeta {fields : JsObject} (built : newAuthMeta config user options = some fields)
    (limited : user.rateLimitId.nonEmptyString? ≠ none)
    : Writable (.obj fields)
      ↔ (user.email.truthy = true → Writable user.email)
        ∧ (config.storeUserClaims = true → Writable user.claims) := by
  obtain ⟨provider, _, same⟩ := Option.bind_eq_some_iff.mp built
  obtain rfl := Option.some.inj same
  have limit : Writable user.rateLimitId := by
    cases given : user.rateLimitId <;> simp_all [JsValue.nonEmptyString?]
  have named : provider.isString = true → Writable provider := by
    cases provider <;> simp [JsValue.isString]
  have texts (text : Option String) (own : JsValue) (given : text.map JsValue.str = some own)
      : Writable own := by
    obtain ⟨_, _, rfl⟩ := Option.map_eq_some_iff.mp given
    exact writable_str _
  have numbers (moment : Option Millis) (own : JsValue) (given : moment.map JsValue.num = some own)
      : Writable own := by
    obtain ⟨_, _, rfl⟩ := Option.map_eq_some_iff.mp given
    exact writable_num _
  simp only [writable_obj, List.forall_mem_append, writable_optionalField_if, writable_optionalField,
    List.mem_singleton, forall_eq]
  constructor
  · rintro ⟨⟨⟨⟨⟨⟨email, _⟩, _⟩, claims⟩, _⟩, _⟩, _⟩
    exact ⟨email, claims⟩
  · rintro ⟨email, claims⟩
    exact ⟨⟨⟨⟨⟨⟨email, named⟩, limit⟩, claims⟩, fun _ => writable_str _⟩, numbers _⟩, texts _⟩

/-- The scope, when there is one, is written as a text of its own. -/
theorem textOrNull_ne_none {value : Option JsValue}
    : textOrNull value ≠ none ↔ ∀ own, value = some own → Writable own := by
  cases value <;> simp [textOrNull, Writable]

/-- The parameters can be made when the scope and the metadata can be written. -/
theorem writeRow_ne_none {input : NewSession} {idleTtlSec absoluteTtlSec : ℚ} {readAt : Millis}
    : writeRow input idleTtlSec absoluteTtlSec readAt ≠ none
      ↔ (∀ scope, input.scope = some scope → Writable scope) ∧ Writable (.obj input.metadata) := by
  have metadataText : textOrNull (some (.obj input.metadata))
      = (JsValue.stringify (.obj input.metadata)).map some := rfl
  rw [← textOrNull_ne_none]
  cases scope : textOrNull input.scope <;> cases metadata : JsValue.stringify (.obj input.metadata) <;>
    simp [writeRow, scope, metadataText, metadata, Writable]

/-- The text can be made when everything in it can be written. -/
theorem writeRecord_ne_none {input : NewSession} {idleTtlSec absoluteTtlSec : ℚ} {readAt : Millis}
    : writeRecord input idleTtlSec absoluteTtlSec readAt ≠ none
      ↔ (∀ scope, input.scope = some scope → Writable scope) ∧ Writable (.obj input.metadata)
        ∧ Writable input.userId ∧ Writable input.subjectType := by
  have text {fields : JsObject} {wrap : Option Json → Write}
      : (do let text ← JsValue.stringify (.obj fields); return wrap text) ≠ none
        ↔ ∀ field ∈ fields, Writable field.2 := by
    rw [← writable_obj]
    cases written : JsValue.stringify (.obj fields) <;> simp [Writable, written]
  rw [writeRecord, text]
  simp only [List.forall_mem_append, List.forall_mem_cons, writable_optionalField, writable_num,
    true_and, List.not_mem_nil, false_implies, implies_true, and_true]
  constructor
  · rintro ⟨⟨⟨user, subject⟩, scope⟩, metadata⟩
    exact ⟨scope, metadata, user, subject⟩
  · rintro ⟨scope, metadata, user, subject⟩
    exact ⟨⟨⟨user, subject⟩, scope⟩, metadata⟩

/-- A lifetime that is not refused has two positive numbers. -/
theorem lifetimeRefusal_none {ttl : SessionLifetime} (passes : lifetimeRefusal ttl = none)
    : ∃ idleTtlSec absoluteTtlSec, positive? ttl.idleTtlSec = some idleTtlSec
        ∧ positive? ttl.absoluteTtlSec = some absoluteTtlSec := by
  unfold lifetimeRefusal at passes
  dsimp only at passes
  split at passes
  · next idleTtlSec absoluteTtlSec idle finite =>
      split at passes
      · contradiction
      · next ordered =>
          have positive : 0 < idleTtlSec := by
            simpa using (Option.filter_eq_some_iff.mp idle).2
          refine ⟨idleTtlSec, absoluteTtlSec, idle, ?_⟩
          have later : 0 < absoluteTtlSec := lt_of_lt_of_le positive (not_lt.mp ordered)
          simp [positive?, finite, Option.filter, later]
  · contradiction

/-- The first checks leave a subject with a limit and a lifetime that is positive. -/
theorem passed_checks (passes : refusal config user options = none)
    : user.rateLimitId.nonEmptyString? ≠ none
      ∧ ∃ idleTtlSec absoluteTtlSec, positive? (lifetime config options).idleTtlSec = some idleTtlSec
        ∧ positive? (lifetime config options).absoluteTtlSec = some absoluteTtlSec := by
  unfold refusal at passes
  split at passes
  · contradiction
  · next limited =>
      refine ⟨by simpa using limited, lifetimeRefusal_none ?_⟩
      split at passes
      · contradiction
      · contradiction
      · exact passes

/-- A store can write a session of a positive lifetime when its parts can be written. -/
theorem write_isOk_iff {store : SessionStore} {input : NewSession} {idleTtlSec absoluteTtlSec : ℚ}
    {readAt : Millis} (idle : positive? input.idleTtlSec = some idleTtlSec)
    (absolute : positive? input.absoluteTtlSec = some absoluteTtlSec)
    : (∃ written, write store input readAt = .ok written)
      ↔ (∀ scope, input.scope = some scope → Writable scope) ∧ Writable (.obj input.metadata)
        ∧ (store.usesKv = true → Writable input.userId ∧ Writable input.subjectType) := by
  have row : writeRow input idleTtlSec absoluteTtlSec readAt ≠ none ↔ _ := writeRow_ne_none
  have record : writeRecord input idleTtlSec absoluteTtlSec readAt ≠ none ↔ _ := writeRecord_ne_none
  have wrote (written : Option Write)
      : (∃ own, written.elim (Except.error Failure.stringify) .ok = .ok own) ↔ written ≠ none := by
    cases written <;> simp
  simp only [write, idle, absolute, wrote]
  cases store with
  | d1 options => simpa [SessionStore.usesKv] using row
  | pg options => simpa [SessionStore.usesKv] using row
  | kv options => simpa [SessionStore.usesKv] using record

/-- What is thrown between the revocation and the storage: exactly when the arguments cannot be
written, on arguments that pass the first checks.
-/
theorem prepare_isOk_iff {store : SessionStore} (readAt : Millis)
    (passes : refusal config user options = none)
    : (∃ written, prepare config user options store readAt = .ok written)
      ↔ Serialisable config user options store := by
  obtain ⟨limited, idleTtlSec, absoluteTtlSec, idle, absolute⟩ := passed_checks passes
  cases built : newAuthMeta config user options with
  | none =>
      have unreadable : user.claims.property "provider" = none := by
        cases reads : user.claims.property "provider" with
        | none => rfl
        | some provider => simp [newAuthMeta, reads] at built
      constructor
      · simp [prepare, newSession, built]
      · intro serialisable
        exact absurd unreadable serialisable.readable
  | some fields =>
      have readable : user.claims.property "provider" ≠ none := by
        intro unreadable
        simp [newAuthMeta, unreadable] at built
      have record := writable_newAuthMeta built limited
      have asked : prepare config user options store readAt
          = write store (requested config user options fields) readAt := by
        simp [prepare, newSession, built]
      have scope : (∀ scope, (requested config user options fields).scope = some scope → Writable scope)
          ↔ (options.scope.truthy = true → Writable options.scope) := by
        cases given : options.scope.truthy <;> simp [requested, given]
      have metadata : Writable (.obj (requested config user options fields).metadata) ↔ _ := writable_set
      have written : (∃ written, write store (requested config user options fields) readAt = .ok written)
          ↔ _ := write_isOk_iff idle absolute
      rw [asked, written, scope, metadata, record]
      constructor
      · rintro ⟨scope, ⟨⟨email, claims⟩, metadata⟩, subject⟩
        exact ⟨readable, metadata, email, claims, scope, subject⟩
      · rintro ⟨_, metadata, email, claims, scope, subject⟩
        exact ⟨scope, ⟨⟨email, claims⟩, metadata⟩, subject⟩

-----------------------------------------------------------------------------------------
-- Arguments of the declared types
-----------------------------------------------------------------------------------------

/-- A string that may be missing. -/
def ofText? (text : Option String) : JsValue := (text.map .str).getD .undefined

def ofSubjectType : SubjectType → JsValue
  | .user => .str "user"
  | .service => .str "service"

def ofUser (user : WorkersAuth.AuthUser) : AuthUser where
  id := .str user.id
  subjectType := ofSubjectType user.subjectType
  email := ofText? user.email
  rateLimitId := .str user.rateLimitId
  claims := .obj (JsValue.ofFields user.claims)

def ofScope (scope : SessionScope) : Json :=
  .obj (WorkersAuth.optionalField "orgId" (scope.orgId.map .str)
    ++ WorkersAuth.optionalField "role" (scope.role.map .str))

def ofLifetime (ttl : WorkersAuth.SessionLifetime) : SessionLifetime where
  idleTtlSec := .num ttl.idleTtlSec
  absoluteTtlSec := .num ttl.absoluteTtlSec

def ofOptions (options : WorkersAuth.CreateSessionOptions) : CreateSessionOptions where
  scope := (options.scope.map (fun scope => JsValue.ofJson (ofScope scope))).getD .undefined
  metadata := (options.metadata.map (fun fields => JsValue.obj (JsValue.ofFields fields))).getD .undefined
  previousSession := options.previousSession
  bearer := options.bearer
  ttl := options.ttl.map ofLifetime
  internal := options.internal

def ofNewSession (input : WorkersAuth.NewSession) : NewSession where
  userId := .str input.userId
  subjectType := ofSubjectType input.subjectType
  idleTtlSec := .num input.idleTtlSec
  absoluteTtlSec := .num input.absoluteTtlSec
  scope := input.scope.map (fun scope => JsValue.ofJson (ofScope scope))
  metadata := JsValue.ofFields (input.metadata.getD [])

section Typed

variable {config : AuthConfig} {user : WorkersAuth.AuthUser}
  {options : WorkersAuth.CreateSessionOptions}

@[simp] theorem ofFields_optionalField (name : String) (value : Option Json)
    : JsValue.ofFields (WorkersAuth.optionalField name value)
      = optionalField name (value.map JsValue.ofJson) := by
  cases value <;> rfl

/-- The SDK's record of a user is written field by field as for one of the declared type. -/
theorem newAuthMeta_ofUser
    : newAuthMeta config (ofUser user) (ofOptions options)
      = some (JsValue.ofFields (WorkersAuth.newAuthMeta config user options)) := by
  have email : (if (ofUser user).email.truthy then some (ofUser user).email else none)
      = ((user.email.filter (· ≠ "")).map Json.str).map JsValue.ofJson := by
    cases given : user.email with
    | none => simp [ofUser, ofText?, JsValue.truthy, given]
    | some email =>
        by_cases empty : email = "" <;>
          simp [ofUser, ofText?, JsValue.truthy, given, empty, JsValue.ofJson]
  have provider : ∃ value, (ofUser user).claims.property "provider" = some value
      ∧ (if value.isString then some value else none)
        = (((user.claims.get "provider").bind Json.string?).map Json.str).map JsValue.ofJson := by
    refine ⟨_, rfl, ?_⟩
    rw [JsValue.get_ofFields]
    rcases user.claims.get "provider" with _ | value
    · rfl
    · cases value <;> rfl
  obtain ⟨value, reads, provider⟩ := provider
  simp only [newAuthMeta, reads, email, provider, WorkersAuth.newAuthMeta, JsValue.ofFields_append,
    ofFields_optionalField, Option.bind_eq_bind, Option.bind_some]
  refine congrArg some ?_
  cases config.storeUserClaims <;> cases bearer : options.bearer <;>
    simp [ofUser, ofOptions, bearer, JsValue.ofFields, JsValue.ofJson, Function.comp_def]

/-- The metadata of the declared type spreads to its fields. -/
theorem spread_ofOptions
    : (ofOptions options).metadata.spread = JsValue.ofFields (options.metadata.getD []) := by
  cases given : options.metadata <;> simp [ofOptions, given, JsValue.spread, JsValue.ofFields]

/-- The lifetime is the one of the declared type. -/
theorem lifetime_ofOptions
    : lifetime config (ofOptions options) = ofLifetime (options.ttl.getD config.session) := by
  cases given : options.ttl <;> simp [lifetime, ofOptions, given, ofLifetime]

/-- The store is asked for the same session. -/
theorem newSession_ofUser
    : newSession config (ofUser user) (ofOptions options)
      = some (ofNewSession
          (WorkersAuth.newSession config user options (options.ttl.getD config.session))) := by
  have scope : (if (ofOptions options).scope.truthy then some (ofOptions options).scope else none)
      = options.scope.map (fun scope => JsValue.ofJson (ofScope scope)) := by
    cases given : options.scope with
    | none => simp [ofOptions, given, JsValue.truthy]
    | some scope => simp [ofOptions, given, ofScope, JsValue.ofJson, JsValue.truthy]
  have metadata : JsObject.set (ofOptions options).metadata.spread authMetaKey
        (.obj (JsValue.ofFields (WorkersAuth.newAuthMeta config user options)))
      = JsValue.ofFields (JsonObject.set (options.metadata.getD []) authMetaKey
          (.obj (WorkersAuth.newAuthMeta config user options))) := by
    rw [spread_ofOptions, ← JsValue.set_ofFields]
    rfl
  simp only [newSession, newAuthMeta_ofUser, Option.map_some, requested, scope, lifetime_ofOptions,
    metadata]
  rfl

/-- JSON can always be written. -/
theorem write_ofNewSession {store : SessionStore} {input : WorkersAuth.NewSession} {readAt : Millis}
    (idle : 0 < input.idleTtlSec) (absolute : 0 < input.absoluteTtlSec)
    : ∃ written, write store (ofNewSession input) readAt = .ok written := by
  have idlePositive : positive? (ofNewSession input).idleTtlSec = some input.idleTtlSec := by
    simp [ofNewSession, idle]
  have absolutePositive : positive? (ofNewSession input).absoluteTtlSec = some input.absoluteTtlSec := by
    simp [ofNewSession, absolute]
  have row : ∃ written,
      writeRow (ofNewSession input) input.idleTtlSec input.absoluteTtlSec readAt = some written := by
    cases given : input.scope <;>
      simp [writeRow, textOrNull, ofNewSession, given, JsValue.stringify,
        JsValue.stringifyFields_ofFields]
  have record : ∃ written,
      writeRecord (ofNewSession input) input.idleTtlSec input.absoluteTtlSec readAt = some written := by
    cases given : input.scope <;> cases subject : input.subjectType <;>
      simp [writeRecord, optionalField, ofNewSession, given, subject, ofSubjectType,
        JsValue.stringify, JsValue.stringifyFields, JsValue.stringifyFields_ofFields]
  simp only [write, idlePositive, absolutePositive]
  cases store with
  | d1 options => obtain ⟨written, wrote⟩ := row; exact ⟨written, by simp [wrote]⟩
  | pg options => obtain ⟨written, wrote⟩ := row; exact ⟨written, by simp [wrote]⟩
  | kv options => obtain ⟨written, wrote⟩ := record; exact ⟨written, by simp [wrote]⟩

/-- The checks are those of `createSessionFor`. -/
theorem refusal_ofUser
    : refusal config (ofUser user) (ofOptions options) = none
      ↔ user.rateLimitId ≠ "" ∧ (options.metadata.getD []).get authMetaKey = none
        ∧ 0 < (options.ttl.getD config.session).idleTtlSec
        ∧ (options.ttl.getD config.session).idleTtlSec ≤ (options.ttl.getD config.session).absoluteTtlSec := by
  generalize ttl : options.ttl.getD config.session = lifetime
  have checked : lifetimeRefusal (Js.lifetime config (ofOptions options)) = none
      ↔ 0 < lifetime.idleTtlSec ∧ lifetime.idleTtlSec ≤ lifetime.absoluteTtlSec := by
    rw [lifetime_ofOptions, ttl]
    by_cases positive : 0 < lifetime.idleTtlSec <;>
      simp [lifetimeRefusal, ofLifetime, JsValue.finite?, positive]
  by_cases limited : user.rateLimitId = ""
  · simp [refusal, ofUser, JsValue.nonEmptyString?, limited]
  · cases given : options.metadata with
    | none =>
        have metadata : (ofOptions options).metadata = .undefined := by simp [ofOptions, given]
        simpa [refusal, ofUser, JsValue.nonEmptyString?, limited, metadata, JsValue.truthy,
          JsonObject.get] using checked
    | some fields =>
        have metadata : (ofOptions options).metadata = .obj (JsValue.ofFields fields) := by
          simp [ofOptions, given]
        cases reserved : JsonObject.get fields authMetaKey with
        | none =>
            simpa [refusal, ofUser, JsValue.nonEmptyString?, limited, metadata, JsValue.truthy,
              JsValue.hasProperty, reserved] using checked
        | some value =>
            simp [refusal, ofUser, JsValue.nonEmptyString?, limited, metadata, JsValue.truthy,
              JsValue.hasProperty, reserved]

end Typed

end WorkersAuth.Js

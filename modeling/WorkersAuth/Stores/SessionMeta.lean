import WorkersAuth.BearerTokens
import WorkersAuth.Stores.Deployment
import WorkersAuth.Stores.Provenance
import WorkersAuth.Stores.Serving

/-! What `createSessionFor` writes into a session and what its readers take out of it.
The SDK's own facts stand under one key of the metadata, which the application cannot set, and
the three stores keep the metadata as it is. So the subject, the facts of the device routes and
the transport come back as they were given.
-/

namespace WorkersAuth

-----------------------------------------------------------------------------------------
-- Properties of the metadata
-----------------------------------------------------------------------------------------

/-- A property that is set leaves the others as they are. -/
theorem JsonObject.get_set_ne {object : JsonObject} {name other : String} {value : Json}
    (different : other ≠ name) (absent : object.get name = none)
    : (JsonObject.set object name value).get other = object.get other := by
  rw [JsonObject.set, absent, if_neg (by simp), JsonObject.get_append, JsonObject.get_cons,
    if_neg (Ne.symm different)]
  exact Option.or_none

/-- Setting a property to the value it has changes nothing, where each name stands once. -/
theorem JsonObject.set_get {object : JsonObject} {name : String} {value : Json}
    (once : (object.map Prod.fst).Nodup) (has : object.get name = some value)
    : JsonObject.set object name value = object := by
  rw [JsonObject.set, if_pos (by simp [has])]
  obtain ⟨⟨first, own⟩, found, rfl⟩ := Option.map_eq_some_iff.mp has
  have named : first = name := by simpa using List.find?_some found
  have member := List.mem_of_find?_eq_some found
  refine (List.map_congr_left fun field inside => ?_).trans (List.map_id _)
  split
  · next same =>
      have unique := List.inj_on_of_nodup_map once inside member (same.trans named.symm)
      rw [unique, named]
      rfl
  · rfl

/-- The subject that a session minted for a user stands for. -/
def mintedSubject (config : AuthConfig) (user : AuthUser) : AuthUser where
  id := user.id
  subjectType := user.subjectType
  email := user.email.filter (· ≠ "")
  rateLimitId := user.rateLimitId
  claims :=
    let kept := if config.storeUserClaims then user.claims else []
    match (user.claims.get "provider").bind Json.string? with
    | some provider => JsonObject.set kept "provider" (.str provider)
    | none => kept

/-- With `storeUserClaims` the claims are the user's own, the provider among them. -/
theorem mintedSubject_claims {config : AuthConfig} {user : AuthUser}
    (stored : config.storeUserClaims = true) (once : (user.claims.map Prod.fst).Nodup)
    : (mintedSubject config user).claims = user.claims := by
  simp only [mintedSubject, stored, if_true]
  split
  · next provider has =>
      obtain ⟨value, found, string⟩ := Option.bind_eq_some_iff.mp has
      cases value <;> simp only [Json.string?, Option.some.injEq, reduceCtorEq] at string
      subst string
      exact JsonObject.set_get once found
  · rfl

variable {config : AuthConfig} {user : AuthUser} {options : CreateSessionOptions} {found : Session}

/-- What the readers of a session take out of it is what it was minted with. -/
structure ReadsAsMinted (config : AuthConfig) (user : AuthUser) (options : CreateSessionOptions)
    (found : Session)
    : Prop where
  subject : sessionToUser found = some (mintedSubject config user)
  scope : found.scope = options.scope
  application : ∀ name, name ≠ authMetaKey →
    found.metadata.bind (JsonObject.get · name) = options.metadata.bind (JsonObject.get · name)
  verified : emailVerifiedAt found = options.internal.emailVerifiedAt
  device : sessionBoundDeviceId found = options.internal.deviceId
  rateLimited : hasRateLimitId found = true
  transport : isBearerSession found = options.bearer

/-- A session with the fields that `createSessionFor` asks the store for reads as it was minted. -/
theorem readsAsMinted (limited : user.rateLimitId ≠ "")
    (reserved : (options.metadata.getD []).get authMetaKey = none)
    (id : found.userId = user.id) (subjectType : found.subjectType = user.subjectType)
    (scope : found.scope = options.scope)
    (metadata : found.metadata = some
      (JsonObject.set (options.metadata.getD []) authMetaKey (.obj (newAuthMeta config user options))))
    : ReadsAsMinted config user options found := by
  have field (name : String)
      : authMetaField found name = (newAuthMeta config user options).get name := by
    simp only [authMetaField, authMeta, metadata, Option.bind_some, JsonObject.get_set_self]
    rfl
  have limit : sessionRateLimitId found = some user.rateLimitId := by
    simp [sessionRateLimitId, field, newAuthMeta, Json.string?, limited]
  have back (text : Option String) : (text.map Json.str).bind Json.string? = text := by
    cases text <;> rfl
  have email : (authMetaField found "email").bind Json.string? = user.email.filter (· ≠ "") := by
    rw [field, ← back (user.email.filter (· ≠ ""))]
    simp [newAuthMeta]
  have provider : (authMetaField found "provider").bind Json.string?
      = (user.claims.get "provider").bind Json.string? := by
    rw [field, ← back ((user.claims.get "provider").bind Json.string?)]
    simp [newAuthMeta]
  have claims : ((authMetaField found "claims").map spread).getD []
      = if config.storeUserClaims then user.claims else [] := by
    rw [field]
    cases given : config.storeUserClaims <;> simp [newAuthMeta, given, spread]
  refine ⟨?_, scope, fun name different => ?_, ?_, ?_, ?_, ?_⟩
  · simp only [sessionToUser, limit, Option.map_some, email, provider, claims, id, subjectType]
    rfl
  · rw [metadata, Option.bind_some, JsonObject.get_set_ne different reserved]
    cases options.metadata <;> rfl
  · cases given : options.internal.emailVerifiedAt <;>
      simp [emailVerifiedAt, field, newAuthMeta, given, Json.number?]
  · cases given : options.internal.deviceId <;>
      simp [sessionBoundDeviceId, field, newAuthMeta, given, Json.string?]
  · simp [hasRateLimitId, limit]
  · cases given : options.bearer <;> simp [isBearerSession, field, newAuthMeta, given, Json.string?]

-----------------------------------------------------------------------------------------
-- The readers of a request
-----------------------------------------------------------------------------------------

namespace Stores

open Atomic Program

/-- One call a handler has made. -/
abbrev HandlerCall : Type := Call WorkersAuth.Op WorkersAuth.Op.Reply

/-- The session calls of a handler are calls of the store that have answered in a run. -/
def ServedBy (pool : Sessions) (calls : List HandlerCall) : Prop :=
  ∀ call reply, (⟨.session call, reply⟩ : HandlerCall) ∈ calls →
    ∃ index isolate, pool.Answered index (callOf isolate call) (answerOf call reply)

/-- The calls that read a live session: the store inside answers it, and where it is bound to a
device, the store object is device-bound and finds the device live.
-/
inductive ReadLive (object : StoreObject) (sid : String) (found : Session) : List HandlerCall → Prop
  | unbound (free : sessionBoundDeviceId found = none)
    : ReadLive object sid found [⟨.session (.get sid), some found⟩]
  | bound {deviceId : String} {device : Option DeviceAuth.DeviceRecord} {readAt : Millis}
      (bound : sessionBoundDeviceId found = some deviceId) (checks : object = .deviceBound)
      (live : deviceServes device found readAt = true)
    : ReadLive object sid found
        [⟨.session (.get sid), some found⟩, ⟨.store (.findDevice deviceId), device⟩, ⟨.host .clock, readAt⟩]

/-- Reading a live session answers it. -/
theorem ReadLive.get_leads {object : StoreObject} {sid : String} {found : Session}
    {calls : List HandlerCall} (reads : ReadLive object sid found calls)
    : (object.get sid).Leads calls (.pure (some found))
      ∧ deviceCheckApplied object found = true := by
  cases reads with
  | unbound free =>
      refine ⟨?_, by simp [deviceCheckApplied, free]⟩
      cases object with
      | plain => exact leads_perform.mpr rfl
      | deviceBound =>
          simp only [StoreObject.get, deviceBoundGet, perform_bind]
          refine leads_cons.mpr ⟨some found, rfl, ?_⟩
          simp [free]
  | bound bound checks live =>
      subst checks
      refine ⟨?_, by simp [deviceCheckApplied, isRegisteredDeviceBoundStore]⟩
      simp only [StoreObject.get, deviceBoundGet, perform_bind]
      refine leads_cons.mpr ⟨some found, rfl, ?_⟩
      simp only [bound]
      refine leads_cons.mpr ⟨_, rfl, leads_cons.mpr ⟨_, rfl, ?_⟩⟩
      simp [live]

/-- A minted session was asked of the store with the fields of `newSession`. -/
theorem createSessionFor_creates {platform : Platform} {config : AuthConfig} {req : HttpRequest}
    {user : AuthUser} {options : CreateSessionOptions} {calls : List HandlerCall} {session : Session}
    (mints : (createSessionFor platform config req user options).Leads calls (.pure (.ok session)))
    : user.rateLimitId ≠ "" ∧ (options.metadata.getD []).get authMetaKey = none
      ∧ (⟨.session (.create (newSession config user options (options.ttl.getD config.session))),
          session⟩ : HandlerCall) ∈ calls := by
  unfold createSessionFor at mints
  split at mints
  · simp at mints
  · next limited =>
    split at mints
    · simp at mints
    · next free =>
      dsimp only at mints
      split at mints
      · simp at mints
      · refine ⟨limited, by simpa using free, ?_⟩
        simp only [leads_bind_pure, perform_bind, leads_call_pure, pure_eq, leads_pure] at mints
        obtain ⟨_, _, _, rfl, _, _, _, _, rfl, _, created, _, rfl, _, _, _, rfl, _, _, _, rfl, rfl, same⟩ :=
          mints
        cases same
        simp

/-- A composition whose first part has answered goes on with what its second part answers. -/
theorem leads_then {α β : Type} {first : Handler α} {rest : α → Handler β} {calls : List HandlerCall}
    {answer : α} {result : β} (leads : first.Leads calls (.pure answer))
    (ends : rest answer = .pure result)
    : (first >>= rest).Leads calls (.pure result) :=
  leads_bind_pure.mpr ⟨calls, [], answer, by simp, leads, by simp [ends]⟩

section Readers

variable {object : StoreObject} {sid : String} {calls : List HandlerCall}

/-- The cookie reader accepts a live session that is not a bearer session. -/
theorem readCookieSession_leads (minted : ReadsAsMinted config user options found)
    (reads : ReadLive object sid found calls) {reader : AuthConfig} {visit : HttpRequest}
    (through : reader.store = object) (some_char : sid ≠ "")
    (cookie : visit.cookie reader.cookie.sessionCookieName = some sid)
    : (readCookieSession reader visit).Leads calls (.pure {
        session := if options.bearer then none else some found
        csrfCookie := visit.cookie reader.cookie.csrfCookieName }) := by
  obtain ⟨leads, checked⟩ := reads.get_leads
  have presented : (visit.cookie reader.cookie.sessionCookieName).filter (· ≠ "") = some sid := by
    simp [cookie, some_char]
  simp only [readCookieSession, presented, through]
  refine leads_then leads ?_
  cases transport : options.bearer <;>
    simp [minted.transport, minted.rateLimited, checked, transport]

/-- The bearer reader accepts a live bearer session. -/
theorem readBearerSession_leads (minted : ReadsAsMinted config user options found)
    (reads : ReadLive object sid found calls) {visit : HttpRequest}
    (presented : readBearerSessionId visit = some sid)
    : (readBearerSession object visit).Leads calls
        (.pure (if options.bearer then some found else none)) := by
  obtain ⟨leads, checked⟩ := reads.get_leads
  simp only [readBearerSession, presented]
  refine leads_then leads ?_
  cases transport : options.bearer <;>
    simp [minted.transport, minted.rateLimited, checked, transport]

end Readers

/-- What `createSessionFor` was given comes back from a session that is live. In any interleaving of
the calls of any of the three stores, when one of them answers a session minted so, the
subject it stands for, its scope, the application's own metadata and the facts of the device
routes are what they were given as, whatever the application's metadata is; and of the two
readers the cookie reader accepts it when it was minted without `bearer`, the bearer reader when
it was minted with it.
-/
theorem sessionMeta_survives {platform : Platform} {guarantees : Guarantees} {store : SessionStore}
    {moment : Millis} {pool : Sessions} {req : HttpRequest} {calls : List HandlerCall}
    {session : Session} {reader : Nat} (standard : StandardBtoa platform)
    (reach : (sessionService platform guarantees store).Reachable (.empty moment) pool)
    (mints : (createSessionFor platform config req user options).Leads calls (.pure (.ok session)))
    (served : ServedBy pool calls) (token : IsToken platform session.sid)
    (live : pool.Answered reader (.get session.sid) (.found (some found)))
    : ReadsAsMinted config user options found
      ∧ ∀ object reads, ReadLive object session.sid found reads →
          (∀ (current : AuthConfig) (visit : HttpRequest), current.store = object →
            visit.cookie current.cookie.sessionCookieName = some session.sid →
            (readCookieSession current visit).Leads reads (.pure {
              session := if options.bearer then none else some found
              csrfCookie := visit.cookie current.cookie.csrfCookieName }))
          ∧ ∀ visit : HttpRequest,
              visit.header "authorization" = some ("Bearer " ++ bearerSessionToken session.sid) →
              (readBearerSession object visit).Leads reads
                (.pure (if options.bearer then some found else none)) := by
  obtain ⟨limited, reserved, made⟩ := createSessionFor_creates mints
  obtain ⟨creator, isolate, created⟩ := served _ _ made
  obtain ⟨_, facts⟩ := get_carries reach created live
  obtain ⟨allowed, length⟩ := token.chars standard
  have minted : ReadsAsMinted config user options found :=
    readsAsMinted limited reserved (congrArg SessionFacts.userId facts)
      (congrArg SessionFacts.subjectType facts) (congrArg SessionFacts.scope facts)
      (congrArg SessionFacts.metadata facts)
  refine ⟨minted, fun object reads live => ⟨fun current visit through cookie => ?_, fun visit header => ?_⟩⟩
  · have some_char : session.sid ≠ "" := by
      intro empty
      rw [empty] at length
      contradiction
    exact readCookieSession_leads minted live through some_char cookie
  · exact readBearerSession_leads minted live (readBearerSessionId_token allowed length header)

namespace Sample

/-- The sample platform with a `btoa` for all bytes. -/
def encodingPlatform : Platform :=
  { platform with btoa := fun bytes => String.ofList (Encodings.base64 bytes) }

/-- A bearer session on a device, next to metadata with the names that the SDK uses. -/
def deviceSession : CreateSessionOptions where
  metadata := some [("deviceId", .str "other"), ("rateLimitId", .str "other")]
  bearer := true
  internal := { emailVerifiedAt := some 1000, deviceId := some "60616263" }

def deviceInput : NewSession :=
  newSession WorkersAuth.Sample.auth WorkersAuth.Sample.user deviceSession WorkersAuth.Sample.auth.session

end Sample

/-- A bearer session on a device is minted in D1 and read a second later. -/
theorem sessionMeta_survives_played
    : ∃ pool, ∃ session found : Session,
        (sessionService Sample.encodingPlatform ⟨anyClock, .strong⟩ Sample.d1).Reachable Sample.empty pool
        ∧ pool.Answered 1 (.get session.sid) (.found (some found))
        ∧ ReadsAsMinted WorkersAuth.Sample.auth WorkersAuth.Sample.user Sample.deviceSession found := by
  let service := sessionService Sample.encodingPlatform ⟨anyClock, .strong⟩ Sample.d1
  let arrived := service.arrive (.start Sample.empty) (.create Sample.deviceInput)
  obtain ⟨pool, played, shown⟩ := (Option.any_eq_true ..).mp
    (show (service.play (compute Sample.encodingPlatform anyClock .strong) (fun _ _ => true) arrived
        (Sample.calls 0 4 { token := Sample.sid }
          ++ .arrive (.get Sample.sid) :: Sample.calls 1 3 { now := 1000 })).any
        (fun pool => Sample.hasCreated pool 0 && Sample.hasGot pool 1 Option.isSome) = true by
      decide +kernel)
  have played_run : service.RunWhen (fun _ _ => True) arrived pool :=
    Service.play_runWhen (compute_sound Sample.encodingPlatform anyClock .strong)
      (fun _ _ _ => trivial) played
  have run : service.Run arrived pool := played_run.run
  have reach : service.Reachable Sample.empty pool := .head (.arrive _) run
  obtain ⟨created, got⟩ := (Bool.and_eq_true ..).mp shown
  obtain ⟨input, session, answered, same⟩ := Sample.hasCreated_answered created
  obtain ⟨answer, found, present⟩ := Sample.hasGot_answered got
  obtain ⟨live, rfl⟩ := Option.isSome_iff_exists.mp present
  obtain rfl : input = Sample.deviceInput := by
    have first : arrived.requestOf 0 = some (.create Sample.deviceInput) := rfl
    have serves := Service.requestOf_run run first
    rw [Pool.requestOf, answered] at serves
    cases serves
    rfl
  have mints : (createSessionFor Sample.encodingPlatform WorkersAuth.Sample.auth
      (WorkersAuth.Sample.request []) WorkersAuth.Sample.user Sample.deviceSession).Leads
        [
          ⟨.session (.create Sample.deviceInput), session⟩,
          ⟨.host (.onEvent (.sessionCreated session.userId session.subjectType
            (fingerprint Sample.encodingPlatform session.sid))), ()⟩
        ]
        (.pure (.ok session)) := by
    refine leads_cons.mpr ⟨session, rfl, leads_cons.mpr ⟨(), rfl, leads_pure.mpr ⟨rfl, rfl⟩⟩⟩
  have served : ServedBy pool
      [
        ⟨.session (.create Sample.deviceInput), session⟩,
        ⟨.host (.onEvent (.sessionCreated session.userId session.subjectType
          (fingerprint Sample.encodingPlatform session.sid))), ()⟩
      ] := by
    intro call reply member
    rcases List.mem_cons.mp member with created | later
    · cases created
      exact ⟨0, 0, answered⟩
    · simp at later
  have token : IsToken Sample.encodingPlatform session.sid := by
    refine ⟨(List.range 32).map (fun index => UInt8.ofNat (index + 96)), by decide, ?_⟩
    rw [same, base64urlEncode_eq (fun _ => rfl)]
    decide +kernel
  have reads := sessionMeta_survives (fun _ => rfl) reach mints served token (same ▸ found)
  exact ⟨pool, session, live, reach, same ▸ found, reads.1⟩

end Stores

end WorkersAuth

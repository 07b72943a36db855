import WorkersAuth.Atomic.Trace
import WorkersAuth.DeviceAuth.Application
import WorkersAuth.DeviceAuth.PinLogin

/-! What a fresh email verification rests on.
`POST /pin` and `requireFreshEmailAuth` read the time of the verification off the session. It has come
there through the session store, and only `POST /email/verify` puts it there, once it has consumed a code.
-/

namespace WorkersAuth.DeviceAuth

open Atomic

variable (platform : Platform) (cfg : Config)

-----------------------------------------------------------------------------------------
-- The protocol
-----------------------------------------------------------------------------------------

/-- A code for the address of the request was consumed, and the address resolved to this user; the
request's clock read this time.
-/
def CodeConsumed (req : HttpRequest) (history : List (Call Op Op.Reply)) (userId : String)
    (verifiedAt : Millis)
    : Prop :=
  ∃ email codeHash user, readEmail cfg (req.field "email") = some email
    ∧ ⟨.host .clock, verifiedAt⟩ ∈ history
    ∧ ⟨.store (.consumeEmailCode email codeHash), true⟩ ∈ history
    ∧ ⟨.host (.resolveUser email), some user⟩ ∈ history ∧ user.id = userId

/-- A session of the user was read that carries an email verification of at most this age. -/
def ReadsFresh (history : List (Call Op Op.Reply)) (userId : String) (maxAgeMs : Millis) : Prop :=
  ∃ sid session now verifiedAt, ⟨.session (.get sid), some session⟩ ∈ history ∧ session.userId = userId
    ∧ emailVerifiedAt session = some verifiedAt ∧ ⟨.host .clock, now⟩ ∈ history
    ∧ now - verifiedAt ≤ maxAgeMs

/-- A session with this metadata carries the time of an email verification. -/
def Claims (metadata : Option JsonObject) (verifiedAt : Millis) : Prop :=
  ∃ session : Session, session.metadata = metadata ∧ emailVerifiedAt session = some verifiedAt

/-- A PIN is set on a session that is fresh, and a session carries an email verification only when the
request that mints it has consumed the code.
-/
def freshProtocol (journal : Journal Op Op.Reply AppRequest) : Op → Prop
  | .store (.replaceCredential record _) =>
      (∃ req, journal.request = .route (.setPin req))
      ∧ ReadsFresh journal.history record.accountId cfg.freshMs
  | .session (.create input) => ∀ verifiedAt, Claims input.metadata verifiedAt →
      ∃ req, journal.request = .route (.emailVerify req)
        ∧ CodeConsumed cfg req journal.history input.userId verifiedAt
  | _ => True

abbrev freshMonitor : Monitor Op Op.Reply (Journal Op Op.Reply AppRequest) :=
  .journal (freshProtocol cfg) (Replies platform)

/-- Whoever goes on past the guard has a fresh session. -/
def GoesOnFresh (journal : Journal Op Op.Reply AppRequest) (answer : AppAnswer) : Prop :=
  ∀ maxAgeMs req user info, journal.request = .requireFreshEmailAuth maxAgeMs req
    → answer = .next user info → ReadsFresh journal.history user.id maxAgeMs

/-- A call that neither sets a PIN nor mints a session. -/
def mintsNothing : Op → Prop
  | .store (.replaceCredential ..) => False
  | .session (.create _) => False
  | _ => True

variable {platform cfg} {journal : Journal Op Op.Reply AppRequest} {request : AppRequest}
  {calls : List (Call Op Op.Reply)}

theorem freshProtocol_of_mintsNothing {op : Op} (free : mintsNothing op)
    : freshProtocol cfg journal op := by
  rcases op with call | call | call
  · cases call <;> first | exact free.elim | trivial
  · cases call <;> first | exact free.elim | trivial
  · trivial

theorem mintsNothing_of_incidental {op : Op} (incidental : op.Incidental) : mintsNothing op := by
  rcases op with call | call | call
  · cases call <;> first | exact incidental.elim | trivial
  · cases call <;> first | exact incidental.elim | trivial
  · trivial

/-- A part of a request that sets no PIN and mints no session, then the rest. -/
theorem fresh_plumbing {α β : Type} {part : Handler β} {rest : β → Handler α}
    {post : Journal Op Op.Reply AppRequest → α → Prop} (within : part.Within mintsNothing)
    (knows : journal.Knows request calls)
    (later : ∀ answer next, Journal.Knows request calls next
      → (rest answer).Obeys (freshMonitor platform cfg) post next)
    : (part >>= rest).Obeys (freshMonitor platform cfg) post journal :=
  within.obeys_journal (fun _ _ _ => freshProtocol_of_mintsNothing) knows later

/-- A part of a request that sets no PIN and mints no session, and nothing after it. -/
theorem fresh_free {α : Type} {part : Handler α} (within : part.Within mintsNothing)
    : part.Obeys (freshMonitor platform cfg) (fun _ _ => True) journal :=
  within.obeys_free (fun _ _ => freshProtocol_of_mintsNothing)

/-- What was consumed stays consumed. -/
theorem CodeConsumed.later {req : HttpRequest} {history longer : List (Call Op Op.Reply)} {userId : String}
    {verifiedAt : Millis} (consumed : CodeConsumed cfg req history userId verifiedAt)
    (grown : history ⊆ longer)
    : CodeConsumed cfg req longer userId verifiedAt := by
  obtain ⟨email, codeHash, user, address, clock, consumes, resolves, same⟩ := consumed
  exact ⟨email, codeHash, user, address, grown clock, grown consumes, grown resolves, same⟩

-----------------------------------------------------------------------------------------
-- Reading a session
-----------------------------------------------------------------------------------------

/-- A store serves a session only as its own `get` has answered it. -/
theorem storeGet_reads (store : StoreObject) (sid : String) (knows : journal.Knows request calls)
    : (store.get sid).Obeys (freshMonitor platform cfg)
        (fun next answer => next.Knows request calls
          ∧ ∀ session, answer = some session →
            next.Knows request (⟨.session (.get sid), some session⟩ :: calls)) journal := by
  cases store with
  | plain =>
      refine .perform trivial (fun found _ => ?_)
      refine .answer ⟨knows.write _ _, ?_⟩
      rintro session rfl
      exact knows.add _ _
  | deviceBound =>
      refine .perform trivial (fun found _ => ?_)
      have kept := knows.write (.session (.get sid)) found
      cases found with
      | none => exact .answer ⟨kept, by simp⟩
      | some session =>
          have added := knows.add (.session (.get sid)) (some session)
          dsimp only
          split
          · refine .answer ⟨kept, ?_⟩
            rintro _ ⟨⟩
            exact added
          · refine .perform trivial (fun device _ => .perform trivial (fun readAt _ => ?_))
            split
            · refine .answer ⟨(kept.write _ _).write _ _, ?_⟩
              rintro _ ⟨⟩
              exact (added.write _ _).write _ _
            · refine .perform trivial (fun _ _ => .answer ⟨?_, by simp⟩)
              exact ((kept.write _ _).write _ _).write _ _

/-- The session was read from the store. -/
def ReadBy (request : AppRequest) (calls : List (Call Op Op.Reply))
    (next : Journal Op Op.Reply AppRequest) (found : Option Session)
    : Prop :=
  next.Knows request calls
  ∧ ∀ session, found = some session →
    ∃ sid, next.Knows request (⟨.session (.get sid), some session⟩ :: calls)

/-- Both readers answer a session of the store, or none. -/
theorem readBearerSession_reads (store : StoreObject) (req : HttpRequest)
    (knows : journal.Knows request calls)
    : (readBearerSession store req).Obeys (freshMonitor platform cfg) (ReadBy request calls) journal := by
  unfold readBearerSession
  split
  · exact .answer ⟨knows, by simp⟩
  next sid _ =>
  refine (storeGet_reads store sid knows).bind (fun next found kept => ?_)
  refine .answer ⟨kept.1, fun session served => ?_⟩
  exact ⟨sid, kept.2 session (Option.filter_eq_some_iff.mp served).1⟩

theorem readCookieSession_reads (config : AuthConfig) (req : HttpRequest)
    (knows : journal.Knows request calls)
    : (readCookieSession config req).Obeys (freshMonitor platform cfg)
        (fun next current => ReadBy request calls next current.session) journal := by
  unfold readCookieSession
  split
  · exact .answer ⟨knows, by simp⟩
  next sid _ =>
  refine (storeGet_reads config.store sid knows).bind (fun next found kept => ?_)
  refine .answer ⟨kept.1, fun session served => ?_⟩
  exact ⟨sid, kept.2 session (Option.filter_eq_some_iff.mp served).1⟩

/-- The session a request comes with was read from the store. -/
theorem gate_reads (req : HttpRequest) (knows : journal.Knows request calls)
    : (gate platform cfg req).Obeys (freshMonitor platform cfg)
        (fun next answer => next.Knows request calls
          ∧ ∀ found, answer = .ok found → ReadBy request calls next found) journal := by
  unfold gate
  split
  · refine (readBearerSession_reads cfg.auth.store req knows).bind (fun next found read => ?_)
    refine .answer ⟨read.1, ?_⟩
    rintro _ ⟨⟩
    exact read
  · refine (readCookieSession_reads cfg.auth req knows).bind (fun next current read => ?_)
    split
    · exact .perform trivial (fun _ _ => .answer ⟨read.1.write _ _, by simp⟩)
    · refine .answer ⟨read.1, ?_⟩
      rintro _ ⟨⟩
      exact read

-----------------------------------------------------------------------------------------
-- Minting a session
-----------------------------------------------------------------------------------------

/-- What a minted session carries is what its options say. -/
theorem claims_newSession {config : AuthConfig} {user : AuthUser} {options : CreateSessionOptions}
    {ttl : SessionLifetime} {verifiedAt : Millis}
    (claims : Claims (newSession config user options ttl).metadata verifiedAt)
    : options.internal.emailVerifiedAt = some verifiedAt := by
  obtain ⟨session, same, carried⟩ := claims
  have field (name : String)
      : authMetaField session name = JsonObject.get (newAuthMeta config user options) name := by
    simp only [authMetaField, authMeta, same, newSession, Option.bind_some, JsonObject.get_set_self]
    rfl
  cases given : options.internal.emailVerifiedAt with
  | none => simp [emailVerifiedAt, field, newAuthMeta, given] at carried
  | some at_ =>
      simp only [emailVerifiedAt, field, newAuthMeta, given] at carried
      simpa [Json.number?] using carried

/-- A session is minted with the email verification its options give, if that is the request's own. -/
theorem createSessionFor_fresh {http : HttpRequest} {user : AuthUser} {options : CreateSessionOptions}
    (knows : journal.Knows request calls)
    (own : ∀ verifiedAt, options.internal.emailVerifiedAt = some verifiedAt →
      ∃ req, request = .route (.emailVerify req) ∧ CodeConsumed cfg req calls user.id verifiedAt)
    : (createSessionFor platform cfg.auth http user options).Obeys (freshMonitor platform cfg)
        (fun _ _ => True) journal := by
  have incidental {α : Type} {part : Handler α} (within : part.Within Op.Incidental)
      : part.Within mintsNothing := within.mono (fun _ => mintsNothing_of_incidental)
  unfold createSessionFor
  split
  · trivial
  split
  · trivial
  dsimp only
  split
  · trivial
  refine fresh_plumbing (incidental (previousSession_incidental ..)) knows
    (fun previous journal knows => ?_)
  refine fresh_plumbing (incidental ?_) knows (fun _ journal knows => ?_)
  · cases previous <;> simp [revokePrevious, Op.Incidental]
  refine .perform ?_ (fun session _ => ?_)
  · intro verifiedAt claims
    obtain ⟨req, same, consumed⟩ := own verifiedAt (claims_newSession claims)
    exact ⟨req, knows.request_eq.trans same, consumed.later knows.recorded⟩
  · refine fresh_free ?_
    exact (incidental (issueCookies_incidental ..)).bind (fun _ => .perform trivial (fun _ => trivial))

/-- So it is in either transport. -/
theorem mintSession_fresh {http : HttpRequest} {user : AuthUser} {internal : InternalAuthMeta}
    (knows : journal.Knows request calls)
    (own : ∀ verifiedAt, internal.emailVerifiedAt = some verifiedAt →
      ∃ req, request = .route (.emailVerify req) ∧ CodeConsumed cfg req calls user.id verifiedAt)
    : (mintSession platform cfg http user internal).Obeys (freshMonitor platform cfg)
        (fun _ _ => True) journal := by
  unfold mintSession
  split
  · refine (createSessionFor_fresh knows own).bind (fun next minted _ => ?_)
    cases minted <;> trivial
  · refine (createSessionFor_fresh knows own).bind (fun next minted _ => ?_)
    cases minted <;> trivial

-----------------------------------------------------------------------------------------
-- The routes
-----------------------------------------------------------------------------------------

theorem within_mintsNothing {α : Type} {part : Handler α} (within : part.Within Op.Incidental)
    : part.Within mintsNothing :=
  within.mono (fun _ => mintsNothing_of_incidental)

theorem registerDevice_mintsNothing (user : AuthUser) (email : String) (label : Option String)
    (now : Millis)
    : (registerDevice platform cfg user email label now).Within mintsNothing := by
  refine .perform trivial (fun id => ?_)
  refine (within_mintsNothing (randomToken_incidental platform)).bind (fun secret => ?_)
  refine .perform trivial (fun _ => ?_)
  refine (within_mintsNothing (setDeviceCookie_incidental ..)).bind (fun _ => ?_)
  exact .perform trivial (fun _ => trivial)

theorem trustedDevice_mintsNothing (req : HttpRequest) (user : AuthUser) (email : String) (now : Millis)
    (trustDevice : Bool) (label : Option String)
    : (trustedDevice platform cfg req user email now trustDevice label).Within mintsNothing := by
  have register : (registerDevice platform cfg user email label now).Within mintsNothing :=
    registerDevice_mintsNothing user email label now
  unfold trustedDevice
  split
  · trivial
  refine (within_mintsNothing (readDevice_incidental ..)).bind (fun presented => ?_)
  split
  · refine .perform trivial (fun touched => ?_)
    split
    · exact (within_mintsNothing (setDeviceCookie_incidental ..)).bind (fun _ => trivial)
    · exact register.bind (fun _ => trivial)
  · exact register.bind (fun _ => trivial)

/-- A code that is compared and refused mints nothing. -/
theorem invalid_mintsNothing (email reason : String) (now : Millis)
    : (invalid platform cfg email now reason).Within mintsNothing :=
  .perform trivial (fun _ => (checked_within cfg _ (fun _ => trivial)).bind (fun _ => trivial))

/-- From the accepted code on, a session is minted with the time the request's clock has read. -/
theorem emailVerified_fresh {req : HttpRequest} {resolved : AuthUser} {email : String} {now : Millis}
    {trustDevice : Bool} {label : Option String}
    (knows : journal.Knows (.route (.emailVerify req)) calls)
    (consumed : CodeConsumed cfg req calls resolved.id now)
    : (emailVerified platform cfg req resolved email now trustDevice label).Obeys
        (freshMonitor platform cfg) (fun _ _ => True) journal := by
  unfold emailVerified
  refine fresh_plumbing (.perform trivial (fun _ => trivial)) knows (fun _ journal knows => ?_)
  refine fresh_plumbing (.perform trivial (fun _ => trivial)) knows (fun before journal knows => ?_)
  refine fresh_plumbing (within_mintsNothing (onEventIf_incidental (by trivial))) knows
    (fun _ journal knows => ?_)
  refine fresh_plumbing (trustedDevice_mintsNothing ..) knows (fun trusted journal knows => ?_)
  refine (mintSession_fresh knows ?_).bind (fun journal minted _ => ?_)
  · rintro verifiedAt ⟨⟩
    exact ⟨req, rfl, consumed⟩
  · split
    · trivial
    · exact fresh_free (.perform trivial (fun _ => trivial))

/-- The code is consumed and the address resolved before a session is minted. -/
theorem checkCode_fresh {req : HttpRequest} {email code : String} {now : Millis} {budget : Budget}
    {slot : WindowCount} {trustDevice : Bool} {label : Option String}
    (knows : journal.Knows (.route (.emailVerify req)) [⟨.host .clock, now⟩])
    (address : readEmail cfg (req.field "email") = some email)
    : (checkCode platform cfg req email code now budget slot trustDevice label).Obeys
        (freshMonitor platform cfg) (fun _ _ => True) journal := by
  unfold checkCode
  refine fresh_plumbing (.perform trivial (fun _ => trivial)) knows (fun reserved journal knows => ?_)
  split
  · exact fresh_free (.perform trivial (fun _ => .perform trivial (fun _ => trivial)))
  next reserved =>
  split
  · exact fresh_free (invalid_mintsNothing ..)
  split
  · exact fresh_free (invalid_mintsNothing ..)
  refine .recall knows trivial (fun consumed journal _ knows => ?_)
  split
  · exact fresh_free (invalid_mintsNothing ..)
  next taken =>
  obtain rfl : consumed = true := by simpa using taken
  refine .recall knows trivial (fun found journal _ knows => ?_)
  split
  · exact fresh_free (invalid_mintsNothing ..)
  next resolved accepted =>
  obtain ⟨rfl, -⟩ := Option.filter_eq_some_iff.mp accepted
  refine fresh_plumbing (.perform trivial (fun _ => trivial)) knows (fun _ journal knows => ?_)
  refine fresh_plumbing (checked_within cfg _ (fun _ => trivial)) knows (fun _ journal knows => ?_)
  refine emailVerified_fresh knows
    ⟨email, reserved.codeHash, resolved, address, ?_, ?_, ?_, rfl⟩
  · exact List.mem_cons_of_mem _ (List.mem_cons_of_mem _ List.mem_cons_self)
  · exact List.mem_cons_of_mem _ List.mem_cons_self
  · exact List.mem_cons_self

/-- `POST /email/verify` mints a session once it has consumed a code. -/
theorem emailVerify_fresh (req : HttpRequest)
    : (emailVerify platform cfg req).Obeys (freshMonitor platform cfg) (fun _ _ => True)
        ⟨.route (.emailVerify req), []⟩ := by
  have quiet {op : Op} (allowed : preludeCalls true op) (journal : Journal Op Op.Reply AppRequest)
      : freshProtocol cfg journal op := by
    refine freshProtocol_of_mintsNothing ?_
    rcases op with call | call | call
    · cases call <;> first | exact allowed.elim | trivial
    · cases call <;> first | exact allowed.elim | trivial
    · trivial
  have skips : Skips (freshMonitor platform cfg) true
      (fun journal => Journal.Knows (.route (.emailVerify req)) [] journal)
      (fun now journal => ⟨.host .clock, now⟩ ∈ journal.history) :=
    ⟨fun journal op knows allowed => ⟨quiet allowed journal, fun reply => Journal.Knows.write knows op reply⟩,
      fun journal now _ => List.mem_append_right _ (List.mem_singleton_self _),
      fun journal op now _ read _ reply => List.mem_append_left _ read⟩
  refine emailVerify_obeys platform cfg req skips ⟨rfl, by simp⟩ (fun _ _ _ _ => trivial)
    (fun journal email code now device knows clock address _ => ?_)
  have knows : journal.Knows (.route (.emailVerify req)) [⟨.host .clock, now⟩] :=
    ⟨knows.request_eq, by simpa using clock⟩
  unfold reserveSlot
  refine fresh_plumbing (.perform trivial (fun _ => trivial)) knows (fun slot journal knows => ?_)
  split
  · exact fresh_free (.perform trivial (fun _ => .perform trivial (fun _ => trivial)))
  · exact checkCode_fresh knows address

/-- `POST /pin` sets a PIN on a session that was verified so lately. -/
theorem setPin_fresh (req : HttpRequest)
    : (setPin platform cfg req).Obeys (freshMonitor platform cfg) (fun _ _ => True)
        ⟨.route (.setPin req), []⟩ := by
  have start : (⟨.route (.setPin req), []⟩ : Journal Op Op.Reply AppRequest).Knows
      (.route (.setPin req)) [] := ⟨rfl, by simp⟩
  unfold setPin
  refine (gate_reads req start).bind (fun journal gated read => ?_)
  split
  · trivial
  · trivial
  next session =>
  obtain ⟨sid, knows⟩ := (read.2 _ rfl).2 session rfl
  refine .recall knows trivial (fun now journal _ knows => ?_)
  split
  · trivial
  next verifiedAt carried =>
  split
  · trivial
  next young =>
  split
  · trivial
  split
  case h_2 => trivial
  split
  · trivial
  refine fresh_plumbing ?_ knows (fun enrolled journal knows => ?_)
  · exact enroll_within platform (fun _ => mintsNothing_of_incidental) (fun _ _ _ _ => trivial)
  split
  case h_2 => trivial
  refine fresh_plumbing (.perform trivial (fun _ => trivial)) knows (fun bytes journal knows => ?_)
  refine .perform ?_ (fun result _ => ?_)
  · refine ⟨⟨req, knows.request_eq⟩, sid, session, now, verifiedAt, ?_, rfl, carried, ?_, not_lt.mp young⟩
    · exact knows.recorded _ (List.mem_cons_of_mem _ List.mem_cons_self)
    · exact knows.recorded _ List.mem_cons_self
  · refine fresh_free (.perform trivial (fun _ => ?_))
    split
    · refine (within_mintsNothing (onEventIf_incidental (by trivial))).bind (fun _ => ?_)
      exact (within_mintsNothing (revokeAllSessions_incidental ..)).bind (fun _ => trivial)
    · trivial

/-- `POST /pin/login` mints a session that carries no email verification. -/
theorem pinLogin_fresh (req : HttpRequest)
    : (pinLogin platform cfg req).Obeys (freshMonitor platform cfg) (fun _ _ => True)
        ⟨.route (.pinLogin req), []⟩ := by
  have quiet {op : Op} (allowed : preludeCalls false op) (journal : Journal Op Op.Reply AppRequest)
      : freshProtocol cfg journal op := by
    refine freshProtocol_of_mintsNothing ?_
    rcases op with call | call | call
    · cases call <;> first | exact allowed.elim | trivial
    · cases call <;> first | exact allowed.elim | trivial
    · trivial
  have skips : Skips (freshMonitor platform cfg) false
      (fun journal => Journal.Knows (.route (.pinLogin req)) [] journal)
      (fun _ journal => Journal.Knows (.route (.pinLogin req)) [] journal) :=
    ⟨fun journal op knows allowed => ⟨quiet allowed journal, fun reply => Journal.Knows.write knows op reply⟩,
      fun journal now knows => Journal.Knows.write knows (.host .clock) now,
      fun journal op now _ knows _ reply => Journal.Knows.write knows op reply⟩
  refine pinLogin_obeys platform cfg req skips ⟨rfl, by simp⟩ (fun _ _ _ _ => trivial)
    (fun journal pin now _ knows _ => ?_)
  refine fresh_plumbing (within_mintsNothing (readDevice_incidental ..)) knows
    (fun presented journal knows => ?_)
  split
  · exact fresh_free (.perform trivial (fun _ => trivial))
  refine fresh_plumbing (.perform trivial (fun _ => trivial)) knows (fun loaded journal knows => ?_)
  split
  · exact fresh_free (.perform trivial (fun _ => trivial))
  refine fresh_plumbing (.perform trivial (fun _ => trivial)) knows (fun granted journal knows => ?_)
  split
  · exact fresh_free (.perform trivial (fun _ => trivial))
  refine fresh_plumbing ?_ knows (fun verified journal knows => ?_)
  · exact pinVerify_within platform (fun _ => mintsNothing_of_incidental) (fun _ _ _ _ => trivial)
  split
  · trivial
  · refine fresh_free (.perform trivial (fun _ => ?_))
    split
    · exact .perform trivial (fun _ => .perform trivial (fun _ => trivial))
    · trivial
  refine fresh_plumbing (.perform trivial (fun _ => trivial)) knows (fun _ journal knows => ?_)
  refine fresh_plumbing (.perform trivial (fun _ => trivial)) knows (fun _ journal knows => ?_)
  refine fresh_plumbing (.perform trivial (fun _ => trivial)) knows (fun resolved journal knows => ?_)
  split
  · exact fresh_free (.perform trivial (fun _ => trivial))
  refine fresh_plumbing (.perform trivial (fun _ => trivial)) knows (fun touched journal knows => ?_)
  split
  · exact fresh_free (.perform trivial (fun _ => trivial))
  refine fresh_plumbing (within_mintsNothing (setDeviceCookie_incidental ..)) knows
    (fun _ journal knows => ?_)
  refine (mintSession_fresh knows (fun _ none_ => by cases none_)).bind (fun journal minted _ => ?_)
  split
  · trivial
  · exact fresh_free (.perform trivial (fun _ => trivial))

/-- Every request to a route keeps to the protocol, by cases on the route. -/
theorem handle_fresh (request : Request)
    : (handle platform cfg request).Obeys (freshMonitor platform cfg) (fun _ _ => True)
        ⟨.route request, []⟩ := by
  have footprint := handle_within platform cfg request
  cases request with
  | emailVerify req => exact emailVerify_fresh req
  | setPin req => exact setPin_fresh req
  | pinLogin req => exact pinLogin_fresh req
  | _ =>
      refine fresh_free (footprint.mono (fun op allowed => ?_))
      rcases op with call | call | call
      · cases call <;> first | exact allowed.elim | trivial
      · cases call <;> first | exact allowed.elim | trivial
      · trivial

/-- The guard lets on only on a session that was verified so lately. -/
theorem requireFreshEmailAuth_fresh (maxAgeMs : Millis) (req : HttpRequest)
    : (requireFreshEmailAuth platform cfg maxAgeMs req).Obeys (freshMonitor platform cfg) GoesOnFresh
        ⟨.requireFreshEmailAuth maxAgeMs req, []⟩ := by
  have start : (⟨.requireFreshEmailAuth maxAgeMs req, []⟩ : Journal Op Op.Reply AppRequest).Knows
      (.requireFreshEmailAuth maxAgeMs req) [] := ⟨rfl, by simp⟩
  have refused (journal : Journal Op Op.Reply AppRequest) (res : Response)
      : (Program.pure (.response res) : Handler AppAnswer).Obeys (freshMonitor platform cfg) GoesOnFresh
          journal :=
    .answer (fun _ _ _ _ _ other => by cases other)
  unfold requireFreshEmailAuth
  refine (gate_reads req start).bind (fun journal gated read => ?_)
  split
  · exact refused _ _
  · exact refused _ _
  next session =>
  obtain ⟨sid, knows⟩ := (read.2 _ rfl).2 session rfl
  split
  · exact refused _ _
  next verifiedAt carried =>
  refine .recall knows trivial (fun now journal _ knows => ?_)
  split
  · exact refused _ _
  next young =>
  split
  · exact refused _ _
  next user subject =>
  refine .answer ?_
  rintro other _ _ _ asked ⟨⟩
  cases knows.request_eq.symm.trans asked
  obtain ⟨_, _, rfl⟩ := Option.map_eq_some_iff.mp subject
  refine ⟨sid, session, now, verifiedAt, ?_, rfl, carried, ?_, not_lt.mp young⟩
  · exact knows.recorded _ (List.mem_cons_of_mem _ List.mem_cons_self)
  · exact knows.recorded _ List.mem_cons_self

/-- Every request of the application keeps to the protocol, by cases on it. -/
theorem run_fresh (request : AppRequest)
    : (request.run platform cfg).Obeys (freshMonitor platform cfg) GoesOnFresh ⟨request, []⟩ := by
  have otherwise {α : Type} {part : Handler α} {answer : α → AppAnswer}
      (obeys : part.Obeys (freshMonitor platform cfg) (fun _ _ => True) ⟨request, []⟩)
      (apart : ∀ value user info, answer value ≠ .next user info)
      : (part >>= fun value => Program.pure (answer value)).Obeys (freshMonitor platform cfg) GoesOnFresh
          ⟨request, []⟩ :=
    obeys.bind (fun _ value _ => .answer (fun _ _ user info _ same => absurd same (apart value user info)))
  cases request with
  | route request => exact otherwise (handle_fresh request) (fun _ _ _ same => by cases same)
  | createSession req user options own =>
      have start : (⟨.createSession req user options own, []⟩ : Journal Op Op.Reply AppRequest).Knows
          (.createSession req user options own) [] := ⟨rfl, by simp⟩
      refine otherwise (createSessionFor_fresh start (fun _ given => ?_)) (fun _ _ _ same => by cases same)
      simp [own] at given
  | requireFreshEmailAuth maxAgeMs req => exact requireFreshEmailAuth_fresh maxAgeMs req
  | listDevices userId =>
      exact otherwise (fresh_free (.perform trivial (fun _ => .perform trivial (fun _ => trivial))))
        (fun _ _ _ same => by cases same)
  | revokeDevice userId deviceId =>
      refine otherwise (fresh_free (.perform trivial (fun _ => .perform trivial (fun revoked => ?_))))
        (fun _ _ _ same => by cases same)
      exact (within_mintsNothing (onEventIf_incidental (by trivial))).bind (fun _ => trivial)
  | revokeAllDevices userId =>
      exact otherwise (fresh_free (.perform trivial (fun _ => .perform trivial (fun _ =>
        .perform trivial (fun _ => .perform trivial (fun _ => .perform trivial (fun _ => trivial)))))))
        (fun _ _ _ same => by cases same)
  | hasPin userId =>
      exact otherwise (fresh_free (.perform trivial (fun _ => trivial))) (fun _ _ _ same => by cases same)

end WorkersAuth.DeviceAuth

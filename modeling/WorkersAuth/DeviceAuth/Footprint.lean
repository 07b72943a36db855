import WorkersAuth.DeviceAuth.Routes

/-! Which calls each route can make, whatever the replies.
Most calls of a handler only look around: they read the session, ask the hooks or the
clock, look a device up. A proof about one kind of statement skips all the others at once
through these bounds.
-/

namespace WorkersAuth

open Atomic DeviceAuth

-----------------------------------------------------------------------------------------
-- Incidental calls
-----------------------------------------------------------------------------------------

/-- Calls that leave the device-auth tables as they are and neither mint a session nor derive
a PIN nor report on an email code: other session calls, hooks, the clock, randomness,
cookies, a device lookup.
-/
def Op.Incidental : Op → Prop
  | .session (.create _) => False
  | .session _ => True
  | .store (.findDevice _) => True
  | .store _ => False
  | .host (.derive ..) => False
  | .host (.onEvent (.emailCodeFailed ..)) => False
  | .host (.onEvent (.emailCodeVerified ..)) => False
  | .host _ => True

theorem deviceBoundGet_incidental (sid : String) : (deviceBoundGet sid).Within Op.Incidental := by
  simp only [deviceBoundGet, Program.perform_bind, Program.within_call, Op.Incidental, true_and]
  intro session
  split
  · split
    · trivial
    · simp only [Program.within_call, Op.Incidental, true_and]
      intro device readAt
      split <;> simp [Op.Incidental]
  · trivial

theorem StoreObject.get_incidental (store : StoreObject) (sid : String)
    : (store.get sid).Within Op.Incidental := by
  cases store with
  | plain => simp [StoreObject.get, Op.Incidental]
  | deviceBound => exact deviceBoundGet_incidental sid

theorem readCookieSession_incidental (config : AuthConfig) (req : HttpRequest)
    : (readCookieSession config req).Within Op.Incidental := by
  unfold readCookieSession
  split
  · trivial
  · exact (StoreObject.get_incidental _ _).bind (fun _ => trivial)

theorem readBearerSession_incidental (store : StoreObject) (req : HttpRequest)
    : (readBearerSession store req).Within Op.Incidental := by
  unfold readBearerSession
  split
  · trivial
  · exact (StoreObject.get_incidental _ _).bind (fun _ => trivial)

theorem randomToken_incidental (platform : Platform)
    : (randomToken platform).Within Op.Incidental := by
  simp [randomToken, Op.Incidental]

theorem previousSession_incidental (config : AuthConfig) (req : HttpRequest)
    (options : CreateSessionOptions)
    : (previousSession config req options).Within Op.Incidental := by
  unfold previousSession
  split
  · trivial
  · trivial
  · exact (readCookieSession_incidental config req).bind (fun _ => trivial)

theorem issueCookies_incidental (platform : Platform) (config : AuthConfig) (bearer : Bool)
    (session : Session)
    : (issueCookies platform config bearer session).Within Op.Incidental := by
  cases bearer with
  | true => trivial
  | false =>
      refine ⟨trivial, fun _ => (randomToken_incidental platform).bind (fun _ => ?_)⟩
      simp [setSessionCookies, Op.Incidental]

/-- The calls that mint a session: its creation and whatever is incidental. -/
def Op.Minting : Op → Prop
  | .session _ => True
  | op => op.Incidental

theorem minting_of_incidental {op : Op} (incidental : op.Incidental) : op.Minting := by
  cases op with
  | session call => trivial
  | host call => exact incidental
  | store call => exact incidental

/-- Minting a session: the previous session, the new one, its cookies and the event. -/
theorem createSessionFor_within (platform : Platform) (config : AuthConfig)
    (req : HttpRequest) (user : AuthUser) (options : CreateSessionOptions)
    : (createSessionFor platform config req user options).Within Op.Minting := by
  have minting {α : Type} {part : Handler α} (within : part.Within Op.Incidental) :=
    within.mono (fun _ => minting_of_incidental)
  unfold createSessionFor
  split
  · trivial
  split
  · trivial
  dsimp only
  split
  · trivial
  refine (minting (previousSession_incidental config req options)).bind (fun previous => ?_)
  refine Program.Within.bind ?_ (fun _ => ⟨trivial, fun session => ?_⟩)
  · cases previous <;> simp [revokePrevious, Op.Minting]
  · refine (minting (issueCookies_incidental ..)).bind (fun _ => ?_)
    simp [Op.Minting, Op.Incidental]

namespace DeviceAuth

variable (platform : Platform) (cfg : Config)

theorem gate_incidental (req : HttpRequest) : (gate platform cfg req).Within Op.Incidental := by
  unfold gate
  split
  · exact (readBearerSession_incidental _ _).bind (fun _ => trivial)
  · refine (readCookieSession_incidental _ _).bind (fun current => ?_)
    split <;> simp [Op.Incidental]

theorem botRefused_incidental (action : BotCheckAction)
    : (botRefused cfg action).Within Op.Incidental := by
  unfold botRefused
  split
  · trivial
  · refine .perform trivial (fun passed => ?_)
    split <;> simp [Op.Incidental]

theorem readDevice_incidental (req : HttpRequest) (now : Millis)
    : (readDevice platform cfg req now).Within Op.Incidental := by
  unfold readDevice
  split
  · trivial
  · refine .perform trivial (fun found => ?_)
    split
    · split
      · trivial
      · split
        · trivial
        · split <;> trivial
    · trivial

theorem deviceOfAddress_incidental (req : HttpRequest) (email : String) (now : Millis)
    : (deviceOfAddress platform cfg req email now).Within Op.Incidental :=
  (readDevice_incidental platform cfg req now).bind (fun _ => trivial)

theorem setDeviceCookie_incidental (token : String) (expiresAt now : Millis)
    : (setDeviceCookie cfg token expiresAt now).Within Op.Incidental := by
  unfold setDeviceCookie
  split <;> simp [Op.Incidental]

theorem clearDeviceCookie_incidental : (clearDeviceCookie cfg).Within Op.Incidental := by
  unfold clearDeviceCookie
  split <;> simp [Op.Incidental]

theorem forgetSessionCookies_incidental : (forgetSessionCookies cfg).Within Op.Incidental := by
  unfold forgetSessionCookies
  split <;> simp [clearSessionCookies, Op.Incidental]

theorem revokeAllSessions_incidental (userId reason : String)
    : (revokeAllSessions cfg userId reason).Within Op.Incidental :=
  ⟨trivial, fun _ => ⟨trivial, fun _ => forgetSessionCookies_incidental cfg⟩⟩

theorem revokeOwn_incidental (session : Option Session)
    : (revokeOwn platform session).Within Op.Incidental := by
  cases session <;> simp [revokeOwn, Op.Incidental]

theorem mintSession_within (req : HttpRequest) (user : AuthUser) (internal : InternalAuthMeta)
    : (mintSession platform cfg req user internal).Within Op.Minting := by
  unfold mintSession
  split
  · refine (createSessionFor_within ..).bind (fun minted => ?_)
    cases minted <;> trivial
  · refine (createSessionFor_within ..).bind (fun minted => ?_)
    cases minted <;> trivial

/-- An event that says nothing about an email code is incidental, reported or not. -/
theorem onEventIf_incidental {condition : Bool} {event : AuthEvent}
    (routine : Op.Incidental (.host (.onEvent event)))
    : (host.onEventIf condition event).Within Op.Incidental := by
  unfold host.onEventIf
  split
  · simpa using routine
  · trivial

-----------------------------------------------------------------------------------------
-- The calls of each route
-----------------------------------------------------------------------------------------

/-- The buckets that count checked failures: `otp-fail:<address hash>` and
`otp-fail:device:<id>`.
-/
def FailureBucket (bucket : String) : Prop :=
  bucket.toList.take 9 = "otp-fail:".toList

theorem budgetFor_failureBucket (emailKey : String) (device : Option DeviceRecord)
    : FailureBucket (budgetFor cfg emailKey device).failures := by
  cases device <;> simp [FailureBucket, budgetFor]

theorem ipBucket_not_failureBucket {action : String} (ip : String)
    (known : action ∈ ["otp-start", "otp-verify", "pin-login"])
    : ¬FailureBucket (ipBucket platform action ip) := by
  simp only [List.mem_cons, List.not_mem_nil, or_false] at known
  rcases known with rfl | rfl | rfl <;> simp [FailureBucket, ipBucket]

theorem coolBucket_not_failureBucket (send : String) : ¬FailureBucket ("otp-cool:" ++ send) := by
  simp [FailureBucket]

theorem hourlyBucket_not_failureBucket (send : String) : ¬FailureBucket ("otp-email:" ++ send) := by
  simp [FailureBucket]

/-- Calls of `POST /email/start`. What it stores is the hash of some digits for an address. -/
def startCalls : Op → Prop
  | .store (.hitRateLimit bucket ..) => ¬FailureBucket bucket
  | .store (.readRateLimit ..) => True
  | .store (.putEmailCode record) =>
      ∃ email code now, record = newEmailCode platform cfg email code now
  | op => op.Incidental

/-- Calls of `POST /email/verify`. -/
def verifyCalls : Op → Prop
  | .store (.hitRateLimit bucket ..) => ¬FailureBucket bucket
  | .store (.readRateLimit ..) => True
  | .store (.reserveRateLimit ..) => True
  | .store (.refundRateLimit ..) => True
  | .store (.readCircuitBreaker ..) => True
  | .store (.hitCircuitBreaker bucket ..) => bucket = cbBucket
  | .store (.reserveEmailCodeAttempt ..) => True
  | .store (.consumeEmailCode ..) => True
  | .store (.resetLoginGuard ..) => True
  | .store (.touchDevice ..) => True
  | .store (.createDevice _) => True
  | .store (.getActiveCredential ..) => True
  | .host (.onEvent _) => True
  | .session _ => True
  | op => op.Incidental

/-- Calls of `POST /pin`: one derivation, and one replacement that clears the guard. -/
def setPinCalls : Op → Prop
  | .store (.replaceCredential _ options) => options.resetLoginGuard
  | .host (.derive ..) => True
  | op => op.Incidental

/-- Calls of `POST /pin/login`. -/
def loginCalls : Op → Prop
  | .store (.hitRateLimit bucket ..) => ¬FailureBucket bucket
  | .store (.getActiveCredential ..) => True
  | .store (.reserveLoginAttempt _ maxAttempts _) => maxAttempts = cfg.pinMaxAttempts
  | .store (.lockAccount _ maxAttempts _) => maxAttempts = cfg.pinMaxAttempts
  | .store (.resetLoginGuard ..) => True
  | .store (.markCredentialUsed ..) => True
  | .store (.touchDevice ..) => True
  | .host (.derive ..) => True
  | .session _ => True
  | op => op.Incidental

/-- Calls of the routes that only look at an account's devices, PIN and session, or revoke
them.
-/
def manageCalls : Op → Prop
  | .store (.getActiveCredential ..) => True
  | .store (.listDevices ..) => True
  | .store (.revokeDevice ..) => True
  | .store (.revokeAllDevices ..) => True
  | op => op.Incidental

def Request.calls : Request → Op → Prop
  | .emailStart _ => startCalls platform cfg
  | .emailVerify _ => verifyCalls
  | .setPin _ => setPinCalls
  | .pinLogin _ => loginCalls cfg
  | .pinStatus _ | .listDevices _ | .revokeAllDevices _ | .revokeDevice .. | .forgetDevice _
  | .logout _ => manageCalls

/-- Every route may make the incidental calls, by cases on the route and the call. -/
theorem Request.calls_incidental (request : Request) {op : Op} (incidental : op.Incidental)
    : request.calls platform cfg op := by
  cases op with
  | session call => cases call <;> cases request <;> trivial
  | host call => cases call <;> cases request <;> trivial
  | store call => cases call <;> cases request <;> trivial

variable {ops : Op → Prop}

/-- The plumbing is within whatever allows incidental calls. -/
theorem incidental_within {α : Type} {part : Handler α} (within : part.Within Op.Incidental)
    (request : Request)
    : part.Within (request.calls platform cfg) :=
  within.mono (fun _ => request.calls_incidental platform cfg)

theorem rateLimited_within {bucket scope : String} {windowSec : ℚ} {limit : Nat} {now : Millis}
    (incidental : ∀ op, op.Incidental → ops op)
    (hit : ops (.store (.hitRateLimit bucket (windowSec * sec) now)))
    : (rateLimited bucket windowSec limit scope now).Within ops := by
  unfold rateLimited
  refine .perform hit (fun counted => ?_)
  dsimp only
  split
  · trivial
  · exact .perform (incidental _ trivial) (fun _ => trivial)

theorem ipLimited_within {req : HttpRequest} {action scope : String} {limit : Nat} {now : Millis}
    (known : action ∈ ["otp-start", "otp-verify", "pin-login"])
    (incidental : ∀ op, op.Incidental → ops op)
    (hit : ∀ bucket windowMs, ¬FailureBucket bucket → ops (.store (.hitRateLimit bucket windowMs now)))
    : (ipLimited platform cfg req action limit scope now).Within ops := by
  unfold ipLimited
  split
  · trivial
  · exact rateLimited_within incidental (hit _ _ (ipBucket_not_failureBucket platform _ known))

theorem breakerRefused_within {now : Millis} (incidental : ∀ op, op.Incidental → ops op)
    (read : ∀ windowMs, ops (.store (.readCircuitBreaker cbBucket windowMs now)))
    : (breakerRefused cfg now).Within ops := by
  unfold breakerRefused
  split
  · trivial
  · refine .perform (read _) (fun cb => ?_)
    split
    · exact .perform (incidental _ trivial) (fun _ => trivial)
    · trivial

theorem issueCode_within (email : String) (now : Millis)
    : (issueCode platform cfg email now).Within (startCalls platform cfg) := by
  refine .perform trivial (fun code => .perform ⟨email, code, now, rfl⟩ (fun _ => ?_))
  exact .perform trivial (fun _ => .perform trivial (fun _ => trivial))

/-- What `POST /email/start` calls before it issues a code. -/
def quotaCalls : Op → Prop
  | .store (.hitRateLimit bucket ..) => ¬FailureBucket bucket
  | .store (.readRateLimit ..) => True
  | op => op.Incidental

theorem incidental_quota {op : Op} (incidental : op.Incidental) : quotaCalls op := by
  cases op with
  | session call => exact incidental
  | host call => exact incidental
  | store call => cases call <;> trivial

theorem quota_start {op : Op} (allowed : quotaCalls op) : startCalls platform cfg op := by
  cases op with
  | session call => exact allowed
  | host call => cases call <;> exact allowed
  | store call => cases call <;> first | exact allowed.elim | exact allowed

-----------------------------------------------------------------------------------------
-- POST /email/verify
-----------------------------------------------------------------------------------------

/-- What both checked logins, by code and by PIN, call before they reserve anything; only
the one by code asks the `breaker`.
-/
def preludeCalls (breaker : Bool) : Op → Prop
  | .store (.hitRateLimit bucket ..) => ¬FailureBucket bucket
  | .store (.readCircuitBreaker ..) => breaker
  | op => op.Incidental

/-- What a verified request still calls: no code, slot or budget is touched any more. -/
def verifiedCalls : Op → Prop
  | .store (.resetLoginGuard ..) => True
  | .store (.touchDevice ..) => True
  | .store (.createDevice _) => True
  | .store (.getActiveCredential ..) => True
  | .host (.onEvent (.emailCodeVerified ..)) => True
  | .session _ => True
  | op => op.Incidental

theorem incidental_prelude (breaker : Bool) {op : Op} (incidental : op.Incidental)
    : preludeCalls breaker op := by
  cases op with
  | session call => exact incidental
  | host call => exact incidental
  | store call => cases call <;> trivial

theorem minting_verified {op : Op} (minting : op.Minting) : verifiedCalls op := by
  cases op with
  | session call => trivial
  | host call => cases call with
    | onEvent event => cases event <;> trivial
    | _ => exact minting
  | store call => cases call <;> trivial

theorem incidental_verified {op : Op} (incidental : op.Incidental) : verifiedCalls op :=
  minting_verified (minting_of_incidental incidental)

theorem registerDevice_within (user : AuthUser) (email : String) (label : Option String)
    (now : Millis)
    : (registerDevice platform cfg user email label now).Within verifiedCalls := by
  refine .perform trivial (fun bytes => ?_)
  refine ((randomToken_incidental platform).mono (fun _ => incidental_verified)).bind (fun secret => ?_)
  refine .perform trivial (fun _ => ?_)
  refine ((setDeviceCookie_incidental ..).mono (fun _ => incidental_verified)).bind (fun _ => ?_)
  exact .perform trivial (fun _ => trivial)

theorem trustedDevice_within (req : HttpRequest) (user : AuthUser) (email : String) (now : Millis)
    (trustDevice : Bool) (label : Option String)
    : (trustedDevice platform cfg req user email now trustDevice label).Within verifiedCalls := by
  have register := registerDevice_within platform cfg user email label now
  unfold trustedDevice
  split
  · trivial
  refine ((readDevice_incidental ..).mono (fun _ => incidental_verified)).bind (fun presented => ?_)
  split
  · refine .perform trivial (fun touched => ?_)
    split
    · refine ((setDeviceCookie_incidental ..).mono (fun _ => incidental_verified)).bind ?_
      exact fun _ => trivial
    · exact register.bind (fun _ => trivial)
  · exact register.bind (fun _ => trivial)

/-- From the accepted code on, call by call. -/
theorem emailVerified_within (req : HttpRequest) (resolved : AuthUser) (email : String)
    (now : Millis) (trustDevice : Bool) (label : Option String)
    : (emailVerified platform cfg req resolved email now trustDevice label).Within
        verifiedCalls := by
  unfold emailVerified
  refine .perform trivial (fun _ => .perform trivial (fun before => ?_))
  refine ((onEventIf_incidental (by trivial)).mono (fun _ => incidental_verified)).bind (fun _ => ?_)
  refine (trustedDevice_within ..).bind (fun trusted => ?_)
  refine ((mintSession_within ..).mono (fun _ => minting_verified)).bind (fun minted => ?_)
  split
  · trivial
  · exact .perform trivial (fun _ => trivial)

/-- A refusal is not a success. -/
def Refusal (response : Response) : Prop := response.status ≠ 200

instance (response : Response) : Decidable (Refusal response) :=
  inferInstanceAs (Decidable (response.status ≠ 200))

theorem gate_gives (req : HttpRequest)
    : (gate platform cfg req).Gives (fun gated => ∀ res, gated = .refused res → Refusal res) := by
  unfold gate
  split
  · exact Program.gives_bind (by simp)
  · refine Program.gives_bind (fun current => ?_)
    split <;> simp [Refusal, Response.error]

theorem botRefused_gives (action : BotCheckAction)
    : (botRefused cfg action).Gives (∀ res ∈ ·, Refusal res) := by
  unfold botRefused
  split
  · simp
  · refine Program.gives_bind (fun passed => ?_)
    split <;> simp [Refusal, Response.error]

theorem rateLimited_gives (bucket : String) (windowSec : ℚ) (limit : Nat) (scope : String)
    (now : Millis)
    : (rateLimited bucket windowSec limit scope now).Gives (∀ res ∈ ·, Refusal res) := by
  unfold rateLimited
  refine Program.gives_bind (fun counted => ?_)
  dsimp only
  split <;> simp [Refusal, retryResponse]

theorem ipLimited_gives (req : HttpRequest) (action : String) (limit : Nat) (scope : String)
    (now : Millis)
    : (ipLimited platform cfg req action limit scope now).Gives (∀ res ∈ ·, Refusal res) := by
  unfold ipLimited
  split
  · split <;> simp [Refusal, Response.error]
  · exact rateLimited_gives _ _ _ _ _

theorem breakerRefused_gives (now : Millis)
    : (breakerRefused cfg now).Gives (∀ res ∈ ·, Refusal res) := by
  unfold breakerRefused
  split
  · simp
  · refine Program.gives_bind (fun cb => ?_)
    split <;> simp [Refusal, retryResponse]

section Rules

variable {σ : Type} {monitor : Monitor Op Op.Reply σ} {post : σ → Response → Prop} {state : σ}

/-- The monitor lets the prelude of a checked login pass: its calls keep `keep`, and from the
clock reading on also what is `read` of it.
-/
structure Skips (monitor : Monitor Op Op.Reply σ) (breaker : Bool) (keep : σ → Prop)
    (read : Millis → σ → Prop)
    : Prop where
  allows : ∀ state op, keep state → preludeCalls breaker op
    → monitor.allows state op ∧ ∀ reply, keep (monitor.next state op reply)
  clock : ∀ state now, keep state → read now (monitor.next state (.host .clock) now)
  keeps : ∀ state op now, keep state → read now state → preludeCalls breaker op
    → ∀ reply, read now (monitor.next state op reply)

/-- From the clock reading on, the prelude keeps what is known and what was read. -/
theorem Skips.timed {breaker : Bool} {keep : σ → Prop} {read : Millis → σ → Prop}
    (skips : Skips monitor breaker keep read) (now : Millis) (state : σ) (op : Op)
    (kept : keep state ∧ read now state) (allowed : preludeCalls breaker op)
    : monitor.allows state op
      ∧ ∀ reply, keep (monitor.next state op reply) ∧ read now (monitor.next state op reply) :=
  ⟨(skips.allows state op kept.1 allowed).1, fun reply =>
    ⟨(skips.allows state op kept.1 allowed).2 reply, skips.keeps state op now kept.1 kept.2 allowed reply⟩⟩

/-- A monitor that ignores the prelude lets it pass. -/
theorem skips_of_ignores {breaker : Bool} (ignores : monitor.Ignores state (preludeCalls breaker))
    : Skips monitor breaker (· = state) (fun _ _ => True) where
  allows := by
    rintro _ op rfl allowed
    exact ignores op allowed
  clock := fun _ _ _ => trivial
  keeps := fun _ _ _ _ _ _ _ => trivial

variable {keep : σ → Prop} {read : Millis → σ → Prop}

variable (keep) in
/-- The rule for `POST /email/start`: under a monitor that lets the quotas pass, only the
refusals and the issued code are left to check.
-/
theorem emailStart_obeys (req : HttpRequest)
    (quiet : ∀ state op, keep state → quotaCalls op
      → monitor.allows state op ∧ ∀ reply, keep (monitor.next state op reply))
    (initial : keep state)
    (refused : ∀ state response, keep state → Refusal response → post state response)
    (issue : ∀ state email now, keep state → readEmail cfg (req.field "email") = some email
      → (issueCode platform cfg email now).Obeys monitor post state)
    : (emailStart platform cfg req).Obeys monitor post state := by
  have incidental (op : Op) (one : op.Incidental) := incidental_quota one
  unfold emailStart
  refine ((gate_incidental ..).mono incidental).obeys_bind_keeps (gate_gives ..) quiet initial
    (fun state gated kept good => ?_)
  split
  · exact refused _ _ kept (good _ rfl)
  split
  · exact refused _ _ kept (by decide)
  split
  case h_2 => exact refused _ _ kept (by decide)
  next email email_eq =>
  refine ((botRefused_incidental ..).mono incidental).obeys_bind_keeps (botRefused_gives ..) quiet
    kept (fun state bot kept good => ?_)
  split
  · exact refused _ _ kept (good _ rfl)
  have clock := quiet state (.host .clock) kept trivial
  refine .perform clock.1 (fun now _ => ?_)
  refine (ipLimited_within platform cfg (by simp) incidental (fun _ _ other => other)).obeys_bind_keeps
    (ipLimited_gives ..) quiet (clock.2 now) (fun state hit kept good => ?_)
  split
  · exact refused _ _ kept (good _ rfl)
  refine ((deviceOfAddress_incidental ..).mono incidental).obeys_bind_keeps (Program.gives_true _)
    quiet kept (fun state device kept _ => ?_)
  have read := quiet state (.store (.readRateLimit
    (budgetFor cfg (sha256Hex platform email) device).failures (cfg.failureWindowSec * sec) now))
    kept trivial
  refine .perform read.1 (fun failures _ => ?_)
  have kept := read.2 failures
  split
  · have event := quiet _ (.host (.onEvent (.rateLimited
      ((budgetFor cfg (sha256Hex platform email) device).scope ++ "_failures")))) kept trivial
    exact .perform event.1 (fun _ _ => refused _ _ (event.2 _) (by simp [Refusal, retryResponse]))
  refine (rateLimited_within incidental (coolBucket_not_failureBucket _)).obeys_bind_keeps
    (rateLimited_gives _ _ _ _ _) quiet kept (fun state hit kept good => ?_)
  split
  · exact refused _ _ kept (good _ rfl)
  refine (rateLimited_within incidental (hourlyBucket_not_failureBucket _)).obeys_bind_keeps
    (rateLimited_gives _ _ _ _ _) quiet kept (fun state hit kept good => ?_)
  split
  · exact refused _ _ kept (good _ rfl)
  exact issue state email now kept email_eq

/-- The rule for `POST /email/verify`: under a monitor that lets the prelude pass, only the
refusals and what follows from the reservation of the slot are left to check.
-/
theorem emailVerify_obeys (req : HttpRequest) (skips : Skips monitor true keep read)
    (initial : keep state)
    (refused : ∀ state response, keep state → Refusal response → post state response)
    (slotted : ∀ state email code now device,
      keep state
      → read now state
      → readEmail cfg (req.field "email") = some email
      → readCode cfg (req.field "code") = some code
      → (reserveSlot platform cfg req email code now
          (budgetFor cfg (sha256Hex platform email) device)).Obeys monitor post state)
    : (emailVerify platform cfg req).Obeys monitor post state := by
  have incidental (op : Op) (one : op.Incidental) := incidental_prelude true one
  unfold emailVerify
  refine ((gate_incidental ..).mono incidental).obeys_bind_keeps (gate_gives ..) skips.allows initial
    (fun state gated kept good => ?_)
  split
  · exact refused _ _ kept (good _ rfl)
  split
  · exact refused _ _ kept (by decide)
  split
  case h_2 => exact refused _ _ kept (by decide)
  next email email_eq =>
  split
  case h_2 => exact refused _ _ kept (by decide)
  next code code_eq =>
  refine ((botRefused_incidental ..).mono incidental).obeys_bind_keeps (botRefused_gives ..)
    skips.allows kept (fun state bot kept good => ?_)
  split
  · exact refused _ _ kept (good _ rfl)
  have clock := skips.allows state (.host .clock) kept trivial
  refine .perform clock.1 (fun now _ => ?_)
  refine (ipLimited_within platform cfg (by simp) incidental (fun _ _ other => other)).obeys_bind_keeps
    (ipLimited_gives ..) (skips.timed now) ⟨clock.2 now, skips.clock state now kept⟩
    (fun state hit kept good => ?_)
  split
  · exact refused _ _ kept.1 (good _ rfl)
  refine (breakerRefused_within cfg incidental (fun _ => rfl)).obeys_bind_keeps
    (breakerRefused_gives ..) (skips.timed now) kept (fun state open_ kept good => ?_)
  split
  · exact refused _ _ kept.1 (good _ rfl)
  refine ((deviceOfAddress_incidental ..).mono incidental).obeys_bind_keeps
    (Program.gives_true _) (skips.timed now) kept (fun state device kept _ => ?_)
  exact slotted state email code now device kept.1 kept.2 email_eq code_eq

/-- The rule for `POST /pin/login`: under a monitor that lets the prelude pass, only the
refusals and what follows on the presented device are left to check.
-/
theorem pinLogin_obeys (req : HttpRequest) (skips : Skips monitor false keep read)
    (initial : keep state)
    (refused : ∀ state response, keep state → Refusal response → post state response)
    (presented : ∀ state pin now,
      keep state
      → read now state
      → isPinFormat (req.field "pin") = some pin
      → (loginOnDevice platform cfg req pin now).Obeys monitor post state)
    : (pinLogin platform cfg req).Obeys monitor post state := by
  have incidental (op : Op) (one : op.Incidental) := incidental_prelude false one
  unfold pinLogin
  refine ((gate_incidental ..).mono incidental).obeys_bind_keeps (gate_gives ..) skips.allows initial
    (fun state gated kept good => ?_)
  split
  · exact refused _ _ kept (good _ rfl)
  split
  · exact refused _ _ kept (by decide)
  split
  case h_2 => exact refused _ _ kept (by decide)
  next pin pin_eq =>
  refine ((botRefused_incidental ..).mono incidental).obeys_bind_keeps (botRefused_gives ..)
    skips.allows kept (fun state bot kept good => ?_)
  split
  · exact refused _ _ kept (good _ rfl)
  have clock := skips.allows state (.host .clock) kept trivial
  refine .perform clock.1 (fun now _ => ?_)
  refine (ipLimited_within platform cfg (by simp) incidental (fun _ _ other => other)).obeys_bind_keeps
    (ipLimited_gives ..) (skips.timed now) ⟨clock.2 now, skips.clock state now kept⟩
    (fun state hit kept good => ?_)
  split
  · exact refused _ _ kept.1 (good _ rfl)
  exact presented state pin now kept.1 kept.2 pin_eq

/-- A monitor that ignores the prelude lets the presented device be checked. -/
theorem loginOnDevice_obeys {req : HttpRequest} {pin : String} {now : Millis}
    (ignores : monitor.Ignores state (preludeCalls false))
    (refused : ∀ response, Refusal response → post state response)
    (attempt : ∀ device, (attemptPin platform cfg req pin device now).Obeys monitor post state)
    : (loginOnDevice platform cfg req pin now).Obeys monitor post state := by
  refine ((readDevice_incidental ..).mono (fun _ one => incidental_prelude false one)).obeys_bind
    ignores (fun device => ?_)
  split
  · have event := ignores (.host (.onEvent (.pinLoginFailed "device_invalid" none none))) trivial
    exact .perform event.1 (fun _ _ => (event.2 ()).symm ▸ refused _ (by decide))
  · exact attempt _

end Rules

-----------------------------------------------------------------------------------------
-- The footprint theorem
-----------------------------------------------------------------------------------------

theorem checked_within (ops : Op → Prop) {now : Millis} {failed : Bool}
    (hit : ∀ windowMs, ops (.store (.hitCircuitBreaker cbBucket windowMs now failed)))
    : (checked cfg now failed).Within ops := by
  unfold checked
  split
  · trivial
  · exact .perform (hit _) (fun _ => trivial)

theorem prelude_verify {op : Op} (allowed : preludeCalls true op) : verifyCalls op := by
  cases op with
  | session call => trivial
  | host call => cases call <;> trivial
  | store call => cases call <;> trivial

theorem verified_verify {op : Op} (allowed : verifiedCalls op) : verifyCalls op := by
  cases op with
  | session call => trivial
  | host call => cases call <;> trivial
  | store call => cases call <;> trivial

theorem prelude_login {op : Op} (allowed : preludeCalls false op) : loginCalls cfg op := by
  cases op with
  | session call => trivial
  | host call => cases call <;> trivial
  | store call => cases call <;> trivial

theorem invalid_within (email : String) (now : Millis) (reason : String)
    : (invalid platform cfg email now reason).Within verifyCalls :=
  .perform trivial (fun _ => (checked_within cfg _ (fun _ => rfl)).bind (fun _ => trivial))

theorem checkCode_within (req : HttpRequest) (email code : String) (now : Millis)
    (budget : Budget) (slot : WindowCount) (trustDevice : Bool) (label : Option String)
    : (checkCode platform cfg req email code now budget slot trustDevice label).Within
        verifyCalls := by
  unfold checkCode
  refine .perform trivial (fun reserved => ?_)
  split
  · exact .perform trivial (fun _ => .perform trivial (fun _ => trivial))
  split
  · exact invalid_within ..
  split
  · exact invalid_within ..
  refine .perform trivial (fun consumed => ?_)
  split
  · exact invalid_within ..
  refine .perform trivial (fun resolved => ?_)
  split
  · exact invalid_within ..
  · refine .perform trivial (fun _ => (checked_within cfg _ (fun _ => rfl)).bind (fun _ => ?_))
    exact (emailVerified_within ..).mono (fun _ => verified_verify)

theorem reserveSlot_within (req : HttpRequest) (email code : String) (now : Millis)
    (budget : Budget)
    : (reserveSlot platform cfg req email code now budget).Within verifyCalls := by
  refine .perform trivial (fun slot => ?_)
  split
  · exact .perform trivial (fun _ => .perform trivial (fun _ => trivial))
  · exact checkCode_within ..

/-- `POST /email/start`, call by call. -/
theorem emailStart_within (req : HttpRequest)
    : (emailStart platform cfg req).Within (startCalls platform cfg) := by
  rw [← Program.obeys_only]
  refine emailStart_obeys platform cfg (fun _ => True) req
    (fun _ _ _ allowed => ⟨quota_start platform cfg allowed, fun _ => trivial⟩) trivial
    (fun _ _ _ _ => trivial) (fun _ email now _ _ => ?_)
  exact Program.obeys_only.mpr (issueCode_within ..)

/-- `POST /email/verify`, call by call. -/
theorem emailVerify_within (req : HttpRequest)
    : (emailVerify platform cfg req).Within verifyCalls := by
  rw [← Program.obeys_only]
  refine emailVerify_obeys platform cfg req
    (skips_of_ignores (fun _ allowed => ⟨prelude_verify allowed, fun _ => rfl⟩)) rfl
    (fun _ _ _ _ => trivial) (fun _ email code now device _ _ _ _ => ?_)
  exact Program.obeys_only.mpr (reserveSlot_within ..)

theorem enroll_within {iterations : Nat} {pin : String} {keys : KeyRing}
    (incidental : ∀ op, op.Incidental → ops op)
    (derive : ∀ pin key salt iterations, ops (.host (.derive pin key salt iterations)))
    : (enroll platform iterations pin keys).Within ops := by
  refine .perform (incidental _ trivial) (fun salt => .perform (derive ..) (fun hash => ?_))
  split <;> trivial

theorem pinVerify_within {iterations : Nat} {pin : String} {material : JsonObject}
    {keys : KeyRing} (incidental : ∀ op, op.Incidental → ops op)
    (derive : ∀ pin key salt iterations, ops (.host (.derive pin key salt iterations)))
    : (pinVerify platform iterations pin material keys).Within ops := by
  unfold pinVerify
  split
  · trivial
  split
  · trivial
  split
  · refine .perform (derive ..) (fun actual => ?_)
    split
    · trivial
    split
    · trivial
    split
    · refine (enroll_within platform incidental derive).bind (fun upgraded => ?_)
      split <;> trivial
    · trivial
  · trivial

/-- What a login still calls once it has cleared the guard. -/
def signInCalls : Op → Prop
  | .store (.markCredentialUsed ..) => True
  | .store (.touchDevice ..) => True
  | .session _ => True
  | op => op.Incidental

theorem minting_signIn {op : Op} (minting : op.Minting) : signInCalls op := by
  cases op with
  | session call => trivial
  | host call => exact minting
  | store call => cases call <;> trivial

theorem incidental_signIn {op : Op} (incidental : op.Incidental) : signInCalls op :=
  minting_signIn (minting_of_incidental incidental)

theorem signIn_login {op : Op} (allowed : signInCalls op) : loginCalls cfg op := by
  cases op with
  | session call => trivial
  | host call => cases call <;> trivial
  | store call => cases call <;> trivial

theorem signIn_within (req : HttpRequest) (device : DeviceRecord) (credential : CredentialRecord)
    (upgraded : Option JsonObject) (now : Millis)
    : (signIn platform cfg req device credential upgraded now).Within signInCalls := by
  refine .perform trivial (fun _ => .perform trivial (fun resolved => ?_))
  split
  · exact .perform trivial (fun _ => trivial)
  refine .perform trivial (fun touched => ?_)
  split
  · exact .perform trivial (fun _ => trivial)
  refine ((setDeviceCookie_incidental ..).mono (fun _ => incidental_signIn)).bind (fun _ => ?_)
  refine ((mintSession_within ..).mono (fun _ => minting_signIn)).bind (fun minted => ?_)
  split
  · trivial
  · exact .perform trivial (fun _ => trivial)

theorem pinVerified_within (req : HttpRequest) (device : DeviceRecord)
    (credential : CredentialRecord) (upgraded : Option JsonObject) (now : Millis)
    : (pinVerified platform cfg req device credential upgraded now).Within (loginCalls cfg) :=
  .perform trivial (fun _ => (signIn_within ..).mono (fun _ => signIn_login cfg))

theorem attemptPin_within (req : HttpRequest) (pin : String) (device : DeviceRecord)
    (now : Millis)
    : (attemptPin platform cfg req pin device now).Within (loginCalls cfg) := by
  have incidental (op : Op) (one : op.Incidental) :=
    Request.calls_incidental platform cfg (.pinLogin req) one
  refine .perform trivial (fun credential => ?_)
  split
  · exact .perform trivial (fun _ => trivial)
  refine .perform rfl (fun granted => ?_)
  split
  · exact .perform trivial (fun _ => trivial)
  refine (pinVerify_within platform incidental (fun _ _ _ _ => trivial)).bind (fun verified => ?_)
  split
  · trivial
  · refine .perform trivial (fun _ => ?_)
    split
    · exact .perform rfl (fun _ => .perform trivial (fun _ => trivial))
    · trivial
  · exact pinVerified_within ..

/-- `POST /pin/login`, call by call. -/
theorem pinLogin_within (req : HttpRequest)
    : (pinLogin platform cfg req).Within (loginCalls cfg) := by
  have ignores
      : (Monitor.only (loginCalls cfg) : Monitor Op Op.Reply Unit).Ignores () (preludeCalls false) :=
    fun _ allowed => ⟨prelude_login cfg allowed, fun _ => rfl⟩
  rw [← Program.obeys_only]
  refine pinLogin_obeys platform cfg req (skips_of_ignores ignores) rfl (fun _ _ _ _ => trivial)
    (fun _ pin now _ _ _ => loginOnDevice_obeys platform cfg ignores (fun _ _ => trivial)
      (fun device => ?_))
  exact Program.obeys_only.mpr (attemptPin_within ..)

/-- `POST /pin`, call by call. -/
theorem setPin_within (req : HttpRequest) : (setPin platform cfg req).Within setPinCalls := by
  have incidental (op : Op) (one : op.Incidental) :=
    Request.calls_incidental platform cfg (.setPin req) one
  have plumbing {α : Type} {part : Handler α} (within : part.Within Op.Incidental) :=
    incidental_within platform cfg within (.setPin req)
  unfold setPin
  refine (plumbing (gate_incidental ..)).bind (fun gated => ?_)
  split
  · trivial
  · trivial
  refine .perform trivial (fun now => ?_)
  split
  · trivial
  split
  · trivial
  split
  · trivial
  split
  case h_2 => trivial
  split
  · trivial
  refine (enroll_within platform incidental (fun _ _ _ _ => trivial)).bind (fun enrolled => ?_)
  split
  case h_2 => trivial
  refine .perform trivial (fun bytes => .perform rfl (fun result => .perform trivial (fun _ => ?_)))
  split
  · refine (plumbing (onEventIf_incidental (by trivial))).bind (fun _ => ?_)
    exact (plumbing (revokeAllSessions_incidental ..)).bind (fun _ => trivial)
  · trivial

/-- An incidental part of one of the managing routes. -/
theorem manage_plumbing {α : Type} {part : Handler α} (within : part.Within Op.Incidental)
    : part.Within manageCalls :=
  within.mono (fun op one => by
    cases op with
    | session call => exact one
    | host call => cases call <;> trivial
    | store call => cases call <;> trivial)

theorem pinStatus_within (req : HttpRequest) : (pinStatus platform cfg req).Within manageCalls := by
  refine (manage_plumbing (gate_incidental ..)).bind (fun gated => ?_)
  split
  · trivial
  · trivial
  · exact .perform trivial (fun _ => trivial)

theorem listDevices_within (req : HttpRequest)
    : (listDevices platform cfg req).Within manageCalls := by
  refine (manage_plumbing (gate_incidental ..)).bind (fun gated => ?_)
  split
  · trivial
  · trivial
  · exact .perform trivial (fun _ => .perform trivial (fun _ => trivial))

theorem revokeAllDevices_within (req : HttpRequest)
    : (revokeAllDevices platform cfg req).Within manageCalls := by
  refine (manage_plumbing (gate_incidental ..)).bind (fun gated => ?_)
  split
  · trivial
  · trivial
  refine .perform trivial (fun now => .perform trivial (fun count => .perform trivial (fun _ => ?_)))
  refine (manage_plumbing (revokeAllSessions_incidental ..)).bind (fun _ => ?_)
  exact (manage_plumbing (clearDeviceCookie_incidental cfg)).bind (fun _ => trivial)

theorem revokeDevice_within (req : HttpRequest) (deviceId : String)
    : (revokeDevice platform cfg req deviceId).Within manageCalls := by
  refine (manage_plumbing (gate_incidental ..)).bind (fun gated => ?_)
  split
  · trivial
  · trivial
  refine .perform trivial (fun now => .perform trivial (fun revoked => ?_))
  exact (manage_plumbing (onEventIf_incidental (by trivial))).bind (fun _ => trivial)

theorem forgetDevice_within (req : HttpRequest)
    : (forgetDevice platform cfg req).Within manageCalls := by
  refine (manage_plumbing (gate_incidental ..)).bind (fun gated => ?_)
  split
  · trivial
  refine .perform trivial (fun now => Program.Within.bind ?_ (fun _ => ?_))
  · refine (manage_plumbing (readDevice_incidental ..)).bind (fun presented => ?_)
    split
    · trivial
    · exact .perform trivial (fun revoked => manage_plumbing (onEventIf_incidental (by trivial)))
  · exact (manage_plumbing (clearDeviceCookie_incidental cfg)).bind (fun _ => trivial)

theorem logout_within (req : HttpRequest) : (logout platform cfg req).Within manageCalls := by
  refine (manage_plumbing (gate_incidental ..)).bind (fun gated => ?_)
  split
  · trivial
  refine (manage_plumbing (revokeOwn_incidental ..)).bind (fun _ => ?_)
  exact (manage_plumbing (forgetSessionCookies_incidental cfg)).bind (fun _ => trivial)

/-- Every request makes only the calls of its route, by cases on the route. -/
theorem handle_within (request : Request)
    : (handle platform cfg request).Within (request.calls platform cfg) := by
  cases request with
  | emailStart req => exact emailStart_within platform cfg req
  | emailVerify req => exact emailVerify_within platform cfg req
  | setPin req => exact setPin_within platform cfg req
  | pinStatus req => exact pinStatus_within platform cfg req
  | pinLogin req => exact pinLogin_within platform cfg req
  | listDevices req => exact listDevices_within platform cfg req
  | revokeAllDevices req => exact revokeAllDevices_within platform cfg req
  | revokeDevice req deviceId => exact revokeDevice_within platform cfg req deviceId
  | forgetDevice req => exact forgetDevice_within platform cfg req
  | logout req => exact logout_within platform cfg req

end DeviceAuth

end WorkersAuth

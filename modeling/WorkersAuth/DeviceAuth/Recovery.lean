import WorkersAuth.DeviceAuth.Deployment
import WorkersAuth.DeviceAuth.LoginGuard
import WorkersAuth.DeviceAuth.RateLimits
import WorkersAuth.DeviceAuth.Surroundings

/-! Recovery on a trusted device.
Whoever holds a live device of an address has budgets of its own, but the attempts on a code
belong to the address. A resend carries them over until their deadline, so the code the
owner is sent may have none left.
-/

namespace WorkersAuth.DeviceAuth

open Atomic Counters

variable (platform : Platform) (cfg : Config)

-----------------------------------------------------------------------------------------
-- What the owner does, and what is given
-----------------------------------------------------------------------------------------

/-- One recovery: a request for a code and the verification of the code just sent, both on a
trusted device.
-/
structure Recovery where
  startReq : HttpRequest
  verifyReq : HttpRequest
  email : String
  device : DeviceRecord
  secret : String
  user : AuthUser
  startedAt : Millis
  verifiedAt : Millis
  code : String

/-- The surroundings of one of the two requests: the bot check passes, the user is accepted,
the code is the one sent, and the ids drawn for a new device are not taken.
-/
def Recovery.surroundings (recovery : Recovery) (db : Database) (readAt : Millis) : Surroundings
  | .clock, now => now = readAt
  | .botCheck _, passed => passed = true
  | .resolveUser email, user => email = recovery.email → user = some recovery.user
  | .generateEmailCode digits, code => digits = cfg.codeDigits → code = recovery.code
  | .randomBytes length, bytes => length = 16 → db.devices.find (toHex bytes) = none
  | _, _ => True

/-- The request is well formed, passes the gate and presents the device for its address. -/
structure Presents (recovery : Recovery) (req : HttpRequest) : Prop where
  gate : (gate platform cfg req).Gives (fun gated => ∃ session, gated = .ok session)
  body : bodyTooLarge req = false
  email : readEmail cfg (req.field "email") = some recovery.email
  token : parseDeviceToken ((presentedDeviceToken cfg req).getD "")
    = some (recovery.device.deviceId, recovery.secret)

/-- The limit on the client's address lets one more request through. -/
def IpAdmits (db : Database) (req : HttpRequest) (action : String) (limit : Nat) (now : Millis) : Prop :=
  match (cfg.getClientIp req).filter (· ≠ "") with
  | none => cfg.requireClientIp = false
  | some ip => (db.hitRateLimit (ipBucket platform action ip) (hourSec * sec) now).1.count ≤ limit

/-- The circuit breaker is closed. -/
def BreakerAdmits (db : Database) (now : Millis) : Prop :=
  ∀ breaker ∈ cfg.breaker,
    let cb := db.readCircuitBreaker cbBucket (breaker.windowSec * sec) now
    ¬(cb.failures ≥ breaker.minFailures ∧ (cb.failures : ℚ) ≥ breaker.ratio * max cb.attempts 1)

/-- The device's own failure, cooldown and hourly buckets are not exhausted. -/
structure BudgetLeft (db : Database) (device : DeviceRecord) (now : Millis) : Prop where
  failures : (db.readRateLimit ("otp-fail:device:" ++ device.deviceId) (cfg.failureWindowSec * sec)
    now).count < cfg.maxFailuresPerDevice
  cooldown : (db.hitRateLimit ("otp-cool:" ++ ("device:" ++ device.deviceId))
    (cfg.limits.cooldownSec * sec) now).1.count ≤ 1
  hourly : (db.hitRateLimit ("otp-email:" ++ ("device:" ++ device.deviceId)) (hourSec * sec)
    now).1.count ≤ cfg.limits.perEmail

/-- A live trusted device of the address is presented with both requests, nothing of the
device's own or of the surroundings refuses, and the second request, made before the code
expires, carries the code just sent.
-/
structure Recovery.Given (recovery : Recovery) (db : Database) : Prop where
  start : Presents platform cfg recovery recovery.startReq
  verify : Presents platform cfg recovery recovery.verifyReq
  stored : db.devices.find recovery.device.deviceId = some recovery.device
  owns : sha256Hex platform recovery.secret = recovery.device.secretHash
  address : recovery.device.email = recovery.email
  live : Database.deviceLive recovery.verifiedAt recovery.device
  ordered : recovery.startedAt ≤ recovery.verifiedAt
  unexpired : recovery.verifiedAt < recovery.startedAt + cfg.codeTtlMs
  code : readCode cfg (recovery.verifyReq.field "code") = some recovery.code
  startIp : IpAdmits platform cfg db recovery.startReq "otp-start" cfg.limits.startsPerIp
    recovery.startedAt
  verifyIp : IpAdmits platform cfg db recovery.verifyReq "otp-verify" cfg.limits.verifiesPerIp
    recovery.verifiedAt
  breaker : BreakerAdmits cfg db recovery.verifiedAt
  budget : BudgetLeft cfg db recovery.device recovery.startedAt
  limited : recovery.user.rateLimitId ≠ ""
  spare : ∃ id : Bytes, id.length = 16 ∧ db.devices.find (toHex id) = none

/-- No attempts are carried over, or fewer than a code has. -/
def AttemptsLeft (db : Database) (email : String) (now : Millis) : Prop :=
  ∀ row ∈ db.codes.find email, now < row.attemptsResetAt → row.attempts < cfg.codeMaxAttempts

variable {platform cfg} {σ : Type} {sessions : Semantics SessionCall SessionCall.Reply σ}
  {surroundings : Surroundings} {world : World σ} {recovery : Recovery} {req : HttpRequest}
  {db : Database}

/-- A code the request can carry is one the platform can generate. -/
theorem readCode_digits {value : Option Json} {code : String} (read : readCode cfg value = some code)
    : isDigits cfg.codeDigits code := by
  unfold readCode at read
  exact (Option.filter_eq_some_iff.mp read).2

/-- The surroundings of a recovery answer every question. -/
theorem Recovery.Given.total (given : recovery.Given platform cfg db) (readAt : Millis)
    : (recovery.surroundings cfg db readAt).Total platform := by
  intro call
  cases call with
  | clock => exact ⟨readAt, trivial, rfl⟩
  | botCheck action => exact ⟨true, trivial, rfl⟩
  | resolveUser email => exact ⟨some recovery.user, trivial, fun _ => rfl⟩
  | generateEmailCode digits =>
      by_cases same : digits = cfg.codeDigits
      · exact ⟨recovery.code, same ▸ readCode_digits given.code, fun _ => rfl⟩
      · exact ⟨.ofList (List.replicate digits '0'), by simp [HostCall.Answers, isDigits, isDigitChar],
          fun absurd => (same absurd).elim⟩
  | randomBytes length =>
      obtain ⟨id, size, unused⟩ := given.spare
      by_cases same : length = 16
      · exact ⟨id, size.trans same.symm, fun _ => unused⟩
      · exact ⟨List.replicate length 0, List.length_replicate, fun absurd => (same absurd).elim⟩
  | derive pin pepperKey salt iterations => exact ⟨_, rfl, trivial⟩
  | sendCode email code => exact ⟨true, trivial, trivial⟩
  | onEvent event => exact ⟨(), trivial, trivial⟩
  | setCookie cookie => exact ⟨(), trivial, trivial⟩
  | takeMagicLink tokenHash => exact ⟨none, trivial, trivial⟩

-----------------------------------------------------------------------------------------
-- The parts both requests share
-----------------------------------------------------------------------------------------

theorem botRefused_ensures (total : surroundings.Total platform) {action : BotCheckAction}
    (passes : ∀ passed, surroundings (.botCheck action) passed → passed = true)
    : (botRefused cfg action).Ensures (execIn platform surroundings sessions) world
        (fun answer after => answer = none ∧ after = world) := by
  unfold botRefused
  split
  · exact .answer ⟨rfl, rfl⟩
  · refine ensures_host total (fun passed allowed => ?_)
    rw [passes passed allowed]
    exact .answer ⟨rfl, rfl⟩

/-- A limit that is not reached lets the request pass and counts it. -/
theorem rateLimited_ensures {bucket scope : String} {windowSec : ℚ} {limit : Nat} {now : Millis}
    (room : (world.db.hitRateLimit bucket (windowSec * sec) now).1.count ≤ limit)
    : (rateLimited bucket windowSec limit scope now).Ensures (execIn platform surroundings sessions)
        world (fun answer after => answer = none
          ∧ after.db = (world.db.hitRateLimit bucket (windowSec * sec) now).2) := by
  refine ensures_store rfl ?_
  generalize world.db.hitRateLimit bucket (windowSec * sec) now = hit at room ⊢
  simp only [if_pos room]
  exact .answer ⟨rfl, rfl⟩

theorem ipLimited_ensures {action scope : String} {limit : Nat} {now : Millis}
    (admits : IpAdmits platform cfg world.db req action limit now)
    : (ipLimited platform cfg req action limit scope now).Ensures
        (execIn platform surroundings sessions) world
        (fun answer after => answer = none
          ∧ OnlyCounted (fun bucket => ∃ ip, bucket = ipBucket platform action ip) world.db after.db) := by
  cases known : (cfg.getClientIp req).filter (· ≠ "") with
  | none =>
      simp only [IpAdmits, known] at admits
      simp only [ipLimited, known, admits, Bool.false_eq_true, if_false]
      exact .answer ⟨rfl, .refl _ _⟩
  | some ip =>
      simp only [IpAdmits, known] at admits
      simp only [ipLimited, known]
      refine (rateLimited_ensures admits).mono ?_
      rintro _ after ⟨rfl, same⟩
      exact ⟨rfl, same ▸ onlyCounted_hit _ _ _ ⟨ip, rfl⟩⟩

/-- A live device is presented by its id and its secret, and the ids drawn for a new one are
not taken.
-/
structure Holds (platform : Platform) (cfg : Config) (surroundings : Surroundings) (db : Database)
    (req : HttpRequest) (device : DeviceRecord) (secret : String) (now : Millis)
    : Prop where
  token : parseDeviceToken ((presentedDeviceToken cfg req).getD "") = some (device.deviceId, secret)
  stored : db.devices.find device.deviceId = some device
  owns : sha256Hex platform secret = device.secretHash
  live : Database.deviceLive now device
  unused : ∀ id, surroundings (.randomBytes 16) id → db.devices.find (toHex id) = none

variable {device : DeviceRecord} {secret : String} {now : Millis}

/-- It stays so while the devices stay as they are. -/
theorem Holds.of_devices {after : Database}
    (holds : Holds platform cfg surroundings db req device secret now)
    (same : after.devices = db.devices)
    : Holds platform cfg surroundings after req device secret now :=
  { holds with
    stored := by rw [same]; exact holds.stored
    unused := by rw [same]; exact holds.unused }

/-- What lives later lives now. -/
theorem deviceLive_earlier {later : Millis} (live : Database.deviceLive later device)
    (ordered : now ≤ later)
    : Database.deviceLive now device := by
  simp only [Database.deviceLive, Bool.and_eq_true, decide_eq_true_eq] at live ⊢
  exact ⟨⟨live.1.1, ordered.trans_lt live.1.2⟩, ordered.trans_lt live.2⟩

/-- The device is held when the code is asked for. -/
theorem Recovery.Given.holds_start (given : recovery.Given platform cfg db)
    : Holds platform cfg (recovery.surroundings cfg db recovery.startedAt) db recovery.startReq
        recovery.device recovery.secret recovery.startedAt :=
  ⟨given.start.token, given.stored, given.owns, deviceLive_earlier given.live given.ordered,
    fun _ drawn => drawn rfl⟩

/-- And when it is verified. -/
theorem Recovery.Given.holds_verify (given : recovery.Given platform cfg db)
    : Holds platform cfg (recovery.surroundings cfg db recovery.verifiedAt) db recovery.verifyReq
        recovery.device recovery.secret recovery.verifiedAt :=
  ⟨given.verify.token, given.stored, given.owns, given.live, fun _ drawn => drawn rfl⟩

/-- The held device is found. -/
theorem readDevice_ensures (holds : Holds platform cfg surroundings world.db req device secret now)
    : (readDevice platform cfg req now).Ensures (execIn platform surroundings sessions) world
        (fun answer after => answer = some device ∧ after = world) := by
  have live := holds.live
  simp only [Database.deviceLive, Bool.and_eq_true, Option.isNone_iff_eq_none,
    decide_eq_true_eq] at live
  obtain ⟨⟨unrevoked, idle⟩, absolute⟩ := live
  have expired : ¬(now ≥ device.idleExpiresAt ∨ now ≥ device.absoluteExpiresAt) := by
    rintro (late | late)
    · exact absurd idle (not_lt.mpr late)
    · exact absurd absolute (not_lt.mpr late)
  unfold readDevice
  rw [holds.token]
  refine ensures_store rfl ?_
  simp only [show world.db.findDevice device.deviceId = some device from holds.stored,
    verifySecretHash_iff.mpr holds.owns, unrevoked, expired, Bool.not_true, Bool.false_eq_true,
    if_false, Option.isSome_none]
  exact .answer ⟨rfl, rfl⟩

/-- A device of the address is found for it. -/
theorem deviceOfAddress_ensures {email : String}
    (holds : Holds platform cfg surroundings world.db req device secret now)
    (address : device.email = email)
    : (deviceOfAddress platform cfg req email now).Ensures (execIn platform surroundings sessions)
        world (fun answer after => answer = some device ∧ after = world) := by
  refine (readDevice_ensures holds).bind ?_
  rintro _ _ ⟨rfl, rfl⟩
  refine .answer ⟨?_, rfl⟩
  simp [address]

-----------------------------------------------------------------------------------------
-- The request for a code
-----------------------------------------------------------------------------------------

/-- The row of the address after the code is stored. -/
def issuedRow (platform : Platform) (cfg : Config) (recovery : Recovery) (db : Database)
    : EmailCodeRow :=
  let record := newEmailCode platform cfg recovery.email recovery.code recovery.startedAt
  ((db.codes.find recovery.email).map (Database.resend record)).getD ⟨record, 0⟩

/-- The kind of a bucket: how its name starts. -/
def quotaOf (bucket : String) : String := .ofList (bucket.toList.take 9)

/-- The buckets that limit the sending of codes. -/
def SendingQuota (bucket : String) : Prop :=
  quotaOf bucket ∈ ["otp-start", "otp-cool:", "otp-email"]

/-- The tables after the code is sent: the code of the address is the one sent, and only the
counters of quotas on sending have moved.
-/
structure CodeSent (platform : Platform) (cfg : Config) (recovery : Recovery) (db mid : Database)
    : Prop where
  code : mid.codes.find recovery.email = some (issuedRow platform cfg recovery db)
  devices : mid.devices = db.devices
  guards : mid.guards = db.guards
  limits : ∀ bucket, ¬SendingQuota bucket → mid.limits.find bucket = db.limits.find bucket

/-- Storing the code after some sending quotas were counted. -/
theorem CodeSent.of_counted {counted : Database} (only : OnlyCounted SendingQuota db counted)
    : CodeSent platform cfg recovery db (counted.putEmailCode
        (newEmailCode platform cfg recovery.email recovery.code recovery.startedAt)) where
  code := by
    simp [Database.putEmailCode, newEmailCode, issuedRow, only.codes]
  devices := only.devices
  guards := only.guards
  limits := only.limits

/-- Storing the code, sending it and reporting it. -/
theorem issueCode_ensures (total : surroundings.Total platform)
    (sent : ∀ code, surroundings (.generateEmailCode cfg.codeDigits) code → code = recovery.code)
    : (issueCode platform cfg recovery.email recovery.startedAt).Ensures
        (execIn platform surroundings sessions) world
        (fun answer after => answer.status = 200
          ∧ after.db = world.db.putEmailCode
            (newEmailCode platform cfg recovery.email recovery.code recovery.startedAt)) := by
  refine ensures_host total (fun code allowed => ?_)
  rw [sent code allowed]
  refine ensures_store rfl (ensures_host total (fun _ _ => ?_))
  exact ensures_host total (fun _ _ => .answer ⟨rfl, rfl⟩)

/-- The request for a code sends it: nothing refuses, and the sending counts on its quotas. -/
theorem emailStart_ensures (responsive : Responsive sessions)
    (given : recovery.Given platform cfg world.db)
    : (emailStart platform cfg recovery.startReq).Ensures
        (execIn platform (recovery.surroundings cfg world.db recovery.startedAt) sessions) world
        (fun answer after => answer.status = 200
          ∧ CodeSent platform cfg recovery world.db after.db) := by
  have total := given.total recovery.startedAt
  unfold emailStart
  refine (ensures_incidental total responsive (gate_incidental ..) given.start.gate).bind ?_
  rintro _ opened ⟨⟨session, rfl⟩, opened_eq⟩
  simp only [given.start.body, given.start.email, Bool.false_eq_true, if_false]
  refine (botRefused_ensures total (fun _ => id)).bind ?_
  rintro _ _ ⟨rfl, rfl⟩
  refine ensures_host total ?_
  rintro _ rfl
  refine (ipLimited_ensures (by rw [opened_eq]; exact given.startIp)).bind ?_
  rintro _ limited ⟨rfl, only⟩
  rw [opened_eq] at only
  refine (deviceOfAddress_ensures (given.holds_start.of_devices only.devices) given.address).bind ?_
  rintro _ limited ⟨rfl, rfl⟩
  have row_eq (bucket : String) (other : quotaOf bucket ≠ "otp-start")
      : limited.db.limits.find bucket = world.db.limits.find bucket :=
    only.limits bucket (by rintro ⟨ip, rfl⟩; exact other (by simp [quotaOf, ipBucket]))
  refine ensures_store rfl ?_
  rw [if_neg (by
    have free := given.budget.failures
    rw [← readRateLimit_congr (row_eq _ (by simp [quotaOf]))] at free
    exact not_le.mpr free)]
  refine (rateLimited_ensures (by
    rw [hitRateLimit_congr (row_eq _ (by simp [budgetFor, quotaOf]))]
    exact given.budget.cooldown)).bind ?_
  rintro _ cooled ⟨rfl, cooled_eq⟩
  have cooled_row_eq (bucket : String) (other : quotaOf bucket ≠ "otp-cool:")
      : cooled.db.limits.find bucket = limited.db.limits.find bucket := by
    rw [cooled_eq]
    refine StoreCall.limit_eq (.hitRateLimit ..) rfl (fun same => other ?_)
    rw [← Option.some.inj same]
    simp [quotaOf]
  refine (rateLimited_ensures (by
    have free := given.budget.hourly
    rwa [← hitRateLimit_congr ((cooled_row_eq _ (by simp [quotaOf])).trans
      (row_eq _ (by simp [quotaOf])))] at free)).bind ?_
  rintro _ capped ⟨rfl, capped_eq⟩
  refine (issueCode_ensures total (fun code allowed => allowed rfl)).mono ?_
  rintro answer after ⟨success, after_eq⟩
  refine ⟨success, after_eq ▸ .of_counted ?_⟩
  rw [capped_eq]
  refine .trans ?_ (onlyCounted_hit _ _ _ (by simp [SendingQuota, quotaOf]))
  rw [cooled_eq]
  refine .trans (only.mono ?_) (onlyCounted_hit _ _ _ (by simp [SendingQuota, quotaOf]))
  rintro _ ⟨ip, rfl⟩
  simp [SendingQuota, quotaOf, ipBucket]

-----------------------------------------------------------------------------------------
-- Signing in once the code is accepted
-----------------------------------------------------------------------------------------

/-- A session is minted for a user with a rate-limit id over a valid lifetime. -/
theorem createSessionFor_gives {config : AuthConfig} {user : AuthUser} {options : CreateSessionOptions}
    (limited : user.rateLimitId ≠ "") (bare : options.metadata = none)
    (positive : 0 < (options.ttl.getD config.session).idleTtlSec)
    (ordered : (options.ttl.getD config.session).idleTtlSec
      ≤ (options.ttl.getD config.session).absoluteTtlSec)
    : (createSessionFor platform config req user options).Gives
        (fun minted => ∃ session, minted = .ok session) := by
  unfold createSessionFor
  rw [if_neg limited, if_neg (by simp [bare, JsonObject.get])]
  dsimp only
  rw [if_neg (by simp [positive, ordered])]
  refine Program.gives_bind (fun _ => Program.gives_bind (fun _ => Program.gives_bind (fun session => ?_)))
  exact Program.gives_bind (fun _ => Program.gives_bind (fun _ => ⟨session, rfl⟩))

/-- So is it in either transport. -/
theorem mintSession_gives {user : AuthUser} {internal : InternalAuthMeta}
    (limited : user.rateLimitId ≠ "")
    : (mintSession platform cfg req user internal).Gives (fun minted => ∃ fields, minted = .ok fields) := by
  unfold mintSession
  split
  · refine (createSessionFor_gives limited rfl (by exact cfg.auth.idleTtl_pos)
      (by exact cfg.auth.idleTtl_le)).bind ?_
    rintro _ ⟨session, rfl⟩
    exact ⟨_, rfl⟩
  · refine (createSessionFor_gives limited rfl (by exact cfg.bearerTtl_pos) (by exact le_rfl)).bind ?_
    rintro _ ⟨session, rfl⟩
    exact ⟨_, rfl⟩

/-- A device is registered under an id that is not taken; no guard moves. -/
theorem registerDevice_ensures (total : surroundings.Total platform) (responsive : Responsive sessions)
    (unused : ∀ id, surroundings (.randomBytes 16) id → world.db.devices.find (toHex id) = none)
    {user : AuthUser} {email : String} {label : Option String}
    : (registerDevice platform cfg user email label now).Ensures
        (execIn platform surroundings sessions) world
        (fun _ after => after.db.guards = world.db.guards) := by
  refine ensures_host total (fun id drawn => ?_)
  refine (ensures_incidental total responsive (randomToken_incidental platform)
    (Program.gives_true _)).bind ?_
  rintro secret drawing ⟨_, same⟩
  let device := newDevice platform cfg user email label (toHex id) secret now
  obtain ⟨devices, inserted⟩ : ∃ devices,
      drawing.db.devices.insert { device with revokedAt := none } = some devices := by
    rw [← Option.isSome_iff_exists, ← Option.ne_none_iff_isSome, Ne, Tables.Table.insert_eq_none_iff, same]
    simp [device, newDevice, unused id drawn]
  have ran : (StoreCall.createDevice device).run drawing.db
      = some ((), { drawing.db with devices }) := by
    simp only [StoreCall.run, Database.createDevice, inserted, Option.map_some]
  refine ensures_store ran ?_
  refine (ensures_incidental total responsive (setDeviceCookie_incidental ..)
    (Program.gives_true _)).bind ?_
  rintro _ cookies ⟨_, same'⟩
  exact ensures_host total (fun _ _ => .answer (by rw [same', same]))

/-- A trusted device is touched, or a new one registered; no guard moves. -/
theorem trustedDevice_ensures (total : surroundings.Total platform) (responsive : Responsive sessions)
    (holds : Holds platform cfg surroundings world.db req device secret now) (user : AuthUser)
    (email : String) (trustDevice : Bool) (label : Option String)
    : (trustedDevice platform cfg req user email now trustDevice label).Ensures
        (execIn platform surroundings sessions) world
        (fun _ after => after.db.guards = world.db.guards) := by
  unfold trustedDevice
  split
  · exact .answer rfl
  refine (readDevice_ensures holds).bind ?_
  rintro _ read ⟨rfl, rfl⟩
  split
  · next presented kept =>
      cases (Option.filter_eq_some_iff.mp kept).1
      have touched : (read.db.touchDevice device.deviceId now (now + cfg.deviceIdleMs)).1
          = some (min (now + cfg.deviceIdleMs) device.absoluteExpiresAt) := by
        simp [Database.touchDevice, Tables.Table.updateReturning_fst, holds.stored, holds.live]
      refine ensures_store rfl ?_
      rw [touched]
      refine (ensures_incidental total responsive (setDeviceCookie_incidental ..)
        (Program.gives_true _)).bind ?_
      rintro _ cookies ⟨_, same⟩
      exact .answer (by rw [same]; rfl)
  · refine (registerDevice_ensures total responsive holds.unused).bind ?_
    rintro ⟨device, token⟩ registered same
    exact .answer same

/-- A verified address is signed in, and its PIN is unlocked. -/
theorem emailVerified_ensures (total : surroundings.Total platform) (responsive : Responsive sessions)
    (holds : Holds platform cfg surroundings world.db req device secret now) {user : AuthUser}
    (limited : user.rateLimitId ≠ "") (email : String) (trustDevice : Bool) (label : Option String)
    : (emailVerified platform cfg req user email now trustDevice label).Ensures
        (execIn platform surroundings sessions) world
        (fun answer after => answer.status = 200 ∧ ¬Locked (after.db.guard user.id)) := by
  unfold emailVerified
  refine ensures_host total (fun _ _ => ?_)
  refine ensures_store rfl ?_
  refine (ensures_incidental total responsive (onEventIf_incidental (by exact trivial))
    (Program.gives_true _)).bind ?_
  rintro _ cleared ⟨_, cleared_eq⟩
  have devices : cleared.db.devices = world.db.devices := by rw [cleared_eq]; rfl
  refine (trustedDevice_ensures total responsive (holds.of_devices devices) ..).bind ?_
  rintro ⟨kept, deviceToken⟩ trusted guards
  dsimp only
  refine (ensures_minting total responsive (mintSession_within ..)
    (mintSession_gives (by exact limited))).bind ?_
  rintro _ minted ⟨⟨fields, rfl⟩, minted_eq⟩
  refine ensures_store rfl (.answer ⟨rfl, ?_⟩)
  have guard_eq : minted.db.guard user.id = GuardEvent.reset.apply cfg.pinMaxAttempts
      (world.db.guard user.id) := by
    rw [minted_eq, Database.guard, guards, cleared_eq]
    exact (guard_clearGuard world.db user.id user.id cfg.pinMaxAttempts now).trans (if_pos rfl)
  rw [show Database.guard _ _ = _ from guard_eq]
  cases world.db.guard user.id <;> simp [GuardEvent.apply, Locked]

-----------------------------------------------------------------------------------------
-- The verification of the code
-----------------------------------------------------------------------------------------

/-- An attempt on a stored, unexpired code is granted while it has some left. -/
theorem reserveEmailCodeAttempt_found {email : String} {row : EmailCodeRow}
    (found : db.codes.find email = some row) (unexpired : now < row.expiresAt) (maxAttempts : Nat)
    : (db.reserveEmailCodeAttempt email now maxAttempts).1
      = if row.attempts < maxAttempts then some ⟨row.codeHash, row.keyId, row.attempts + 1⟩
        else none := by
  rw [Database.reserveEmailCodeAttempt_fst, found]
  by_cases left : row.attempts < maxAttempts <;> simp [Option.filter, left, unexpired]

/-- Counting a checked verification moves the breaker's counter only. -/
theorem checked_ensures {failed : Bool}
    : (checked cfg now failed).Ensures (execIn platform surroundings sessions) world
        (fun _ after => OnlyCounted (fun _ => True) world.db after.db) := by
  unfold checked
  split
  · exact .answer (.refl _ _)
  · refine ensures_store rfl (.answer ⟨rfl, rfl, rfl, fun _ free => absurd trivial free⟩)

/-- The code of an address with no attempts left is refused, whatever the digits. -/
theorem checkCode_exhausted (total : surroundings.Total platform) {email code : String}
    {budget : Budget} {slot : WindowCount} {trustDevice : Bool} {label : Option String}
    {row : EmailCodeRow} (found : world.db.codes.find email = some row)
    (unexpired : now < row.expiresAt) (exhausted : ¬row.attempts < cfg.codeMaxAttempts)
    : (checkCode platform cfg req email code now budget slot trustDevice label).Ensures
        (execIn platform surroundings sessions) world (fun answer _ => answer.status = 401) := by
  have refused := reserveEmailCodeAttempt_found found unexpired cfg.codeMaxAttempts
  rw [if_neg exhausted] at refused
  unfold checkCode
  refine ensures_store rfl ?_
  rw [refused]
  exact ensures_store rfl (ensures_host total (fun _ _ => .answer rfl))

/-- The right code, with attempts left, signs the device's holder in and unlocks the PIN. -/
theorem checkCode_right (total : surroundings.Total platform) (responsive : Responsive sessions)
    (holds : Holds platform cfg surroundings world.db req device secret now)
    {email code : String} {budget : Budget} {slot : WindowCount} {trustDevice : Bool}
    {label : Option String} {row : EmailCodeRow} {derived : DerivedKeys} {user : AuthUser}
    (found : world.db.codes.find email = some row) (unexpired : now < row.expiresAt)
    (left : row.attempts < cfg.codeMaxAttempts)
    (known : (cfg.keys platform).get row.keyId = some derived)
    (matching : codeMatches platform derived email code row.codeHash)
    (accepted : ∀ resolved, surroundings (.resolveUser email) resolved → resolved = some user)
    (limited : user.rateLimitId ≠ "")
    : (checkCode platform cfg req email code now budget slot trustDevice label).Ensures
        (execIn platform surroundings sessions) world
        (fun answer after => answer.status = 200 ∧ ¬Locked (after.db.guard user.id)) := by
  have granted := reserveEmailCodeAttempt_found found unexpired cfg.codeMaxAttempts
  rw [if_pos left] at granted
  unfold checkCode
  refine ensures_store rfl ?_
  rw [granted]
  simp only [known, matching, Bool.not_true, Bool.false_eq_true, if_false]
  have consumed : ((world.db.reserveEmailCodeAttempt email now cfg.codeMaxAttempts).2.consumeEmailCode
      email row.codeHash).1 = true := by
    rw [Database.consumeEmailCode_fst, Database.find_reserveEmailCodeAttempt, if_pos rfl, found]
    simp [left, unexpired]
  refine ensures_store rfl ?_
  rw [consumed]
  simp only [Bool.not_true, Bool.false_eq_true, if_false]
  refine ensures_host total (fun resolved allowed => ?_)
  rw [accepted resolved allowed]
  simp only [checkUser, Option.filter_some, limited, ne_eq, not_false_eq_true, decide_true, if_true]
  refine ensures_store rfl ?_
  refine checked_ensures.bind ?_
  rintro _ counted only
  exact emailVerified_ensures total responsive (holds.of_devices only.devices) limited ..

/-- The breaker is closed. -/
theorem breakerRefused_ensures (admits : BreakerAdmits cfg world.db now)
    : (breakerRefused cfg now).Ensures (execIn platform surroundings sessions) world
        (fun answer after => answer = none ∧ after = world) := by
  unfold breakerRefused
  split
  · exact .answer ⟨rfl, rfl⟩
  · next breaker configured =>
      refine ensures_store rfl ?_
      dsimp only
      rw [if_neg (admits breaker configured)]
      exact .answer ⟨rfl, rfl⟩

/-- The limit on the client's address depends on its row only. -/
theorem IpAdmits.of_rows {action : String} {limit : Nat} {after : Database}
    (admits : IpAdmits platform cfg db req action limit now)
    (rows : ∀ ip, after.limits.find (ipBucket platform action ip)
      = db.limits.find (ipBucket platform action ip))
    : IpAdmits platform cfg after req action limit now := by
  unfold IpAdmits at admits ⊢
  split at admits
  · next unknown => simpa [unknown] using admits
  · next ip known => simpa [known, hitRateLimit_congr (rows ip)] using admits

/-- The breaker depends on its row only. -/
theorem BreakerAdmits.of_row {after : Database} (admits : BreakerAdmits cfg db now)
    (row : after.limits.find cbBucket = db.limits.find cbBucket)
    : BreakerAdmits cfg after now := by
  intro breaker configured
  simpa only [Database.readCircuitBreaker, row] using admits breaker configured

/-- A budget that is not used up at one reading grants a slot at that reading and later. -/
theorem reserveRateLimit_granted {bucket : String} {windowMs later : Millis} {max : Nat}
    (free : (db.readRateLimit bucket windowMs now).count < max) (ordered : now ≤ later)
    : ∃ slot, (db.reserveRateLimit bucket windowMs later max).1 = some slot := by
  rw [(reserveRateLimit_eq db bucket windowMs later max).1, ← Option.isSome_iff_exists,
    Option.isSome_map, Database.window]
  cases found : db.limits.find bucket with
  | none => rfl
  | some row =>
      simp only [Option.map_some, Window.reserve]
      split
      · rfl
      · next open_ =>
          have started : row.windowStart > now - windowMs :=
            (sub_le_sub_right ordered windowMs).trans_lt (not_le.mp open_)
          have counted : row.count < max := by
            simpa [Database.readRateLimit, found, Option.filter_some, started] using free
          simp [counted]

/-- The verification comes down to the check of the code: nothing refuses before it, and the
codes and the devices are as they were.
-/
theorem emailVerify_ensures (responsive : Responsive sessions) (given : recovery.Given platform cfg db)
    (sent : CodeSent platform cfg recovery db world.db) {post : Response → World σ → Prop}
    (check : ∀ slot after, after.db.codes = world.db.codes → after.db.devices = world.db.devices
      → (checkCode platform cfg recovery.verifyReq recovery.email recovery.code recovery.verifiedAt
          (budgetFor cfg (sha256Hex platform recovery.email) (some recovery.device)) slot
          (wantsTrustedDevice recovery.verifyReq) (deviceLabel recovery.verifyReq)).Ensures
        (execIn platform (recovery.surroundings cfg db recovery.verifiedAt) sessions) after post)
    : (emailVerify platform cfg recovery.verifyReq).Ensures
        (execIn platform (recovery.surroundings cfg db recovery.verifiedAt) sessions) world post := by
  have total := given.total recovery.verifiedAt
  unfold emailVerify
  refine (ensures_incidental total responsive (gate_incidental ..) given.verify.gate).bind ?_
  rintro _ opened ⟨⟨session, rfl⟩, opened_eq⟩
  simp only [given.verify.body, given.verify.email, given.code, Bool.false_eq_true, if_false]
  refine (botRefused_ensures total (fun _ => id)).bind ?_
  rintro _ opened ⟨rfl, rfl⟩
  refine ensures_host total ?_
  rintro _ rfl
  refine (ipLimited_ensures (given.verifyIp.of_rows (fun ip => ?_))).bind ?_
  · rw [opened_eq]
    exact sent.limits _ (by simp [SendingQuota, quotaOf, ipBucket])
  rintro _ limited ⟨rfl, only⟩
  rw [opened_eq] at only
  have row_eq (bucket : String) (other : ¬SendingQuota bucket) (elsewhere : quotaOf bucket ≠ "otp-verif")
      : limited.db.limits.find bucket = db.limits.find bucket := by
    rw [only.limits bucket, sent.limits bucket other]
    rintro ⟨ip, rfl⟩
    exact elsewhere (by simp [quotaOf, ipBucket])
  refine (breakerRefused_ensures (given.breaker.of_row (row_eq _ ?_ ?_))).bind ?_
  · simp [SendingQuota, quotaOf, cbBucket]
  · simp [quotaOf, cbBucket]
  rintro _ limited ⟨rfl, rfl⟩
  refine (deviceOfAddress_ensures (given.holds_verify.of_devices (only.devices.trans sent.devices))
    given.address).bind ?_
  rintro _ limited ⟨rfl, rfl⟩
  have free := given.budget.failures
  rw [← readRateLimit_congr (row_eq _ (by simp [SendingQuota, quotaOf]) (by simp [quotaOf]))] at free
  let budget := budgetFor cfg (sha256Hex platform recovery.email) (some recovery.device)
  obtain ⟨slot, granted⟩ : ∃ slot, (limited.db.reserveRateLimit budget.failures
      (cfg.failureWindowSec * sec) recovery.verifiedAt budget.maxFailures).1 = some slot :=
    reserveRateLimit_granted free given.ordered
  refine ensures_store rfl ?_
  rw [granted]
  exact check slot _ only.codes only.devices

-----------------------------------------------------------------------------------------
-- When the owner recovers
-----------------------------------------------------------------------------------------

/-- The attempts of the code just sent: none, unless those of its address are carried over. -/
theorem issuedRow_attempts {recovery : Recovery} {db : Database}
    : (issuedRow platform cfg recovery db).attempts < cfg.codeMaxAttempts
      ↔ AttemptsLeft cfg db recovery.email recovery.startedAt := by
  unfold issuedRow AttemptsLeft
  cases found : db.codes.find recovery.email with
  | none => simpa using cfg.codeMaxAttempts_pos
  | some row =>
      by_cases carries : recovery.startedAt < row.attemptsResetAt <;>
        simp [Database.resend, newEmailCode, carries, cfg.codeMaxAttempts_pos]

/-- The code just sent is unexpired, and its digits match it under the current key. -/
theorem issuedRow_matches {recovery : Recovery} {db : Database}
    : (issuedRow platform cfg recovery db).expiresAt = recovery.startedAt + cfg.codeTtlMs
      ∧ (issuedRow platform cfg recovery db).keyId = (cfg.keys platform).current.keyId
      ∧ codeMatches platform (cfg.keys platform).current recovery.email recovery.code
        (issuedRow platform cfg recovery db).codeHash := by
  simp only [codeMatches, timingSafeEqual_iff, issuedRow]
  cases db.codes.find recovery.email <;> exact ⟨rfl, rfl, rfl⟩

/-- With an attempt left, the verification succeeds and unlocks the PIN. -/
theorem emailVerify_succeeds (responsive : Responsive sessions) (given : recovery.Given platform cfg db)
    (sent : CodeSent platform cfg recovery db world.db)
    (left : AttemptsLeft cfg db recovery.email recovery.startedAt)
    : (emailVerify platform cfg recovery.verifyReq).Ensures
        (execIn platform (recovery.surroundings cfg db recovery.verifiedAt) sessions) world
        (fun answer after => answer.status = 200 ∧ ¬Locked (after.db.guard recovery.user.id)) := by
  obtain ⟨expires, keyId, matching⟩ : _ ∧ _ ∧ codeMatches platform (cfg.keys platform).current _ _ _ :=
    issuedRow_matches
  refine emailVerify_ensures responsive given sent (fun slot after codes devices => ?_)
  refine checkCode_right (given.total _) responsive
    (given.holds_verify.of_devices (devices.trans sent.devices)) (by rw [codes]; exact sent.code)
    (by rw [expires]; exact given.unexpired) (issuedRow_attempts.mpr left)
    (by rw [keyId]; exact buildKeyRing_get_current ..) matching
    (fun resolved allowed => allowed rfl) given.limited

/-- Without one, it is refused. -/
theorem emailVerify_fails (responsive : Responsive sessions) (given : recovery.Given platform cfg db)
    (sent : CodeSent platform cfg recovery db world.db)
    (exhausted : ¬AttemptsLeft cfg db recovery.email recovery.startedAt)
    : (emailVerify platform cfg recovery.verifyReq).Ensures
        (execIn platform (recovery.surroundings cfg db recovery.verifiedAt) sessions) world
        (fun answer _ => answer.status = 401) := by
  refine emailVerify_ensures responsive given sent (fun slot after codes _ => ?_)
  refine checkCode_exhausted (given.total _) (by rw [codes]; exact sent.code) ?_
    (issuedRow_attempts.not.mpr exhausted)
  rw [issuedRow_matches.1]
  exact given.unexpired

/-- Without an attempt left the two requests do not end so. -/
theorem recovery_fails (responsive : Responsive sessions) (given : recovery.Given platform cfg world.db)
    (exhausted : ¬AttemptsLeft cfg world.db recovery.email recovery.startedAt)
    : ¬(emailStart platform cfg recovery.startReq).Ensures
        (execIn platform (recovery.surroundings cfg world.db recovery.startedAt) sessions) world
        (fun started mid => started.status = 200
          ∧ (emailVerify platform cfg recovery.verifyReq).Ensures
            (execIn platform (recovery.surroundings cfg world.db recovery.verifiedAt) sessions) mid
            (fun verified finish => verified.status = 200
              ∧ ¬Locked (finish.db.guard recovery.user.id))) := by
  intro recovers
  obtain ⟨_, mid, ⟨_, sent⟩, _, verifies⟩ := (emailStart_ensures responsive given).both recovers
  obtain ⟨_, _, refused, success, _⟩ :=
    (emailVerify_fails responsive given sent exhausted).both verifies
  exact absurd (refused.symm.trans success) (by decide)

/-- The owner of a live trusted device whom nothing else refuses recovers exactly when the
code sent has an attempt left: the two requests end with 200 and an unlocked PIN, or the code
is refused. By running both requests through.
-/
theorem recovery_iff (responsive : Responsive sessions) (given : recovery.Given platform cfg world.db)
    : (emailStart platform cfg recovery.startReq).Ensures
          (execIn platform (recovery.surroundings cfg world.db recovery.startedAt) sessions) world
          (fun started mid => started.status = 200
            ∧ (emailVerify platform cfg recovery.verifyReq).Ensures
              (execIn platform (recovery.surroundings cfg world.db recovery.verifiedAt) sessions) mid
              (fun verified finish => verified.status = 200
                ∧ ¬Locked (finish.db.guard recovery.user.id)))
      ↔ AttemptsLeft cfg world.db recovery.email recovery.startedAt := by
  constructor
  · exact fun recovers => by_contra (fun exhausted => recovery_fails responsive given exhausted recovers)
  · intro left
    refine (emailStart_ensures responsive given).mono ?_
    rintro _ mid ⟨success, sent⟩
    exact ⟨success, emailVerify_succeeds responsive given sent left⟩

-----------------------------------------------------------------------------------------
-- Played runs
-----------------------------------------------------------------------------------------

namespace Played

open Sample

/-- The store in memory never throws. -/
theorem memorySessions_responsive : Responsive memorySessions :=
  fun _ _ => ⟨_, _, 0, rfl⟩

/-- The owner of the sample device asks for a code and verifies it a second later. -/
def ownerRecovery : Recovery where
  startReq := request [("email", .str "user42@example.com")] (some deviceToken)
  verifyReq := request [("email", .str "user42@example.com"), ("code", .str "482915")]
    (some deviceToken)
  email := "user42@example.com"
  device := Sample.device
  secret := "QEFCQ0RFRkdISUpLTE1OT1BRUlNUVVZXWFlaW1xdXl8"
  user := user
  startedAt := 5000
  verifiedAt := 6000
  code := "482915"

/-- What the tables must still give the owner: the device and its own budgets. -/
def spares (db : Database) : Bool :=
  db.devices.find Sample.device.deviceId = some Sample.device
  && (db.readRateLimit ("otp-fail:device:" ++ Sample.device.deviceId) (3600 * sec) 5000).count < 3
  && (db.hitRateLimit ("otp-cool:device:" ++ Sample.device.deviceId) (60 * sec) 5000).1.count ≤ 1
  && (db.hitRateLimit ("otp-email:device:" ++ Sample.device.deviceId) (hourSec * sec) 5000).1.count ≤ 5
  && (db.devices.find (toHex (List.replicate 16 255))).isNone

/-- The owner's requests are well formed and nothing else of the deployment refuses them. -/
theorem ownerRecovery_given {db : Database} (spare : spares db = true)
    : ownerRecovery.Given Sample.platform config db := by
  simp only [spares, Bool.and_eq_true, decide_eq_true_eq, Option.isNone_iff_eq_none] at spare
  obtain ⟨⟨⟨⟨stored, failures⟩, cooldown⟩, hourly⟩, unused⟩ := spare
  exact {
    start := ⟨⟨none, rfl⟩, rfl, by decide +kernel, by decide +kernel⟩
    verify := ⟨⟨none, rfl⟩, rfl, by decide +kernel, by decide +kernel⟩
    stored
    owns := by decide +kernel
    address := rfl
    live := by decide +kernel
    ordered := by decide +kernel
    unexpired := by decide +kernel
    code := by decide +kernel
    startIp := rfl
    verifyIp := rfl
    breaker _ configured := by cases configured
    budget := ⟨failures, cooldown, hourly⟩
    limited := by decide
    spare := ⟨List.replicate 16 255, rfl, unused⟩
  }

/-- On a registered device the owner recovers: no code was ever sent. -/
theorem recovery_iff_enrolled
    : (emailStart Sample.platform config ownerRecovery.startReq).Ensures
        (execIn Sample.platform (ownerRecovery.surroundings config enrolled.db 5000) memorySessions)
        enrolled
        (fun started mid => started.status = 200
          ∧ (emailVerify Sample.platform config ownerRecovery.verifyReq).Ensures
            (execIn Sample.platform (ownerRecovery.surroundings config enrolled.db 6000) memorySessions)
            mid
            (fun verified finish => verified.status = 200
              ∧ ¬Locked (finish.db.guard ownerRecovery.user.id))) :=
  (recovery_iff memorySessions_responsive (ownerRecovery_given (by decide +kernel))).mpr
    (fun _ found => nomatch found)

/-- The device token a request carries. -/
def carriesToken : Request → Bool
  | .emailStart req | .emailVerify req | .setPin req | .pinStatus req | .pinLogin req
  | .listDevices req | .revokeAllDevices req | .revokeDevice req _ | .forgetDevice req | .logout req =>
      (presentedDeviceToken config req).isSome

/-- Requests without any device token have a code sent and use up its attempts: the owner's
two requests then end with a refusal, though all that is asked of the device holds.
-/
theorem recovery_lockedOut
    : ∃ state, service.Reachable enrolled state
        ∧ (∀ thread ∈ state.threads, carriesToken thread.request = false)
        ∧ ownerRecovery.Given Sample.platform config state.world.db
        ∧ ¬(emailStart Sample.platform config ownerRecovery.startReq).Ensures
          (execIn Sample.platform (ownerRecovery.surroundings config state.world.db 5000)
            memorySessions) state.world
          (fun started mid => started.status = 200
            ∧ (emailVerify Sample.platform config ownerRecovery.verifyReq).Ensures
              (execIn Sample.platform (ownerRecovery.surroundings config state.world.db 6000)
                memorySessions) mid
              (fun verified finish => verified.status = 200
                ∧ ¬Locked (finish.db.guard ownerRecovery.user.id))) := by
  obtain ⟨state, reach, holds⟩ := exists_played enrolled
    (issued ++ .arrive (verifyRequest "105833") :: calls 1000 1 4
      ++ .arrive (verifyRequest "105833") :: calls 2000 2 4)
    (fun state => state.threads.all (fun thread => !carriesToken thread.request)
      && spares state.world.db
      && (state.world.db.codes.find "user42@example.com").any (fun row =>
        5000 < row.attemptsResetAt && 2 ≤ row.attempts))
    (by decide +kernel)
  simp only [Bool.and_eq_true, List.all_eq_true, Bool.not_eq_true', Option.any_eq_true,
    decide_eq_true_eq] at holds
  obtain ⟨⟨outsiders, spare⟩, row, found, carried, usedUp⟩ := holds
  have given := ownerRecovery_given spare
  exact ⟨state, reach, outsiders, given, recovery_fails memorySessions_responsive given
    (fun left => absurd (left row found carried) (Nat.not_lt.mpr usedUp))⟩

end Played

end WorkersAuth.DeviceAuth

import WorkersAuth.Atomic.Mirrors
import WorkersAuth.DeviceAuth.DeadRows
import WorkersAuth.DeviceAuth.DeviceLifetime
import WorkersAuth.DeviceAuth.RateLimits

/-! Two sites of device auth that serve the same requests, of which one may have been cleaned up.
The requests of a site are served one at a time; its clock does not go back, and an id drawn for a device
or a credential has not been drawn before. What the tables of such a site hold besides keeps the twins
alike: attempts on a code are forgotten no later than it expires, and every stored id has been drawn.
-/

namespace WorkersAuth

open Atomic DeviceAuth Tables

-----------------------------------------------------------------------------------------
-- The calls of requests
-----------------------------------------------------------------------------------------

/-- The credential ids a call uses up. -/
def StoreCall.enrols : StoreCall → List String
  | .replaceCredential record _ => [record.credentialId]
  | _ => []

/-- The call is made at this moment, with a window no longer than the longest and a code that lives as
configured; failures are counted in the breaker's bucket only.
-/
def StoreCall.Current (longest codeTtlMs now : Millis) : StoreCall → Prop
  | .hitRateLimit bucket windowMs moment => moment = now ∧ windowMs ≤ longest ∧ bucket ≠ cbBucket
  | .readRateLimit _ windowMs moment => moment = now ∧ windowMs ≤ longest
  | .reserveRateLimit bucket windowMs moment _ => moment = now ∧ windowMs ≤ longest ∧ bucket ≠ cbBucket
  | .hitCircuitBreaker bucket windowMs moment _ => moment = now ∧ windowMs ≤ longest ∧ bucket = cbBucket
  | .readCircuitBreaker _ windowMs moment => moment = now ∧ windowMs ≤ longest
  | .putEmailCode record =>
      record.createdAt = now ∧ record.expiresAt = now + codeTtlMs ∧ record.attemptsResetAt = now + codeTtlMs
  | .reserveEmailCodeAttempt _ moment _ => moment = now
  | .touchDevice _ moment _ => moment = now
  | .listDevices _ moment => moment = now
  | _ => True

/-- The call's answer can depend on a dead row. -/
def StoreCall.seesDead : StoreCall → Bool
  | .consumeEmailCode .. => true
  | .findDevice .. => true
  | .revokeDevice .. => true
  | .revokeAllDevices .. => true
  | .replaceCredential .. => true
  | _ => false

namespace DeviceAuth

variable {longest codeTtlMs now moment : Millis} {devices credentials : List String}
  {first second db after : Database} {call : StoreCall} {reply : call.Reply}

-----------------------------------------------------------------------------------------
-- What the tables hold
-----------------------------------------------------------------------------------------

/-- What the calls of requests keep, once these ids have been drawn. -/
structure Sound (codeTtlMs now : Millis) (devices credentials : List String) (db : Database) : Prop where
  counts : CountsWell db
  ends : AttemptsEnd db
  recent : ∀ email row, db.codes.find email = some row → row.expiresAt ≤ now + codeTtlMs
  devices : ∀ deviceId row, db.devices.find deviceId = some row → deviceId ∈ devices
  credentials : ∀ credentialId row, db.creds.find credentialId = some row → credentialId ∈ credentials

theorem sound_empty (codeTtlMs now : Millis) : Sound codeTtlMs now [] [] .empty where
  counts _ _ := by simp [Database.empty]
  ends _ _ := by simp [Database.empty]
  recent _ _ := by simp [Database.empty]
  devices _ _ := by simp [Database.empty]
  credentials _ _ := by simp [Database.empty]

/-- A counter is written as what it was, or as a first hit. -/
theorem CountsWell.upsert (counts : CountsWell db) {row : RateLimitRow} {applies : RateLimitRow → Bool}
    {change : RateLimitRow → RateLimitRow} {keeps : ∀ row, (change row).bucket = row.bucket}
    (fresh : Counts row.bucket row)
    (changed : ∀ old, Counts row.bucket old → Counts row.bucket (change old)) (bucket : String)
    (found : RateLimitRow)
    (stored : (db.limits.upsertReturning row applies change keeps).2.find bucket = some found)
    : Counts bucket found := by
  rw [Table.find_upsertReturning] at stored
  split at stored
  · next written =>
      obtain ⟨rfl, _⟩ := written
      cases stored
      cases before : db.limits.find row.bucket with
      | none => exact fresh
      | some old => exact changed old (counts _ _ before)
  · exact counts bucket found stored

theorem counts_countOne {windowMs : Millis} {bucket : String} {row : RateLimitRow} (counts : Counts bucket row)
    : Counts bucket (Database.countOne windowMs now row) := by
  unfold Database.countOne
  split <;> exact counts

theorem counts_countHit {windowMs : Millis} {row : RateLimitRow} {failure : Nat}
    (counts : Counts cbBucket row)
    : Counts cbBucket (Database.countHit windowMs now failure row) :=
  ⟨(Database.countHit_bucket ..).trans counts.1, fun other => absurd rfl other⟩

/-- Counters stay so, by cases on the call. -/
theorem CountsWell.run (counts : CountsWell db) (current : call.Current longest codeTtlMs now)
    (ran : call.run db = some (reply, after))
    : CountsWell after := by
  cases call
  case hitRateLimit =>
    obtain rfl := congrArg Prod.snd (Option.some.inj ran)
    exact counts.upsert ⟨rfl, fun _ => rfl⟩ (fun _ => counts_countOne)
  case reserveRateLimit =>
    obtain rfl := congrArg Prod.snd (Option.some.inj ran)
    exact counts.upsert ⟨rfl, fun _ => rfl⟩ (fun _ => counts_countOne)
  case hitCircuitBreaker =>
    obtain rfl := congrArg Prod.snd (Option.some.inj ran)
    obtain ⟨_, _, rfl⟩ := current
    exact counts.upsert ⟨rfl, fun other => absurd rfl other⟩ (fun _ => counts_countHit)
  case refundRateLimit =>
    obtain rfl := congrArg Prod.snd (Option.some.inj ran)
    intro bucket row stored
    simp only [Database.refundRateLimit, Table.find_updateWhere, Option.map_eq_some_iff] at stored
    obtain ⟨old, found, rfl⟩ := stored
    have well := counts _ _ found
    split <;> exact well
  all_goals
    intro bucket row stored
    rw [StoreCall.limits_eq ran (fun writes => writes)] at stored
    exact counts bucket row stored

/-- Codes expire no later than they live, and their attempts are forgotten by then; by cases on the call. -/
theorem codes_run (ends : AttemptsEnd db)
    (recent : ∀ email row, db.codes.find email = some row → row.expiresAt ≤ now + codeTtlMs)
    (current : call.Current longest codeTtlMs now) (ran : call.run db = some (reply, after))
    : ∀ email row, after.codes.find email = some row →
        row.attemptsResetAt ≤ row.expiresAt ∧ row.expiresAt ≤ now + codeTtlMs := by
  have kept (email : String) (row : EmailCodeRow) (found : db.codes.find email = some row)
      : row.attemptsResetAt ≤ row.expiresAt ∧ row.expiresAt ≤ now + codeTtlMs :=
    ⟨ends _ _ found, recent _ _ found⟩
  intro email row stored
  cases call
  case putEmailCode record =>
    obtain rfl := congrArg Prod.snd (Option.some.inj ran)
    obtain ⟨sent, expires, resets⟩ := current
    rw [show (db.putEmailCode record).codes.find email = _ from Table.find_upsert ..] at stored
    split at stored
    · cases stored
      cases before : db.codes.find record.email with
      | none => exact ⟨(resets.trans expires.symm).le, expires.le⟩
      | some old =>
          have within := kept _ _ before
          simp only [Option.map_some, Option.getD_some, Database.resend]
          refine ⟨?_, expires.le⟩
          split
          · exact (within.1.trans within.2).trans expires.ge
          · exact (resets.trans expires.symm).le
    · exact kept email row stored
  case reserveEmailCodeAttempt reserved moment maxAttempts =>
    obtain rfl := congrArg Prod.snd (Option.some.inj ran)
    rw [Database.find_reserveEmailCodeAttempt] at stored
    split at stored
    · obtain ⟨old, found, rfl⟩ := Option.map_eq_some_iff.mp stored
      have within := kept _ _ found
      split <;> exact within
    · exact kept email row stored
  case consumeEmailCode consumed codeHash =>
    obtain rfl := congrArg Prod.snd (Option.some.inj ran)
    rw [Database.find_consumeEmailCode] at stored
    split at stored
    · exact kept email row (Option.filter_eq_some_iff.mp stored).1
    · exact kept email row stored
  all_goals
    rw [StoreCall.codes_eq ran (fun writes => writes)] at stored
    exact kept email row stored

/-- A stored device was stored before, or the call has registered it. -/
theorem device_drawn (ran : call.run db = some (reply, after)) {deviceId : String} {row : DeviceRecord}
    (found : after.devices.find deviceId = some row)
    : deviceId ∈ call.creates ∨ ∃ old, db.devices.find deviceId = some old := by
  have move := StoreCall.device_move ran deviceId
  rw [found] at move
  generalize db.devices.find deviceId = before at move
  cases move with
  | kept => exact .inr ⟨_, rfl⟩
  | created same => exact .inl (List.mem_singleton.mpr same.symm)
  | touched live => exact .inr ⟨_, rfl⟩
  | revoked row moment => exact .inr ⟨_, rfl⟩

/-- A stored credential was stored before, or the call has enrolled it. -/
theorem credential_drawn (ran : call.run db = some (reply, after)) {credentialId : String}
    {row : CredentialRow} (found : after.creds.find credentialId = some row)
    : credentialId ∈ call.enrols ∨ ∃ old, db.creds.find credentialId = some old := by
  cases call
  case replaceCredential record options =>
    obtain ⟨creds, inserted, same⟩ := Option.map_eq_some_iff.mp ran
    have creds_eq : after.creds = creds := by
      rw [← show _ = after from congrArg Prod.snd same]
      dsimp only
      split <;> rfl
    rw [creds_eq, Table.find_insert inserted] at found
    split at found
    · next own => exact .inl (List.mem_singleton.mpr own)
    · rw [Table.find_updateWhere, Option.map_eq_some_iff] at found
      obtain ⟨old, stored, _⟩ := found
      have untouched := (revokeOthers_frame db record options
        (db.creds.countWhere (Database.activeCredential record.accountId record.type) > 0)).2.1
      exact .inr ⟨old, (congrArg (Table.find · credentialId) untouched).symm.trans stored⟩
  case markCredentialUsed =>
    obtain rfl := congrArg Prod.snd (Option.some.inj ran)
    simp only [Database.markCredentialUsed, Table.find_updateWhere, Option.map_eq_some_iff] at found
    obtain ⟨old, stored, _⟩ := found
    exact .inr ⟨old, stored⟩
  all_goals
    rw [StoreCall.creds_eq ran (fun writes => writes)] at found
    exact .inr ⟨row, found⟩

/-- Every call of a request keeps the tables so. -/
theorem Sound.run (sound : Sound codeTtlMs now devices credentials db)
    (current : call.Current longest codeTtlMs now) (ran : call.run db = some (reply, after))
    : Sound codeTtlMs now (call.creates ++ devices) (call.enrols ++ credentials) after where
  counts := sound.counts.run current ran
  ends email row found := (codes_run sound.ends sound.recent current ran email row found).1
  recent email row found := (codes_run sound.ends sound.recent current ran email row found).2
  devices deviceId row found := by
    rcases device_drawn ran found with drawn | ⟨old, stored⟩
    · exact List.mem_append_left _ drawn
    · exact List.mem_append_right _ (sound.devices _ _ stored)
  credentials credentialId row found := by
    rcases credential_drawn ran found with drawn | ⟨old, stored⟩
    · exact List.mem_append_left _ drawn
    · exact List.mem_append_right _ (sound.credentials _ _ stored)

/-- They stay so as time passes. -/
theorem Sound.later (sound : Sound codeTtlMs now devices credentials db) (late : now ≤ moment)
    : Sound codeTtlMs moment devices credentials db :=
  ⟨sound.counts, sound.ends, fun email row found => (sound.recent email row found).trans (by linarith),
    sound.devices, sound.credentials⟩

-----------------------------------------------------------------------------------------
-- Calls from alike databases
-----------------------------------------------------------------------------------------

/-- A call whose answer no dead row can change is answered alike, by cases on the call. -/
theorem call_alike (alike : Alike longest now first second)
    (one : Sound codeTtlMs now devices credentials first)
    (two : Sound codeTtlMs now devices credentials second)
    (current : call.Current longest codeTtlMs now) (unseen : call.seesDead = false)
    (fresh : ∀ deviceId ∈ call.creates, deviceId ∉ devices) (ran : call.run first = some (reply, after))
    : ∃ image, call.run second = some (reply, image) ∧ Alike longest now after image := by
  have answered {answer image : call.Reply × Database} (left : call.run first = some answer)
      (right : call.run second = some image) (same : answer.1 = image.1 ∧ Alike longest now answer.2 image.2)
      : ∃ image, call.run second = some (reply, image) ∧ Alike longest now after image := by
    obtain rfl : answer = (reply, after) := Option.some.inj (left.symm.trans ran)
    exact ⟨image.2, right.trans (congrArg some (Prod.ext same.1.symm rfl)), same.2⟩
  cases call
  case hitRateLimit bucket windowMs moment =>
    obtain ⟨rfl, short, own⟩ := current
    exact answered rfl rfl (hitRateLimit_alike alike one.counts two.counts short own)
  case readRateLimit bucket windowMs moment =>
    obtain ⟨rfl, short⟩ := current
    exact answered rfl rfl ⟨readRateLimit_alike alike short, alike⟩
  case reserveRateLimit bucket windowMs moment max =>
    obtain ⟨rfl, short, own⟩ := current
    exact answered rfl rfl (reserveRateLimit_alike alike one.counts two.counts short own max)
  case refundRateLimit bucket windowStart =>
    exact answered rfl rfl ⟨rfl, refundRateLimit_alike alike windowStart⟩
  case hitCircuitBreaker bucket windowMs moment failed =>
    obtain ⟨rfl, short, _⟩ := current
    exact answered rfl rfl (hitCircuitBreaker_alike alike one.counts two.counts short failed)
  case readCircuitBreaker bucket windowMs moment =>
    obtain ⟨rfl, short⟩ := current
    exact answered rfl rfl ⟨readCircuitBreaker_alike alike short, alike⟩
  case putEmailCode record =>
    exact answered rfl rfl ⟨rfl, putEmailCode_alike alike one.ends two.ends current.1⟩
  case reserveEmailCodeAttempt email moment maxAttempts =>
    obtain rfl : moment = now := current
    exact answered rfl rfl (reserveEmailCodeAttempt_alike alike email maxAttempts)
  case createDevice record =>
    obtain ⟨created, ran, same⟩ := Option.map_eq_some_iff.mp ran
    cases same
    have free : second.devices.find record.deviceId = none := by
      by_contra taken
      obtain ⟨row, found⟩ := Option.ne_none_iff_exists'.mp taken
      exact fresh _ List.mem_cons_self (two.devices _ _ found)
    obtain ⟨image, mirrored, still⟩ := createDevice_alike alike ran free
    exact ⟨image, Option.map_eq_some_iff.mpr ⟨image, mirrored, rfl⟩, still⟩
  case touchDevice deviceId moment idleExpiresAt =>
    obtain rfl : moment = now := current
    exact answered rfl rfl (touchDevice_alike alike deviceId idleExpiresAt)
  case listDevices accountId moment =>
    obtain rfl : moment = now := current
    exact answered rfl rfl ⟨listDevices_alike alike accountId, alike⟩
  case getActiveCredential accountId type =>
    exact answered rfl rfl ⟨getActiveCredential_alike alike accountId type, alike⟩
  case markCredentialUsed credentialId moment material =>
    exact answered rfl rfl ⟨rfl, markCredentialUsed_alike alike credentialId moment material⟩
  case reserveLoginAttempt accountId maxAttempts moment =>
    refine answered rfl rfl ?_
    simp only [Database.reserveLoginAttempt, alike.guards]
    exact ⟨trivial, alike.write_guards _⟩
  case lockAccount accountId maxAttempts moment =>
    refine answered rfl rfl ⟨rfl, ?_⟩
    simp only [Database.lockAccount, alike.guards]
    exact alike.write_guards _
  case resetLoginGuard accountId moment =>
    refine answered rfl rfl ⟨?_, clearGuard_alike alike accountId moment⟩
    simp only [Database.resetLoginGuard, Database.readLoginGuard, alike.guards]
  all_goals contradiction

-----------------------------------------------------------------------------------------
-- Sites
-----------------------------------------------------------------------------------------

/-- A site at a moment: its clock, its stores, the ids drawn so far and what its host was told. -/
structure Site (σ : Type) where
  now : Millis
  world : World σ
  devices : List String
  credentials : List String
  told : List (Call HostCall HostCall.Reply)

variable {σ : Type} (platform : Platform) (sessions : Semantics SessionCall SessionCall.Reply σ)

/-- How many devices were revoked is left out: it may count dead ones. -/
def revocationReport : HostCall → Bool
  | .onEvent (.deviceRevoked ..) => true
  | _ => false

/-- The host is called and replies. -/
def Site.tells (site : Site σ) (call : HostCall) (reply : call.Reply) : Site σ :=
  { site with told := if revocationReport call then site.told else site.told ++ [⟨call, reply⟩] }

/-- The site after a call, but for its stores: the clock does not go back, and the ids that the call uses
up are new.
-/
def Proceeds (before : Site σ) : (op : Op) → op.Reply → Site σ → Prop
  | .store call, _, after =>
      (∀ deviceId ∈ call.creates, deviceId ∉ before.devices)
      ∧ (∀ credentialId ∈ call.enrols, credentialId ∉ before.credentials)
      ∧ after = { before with
          world := after.world
          devices := call.creates ++ before.devices
          credentials := call.enrols ++ before.credentials }
  | .session _, _, after => after = { before with world := after.world }
  | .host .clock, read, after =>
      before.now ≤ read ∧ after = { before.tells .clock read with now := read, world := after.world }
  | .host call, reply, after => after = { before.tells call reply with world := after.world }

/-- The calls of a request that a site serves. -/
def siteExec : Semantics Op Op.Reply (Site σ) :=
  fun op before reply after =>
    exec platform sessions op before.world reply after.world ∧ Proceeds before op reply after

/-- The sites differ in dead rows only. -/
structure Twins (longest codeTtlMs : Millis) (first second : Site σ) : Prop where
  now : second.now = first.now
  sessions : second.world.sessions = first.world.sessions
  devices : second.devices = first.devices
  credentials : second.credentials = first.credentials
  told : second.told = first.told
  alike : Alike longest first.now first.world.db second.world.db
  firstSound : Sound codeTtlMs first.now first.devices first.credentials first.world.db
  secondSound : Sound codeTtlMs first.now first.devices first.credentials second.world.db

/-- So they are, at this moment. -/
def TwinsAt (longest codeTtlMs now : Millis) (first second : Site σ) : Prop :=
  first.now = now ∧ Twins longest codeTtlMs first second

/-- A call that is made at this moment and answered alike whatever dead rows there are. -/
def Oblivious (longest codeTtlMs now : Millis) : Op → Prop
  | .store call => call.Current longest codeTtlMs now ∧ call.seesDead = false
  | .session _ => True
  | .host .clock => False
  | .host _ => True

variable {platform sessions} {one two last : Site σ}

theorem Twins.symm (twins : Twins longest codeTtlMs one two) : Twins longest codeTtlMs two one where
  now := twins.now.symm
  sessions := twins.sessions.symm
  devices := twins.devices.symm
  credentials := twins.credentials.symm
  told := twins.told.symm
  alike := twins.now ▸ twins.alike.symm
  firstSound := by
    rw [twins.now, twins.devices, twins.credentials]
    exact twins.secondSound
  secondSound := by
    rw [twins.now, twins.devices, twins.credentials]
    exact twins.firstSound

/-- The clocks of the twins may show the same later time. -/
theorem Twins.later (twins : Twins longest codeTtlMs one two) (late : one.now ≤ moment)
    : Twins longest codeTtlMs { one with now := moment } { two with now := moment } :=
  { twins with
    now := rfl
    alike := twins.alike.later late
    firstSound := twins.firstSound.later late
    secondSound := twins.secondSound.later late }

/-- The hosts of the twins may be told the same. -/
theorem Twins.tells (twins : Twins longest codeTtlMs one two) (call : HostCall) (reply : call.Reply)
    : Twins longest codeTtlMs (one.tells call reply) (two.tells call reply) :=
  { twins with
    told := by simp only [Site.tells, twins.told] }

/-- A call of the store from twins, when it can be made from alike databases with answers that agree. -/
theorem store_mirrored (call : StoreCall) {reply : call.Reply} (agrees : call.Reply → call.Reply → Prop)
    (matched : ∀ db, call.run one.world.db = some (reply, db) →
      ∃ shown image, call.run two.world.db = some (shown, image) ∧ Alike longest now db image
        ∧ agrees reply shown)
    (current : call.Current longest codeTtlMs now) (twins : TwinsAt longest codeTtlMs now one two)
    (executes : siteExec platform sessions (.store call) one reply last)
    : ∃ shown final, siteExec platform sessions (.store call) two shown final
        ∧ TwinsAt longest codeTtlMs now last final ∧ agrees reply shown := by
  obtain ⟨rfl, twins⟩ := twins
  obtain ⟨⟨ran, sessions_eq⟩, newDevices, newCredentials, last_eq⟩ := executes
  obtain ⟨now, world, devices, credentials, told⟩ := last
  obtain ⟨rfl, _, rfl, rfl, rfl⟩ := Site.mk.inj last_eq
  obtain ⟨shown, image, mirrored, alike, agree⟩ := matched _ ran
  have firstSound := twins.firstSound.run current ran
  have secondSound := twins.secondSound.run current mirrored
  refine ⟨shown, { two with
      world := ⟨image, two.world.sessions⟩
      devices := call.creates ++ two.devices
      credentials := call.enrols ++ two.credentials },
    ⟨⟨mirrored, rfl⟩, ?_, ?_, rfl⟩, ⟨rfl, ?_⟩, agree⟩
  · rw [twins.devices]
    exact newDevices
  · rw [twins.credentials]
    exact newCredentials
  · exact {
      now := twins.now
      sessions := twins.sessions.trans sessions_eq.symm
      devices := congrArg (call.creates ++ ·) twins.devices
      credentials := congrArg (call.enrols ++ ·) twins.credentials
      told := twins.told
      alike
      firstSound
      secondSound
    }

/-- A call of the host. -/
theorem host_mirrored {call : HostCall} {reply : call.Reply} (timeless : Oblivious longest codeTtlMs now (.host call))
    (twins : TwinsAt longest codeTtlMs now one two)
    (executes : siteExec platform sessions (.host call) one reply last)
    : ∃ final, siteExec platform sessions (.host call) two reply final
        ∧ TwinsAt longest codeTtlMs now last final := by
  obtain ⟨rfl, twins⟩ := twins
  obtain ⟨⟨answers, world_eq⟩, proceeds⟩ := executes
  have told : last = one.tells call reply
      ∧ Proceeds two (.host call) reply (two.tells call reply) := by
    obtain ⟨now, world, devices, credentials, told⟩ := last
    obtain rfl : world = one.world := world_eq
    cases call
    case clock => exact timeless.elim
    all_goals exact ⟨proceeds, rfl⟩
  obtain ⟨rfl, image⟩ := told
  exact ⟨two.tells call reply, ⟨⟨answers, rfl⟩, image⟩, rfl, twins.tells call reply⟩

/-- An oblivious call is answered alike by twins, by cases on the call. -/
theorem oblivious_lockstep {op : Op} (oblivious : Oblivious longest codeTtlMs now op)
    : Program.Lockstep (siteExec platform sessions) (TwinsAt longest codeTtlMs now) op := by
  intro one two twins reply last executes
  cases op with
  | store call =>
      obtain ⟨current, unseen⟩ := oblivious
      obtain ⟨rfl, same⟩ := twins
      have matched (db : Database) (ran : call.run one.world.db = some (reply, db))
          : ∃ shown image, call.run two.world.db = some (shown, image) ∧ Alike longest one.now db image
            ∧ reply = shown := by
        obtain ⟨image, mirrored, alike⟩ :=
          call_alike same.alike same.firstSound same.secondSound current unseen executes.2.1 ran
        exact ⟨reply, image, mirrored, alike, rfl⟩
      obtain ⟨shown, final, mirrored, still, rfl⟩ := store_mirrored call (· = ·) matched current ⟨rfl, same⟩ executes
      exact ⟨final, mirrored, still⟩
  | session call =>
      obtain ⟨rfl, twins⟩ := twins
      obtain ⟨⟨performs, db_eq⟩, last_eq⟩ := executes
      obtain ⟨now, world, devices, credentials, told⟩ := last
      obtain ⟨rfl, _, rfl, rfl, rfl⟩ := Site.mk.inj last_eq
      refine ⟨{ two with world := { two.world with sessions := world.sessions } },
        ⟨⟨twins.sessions ▸ performs, rfl⟩, rfl⟩, rfl, ?_⟩
      have alike : Alike longest one.now world.db two.world.db := db_eq ▸ twins.alike
      have firstSound : Sound codeTtlMs one.now one.devices one.credentials world.db :=
        db_eq ▸ twins.firstSound
      exact { twins with sessions := rfl, alike, firstSound }
  | host call => exact host_mirrored oblivious twins executes

/-- The clocks of the twins read the same. -/
theorem clock_mirrors
    : (host.clock).Mirrors (siteExec platform sessions) (TwinsAt longest codeTtlMs now) host.clock
        (fun read shown last final =>
          read = shown ∧ now ≤ read ∧ TwinsAt longest codeTtlMs read last final) := by
  intro one two twins read last run
  obtain ⟨⟨answers, world_eq⟩, forward, last_eq⟩ := Program.evaluates_perform.mp run
  obtain ⟨rfl, twins⟩ := twins
  obtain ⟨now, world, devices, credentials, told⟩ := last
  obtain rfl : world = one.world := world_eq
  obtain ⟨rfl, _, rfl, rfl, rfl⟩ := Site.mk.inj last_eq
  refine ⟨now, { two.tells .clock now with now }, Program.evaluates_perform.mpr ⟨⟨trivial, rfl⟩, ?_, rfl⟩, rfl,
    forward, rfl, (twins.tells .clock now).later forward⟩
  exact twins.now.le.trans forward

/-- A report of revoked devices leaves the site as it is. -/
theorem report_iff {event : AuthEvent} (report : revocationReport (.onEvent event)) {reply : Unit}
    : Program.Evaluates (siteExec platform sessions) (host.onEvent event) one reply last ↔ last = one := by
  have untold : one.tells (.onEvent event) reply = one := by
    simp only [Site.tells, report, if_true]
  rw [Program.evaluates_perform]
  constructor
  · rintro ⟨⟨answers, world_eq⟩, last_eq⟩
    rw [show last = { one.tells (.onEvent event) reply with world := last.world } from last_eq, world_eq, untold]
  · rintro rfl
    exact ⟨⟨trivial, rfl⟩, untold.symm⟩

/-- So it may be made at one of the sites only, or be another at the other. -/
theorem onEventIf_mirrors (first second : Bool) {event image : AuthEvent}
    (report : revocationReport (.onEvent event)) (other : revocationReport (.onEvent image))
    : (host.onEventIf first event).Mirrors (siteExec platform sessions) (Twins longest codeTtlMs)
        (host.onEventIf second image) (fun _ _ => Twins longest codeTtlMs) := by
  intro one two twins reply last run
  have still : last = one := by
    cases first with
    | true => exact (report_iff report).mp run
    | false => exact (Program.evaluates_pure.mp run).2
  subst still
  refine ⟨(), two, ?_, twins⟩
  cases second with
  | true => exact (report_iff other).mpr rfl
  | false => exact Program.evaluates_pure.mpr ⟨rfl, rfl⟩

end DeviceAuth

end WorkersAuth

import Mathlib.Data.List.Sort
import WorkersAuth.Tables.Table
import WorkersAuth.Types

/-! `d1DeviceAuthStore`: the five tables of device auth and the statements over them.
Each function is one call of the store. Every counter is checked and moved by a single
statement, and a D1 batch is one transaction, so one call is one atomic step.
-/

namespace WorkersAuth.DeviceAuth

open Tables

-----------------------------------------------------------------------------------------
-- Rows and tables
-----------------------------------------------------------------------------------------

structure EmailCodeRecord where
  email : String
  codeHash : String
  keyId : String
  expiresAt : Millis
  createdAt : Millis
  attemptsResetAt : Millis

/-- A stored code: the record last put, and the attempts used on the address so far. -/
structure EmailCodeRow extends EmailCodeRecord where
  attempts : Nat

/-- An attempt stays with its address. -/
theorem EmailCodeRow.email_attempted (row : EmailCodeRow)
    : { row with attempts := row.attempts + 1 }.email = row.email :=
  rfl

structure ReservedEmailCode where
  codeHash : String
  keyId : String
  attempts : Nat

structure DeviceRecord where
  deviceId : String
  accountId : String
  email : String
  secretHash : String
  label : Option String
  createdAt : Millis
  lastUsedAt : Millis
  idleExpiresAt : Millis
  absoluteExpiresAt : Millis
  revokedAt : Option Millis
  deriving DecidableEq

/-- A revoked device keeps its id. -/
theorem DeviceRecord.deviceId_revoked (now : Millis) (row : DeviceRecord)
    : { row with revokedAt := some now }.deviceId = row.deviceId :=
  rfl

/-- What listing exposes: no secret hash, address or revocation time. -/
structure DeviceInfo where
  deviceId : String
  accountId : String
  label : Option String
  createdAt : Millis
  lastUsedAt : Millis
  idleExpiresAt : Millis
  absoluteExpiresAt : Millis

inductive CredentialType where
  | pin
  | passkey
  deriving DecidableEq

structure CredentialRecord where
  credentialId : String
  accountId : String
  type : CredentialType
  deviceId : Option String
  material : JsonObject
  createdAt : Millis
  updatedAt : Millis
  lastUsedAt : Option Millis

structure CredentialRow extends CredentialRecord where
  revokedAt : Option Millis

structure GuardRow where
  accountId : String
  failedCount : Nat
  lockedAt : Option Millis
  updatedAt : Millis

structure GuardState where
  failedCount : Nat
  lockedAt : Option Millis

/-- A fixed window. `failures` is used by the circuit breaker's row only. -/
structure RateLimitRow where
  bucket : String
  windowStart : Millis
  count : Nat
  failures : Nat

structure WindowCount where
  count : Nat
  windowStart : Millis

structure CircuitBreakerState where
  attempts : Nat
  failures : Nat
  windowStart : Millis

/-- `revokeOtherDevices` carries `exceptDeviceId`. -/
structure ReplaceCredentialOptions where
  resetLoginGuard : Bool
  revokeOtherDevices : Option (Option String)

structure ReplaceCredentialResult where
  replaced : Bool
  devicesRevoked : Nat

structure Database where
  codes : Table String EmailCodeRow (fun row => row.email)
  devices : Table String DeviceRecord (fun row => row.deviceId)
  creds : Table String CredentialRow (fun row => row.credentialId)
  guards : Table String GuardRow (fun row => row.accountId)
  limits : Table String RateLimitRow (fun row => row.bucket)

/-- The tables as the migration creates them. -/
def Database.empty : Database := ⟨.empty, .empty, .empty, .empty, .empty⟩

namespace Database

variable (db : Database)

-----------------------------------------------------------------------------------------
-- Fixed-window counters
-----------------------------------------------------------------------------------------

/-- `WHEN window_start <= now - windowMs`: the window has lapsed. -/
def lapsed (windowMs now : Millis) (row : RateLimitRow) : Bool :=
  row.windowStart ≤ now - windowMs

/-- The `SET` list shared by the counters: restart a lapsed window, else count one more. -/
def countHit (windowMs now : Millis) (failure : Nat) (row : RateLimitRow) : RateLimitRow :=
  if lapsed windowMs now row then
    { row with count := 1, failures := failure, windowStart := now }
  else
    { row with count := row.count + 1, failures := row.failures + failure }

theorem countHit_bucket (windowMs now : Millis) (failure : Nat) (row : RateLimitRow)
    : (countHit windowMs now failure row).bucket = row.bucket := by
  unfold countHit
  split <;> rfl

/-- As `countHit`, for the statements whose `SET` list leaves `failures` alone. -/
def countOne (windowMs now : Millis) (row : RateLimitRow) : RateLimitRow :=
  if lapsed windowMs now row then
    { row with count := 1, windowStart := now }
  else
    { row with count := row.count + 1 }

theorem countOne_bucket (windowMs now : Millis) (row : RateLimitRow)
    : (countOne windowMs now row).bucket = row.bucket := by
  unfold countOne
  split <;> rfl

def hitRateLimit (bucket : String) (windowMs now : Millis) : WindowCount × Database :=
  let (row, limits) := db.limits.upsertReturning ⟨bucket, now, 1, 0⟩ (fun _ => true)
    (countOne windowMs now) (countOne_bucket windowMs now)
  (
    { count := (row.map (·.count)).getD 1, windowStart := (row.map (·.windowStart)).getD now },
    { db with limits }
  )

def reserveRateLimit (bucket : String) (windowMs now : Millis) (max : Nat)
    : Option WindowCount × Database :=
  let (row, limits) := db.limits.upsertReturning ⟨bucket, now, 1, 0⟩
    (fun row => lapsed windowMs now row || row.count < max)
    (countOne windowMs now) (countOne_bucket windowMs now)
  (row.map (fun row => ⟨row.count, row.windowStart⟩), { db with limits })

def readRateLimit (bucket : String) (windowMs now : Millis) : WindowCount :=
  let row := (db.limits.find bucket).filter (fun row => row.windowStart > now - windowMs)
  { count := (row.map (·.count)).getD 0, windowStart := (row.map (·.windowStart)).getD now }

def refundRateLimit (bucket : String) (windowStart : Millis) : Database :=
  {
    db with
    limits := db.limits.updateWhere
      (fun row => row.bucket = bucket && row.windowStart = windowStart && row.count > 0)
      (fun row => { row with count := row.count - 1 })
  }

def hitCircuitBreaker (bucket : String) (windowMs now : Millis) (failed : Bool)
    : CircuitBreakerState × Database :=
  let failure := if failed then 1 else 0
  let (row, limits) := db.limits.upsertReturning ⟨bucket, now, 1, failure⟩ (fun _ => true)
    (countHit windowMs now failure) (countHit_bucket windowMs now failure)
  (
    {
      attempts := (row.map (·.count)).getD 1
      failures := (row.map (·.failures)).getD failure
      windowStart := (row.map (·.windowStart)).getD now
    },
    { db with limits }
  )

def readCircuitBreaker (bucket : String) (windowMs now : Millis) : CircuitBreakerState :=
  let row := (db.limits.find bucket).filter (fun row => row.windowStart > now - windowMs)
  {
    attempts := (row.map (·.count)).getD 0
    failures := (row.map (·.failures)).getD 0
    windowStart := (row.map (·.windowStart)).getD now
  }

-----------------------------------------------------------------------------------------
-- Email codes
-----------------------------------------------------------------------------------------

/-- `ON CONFLICT(email) DO UPDATE`: a resend replaces the code, and while the stored
deadline is still ahead it keeps both the attempts used and that deadline.
-/
def resend (record : EmailCodeRecord) (row : EmailCodeRow) : EmailCodeRow :=
  let carries := row.attemptsResetAt > record.createdAt
  {
    email := row.email
    codeHash := record.codeHash
    keyId := record.keyId
    attempts := if carries then row.attempts else 0
    attemptsResetAt := if carries then row.attemptsResetAt else record.attemptsResetAt
    expiresAt := record.expiresAt
    createdAt := record.createdAt
  }

theorem resend_email (record : EmailCodeRecord) (row : EmailCodeRow)
    : (resend record row).email = row.email := rfl

def putEmailCode (record : EmailCodeRecord) : Database :=
  { db with codes := db.codes.upsert ⟨record, 0⟩ (resend record) (resend_email record) }

def reserveEmailCodeAttempt (email : String) (now : Millis) (maxAttempts : Nat)
    : Option ReservedEmailCode × Database :=
  let (row, codes) := db.codes.updateReturning email
    (fun row => row.attempts < maxAttempts && row.expiresAt > now)
    (fun row => { row with attempts := row.attempts + 1 }) EmailCodeRow.email_attempted
  (row.map (fun row => ⟨row.codeHash, row.keyId, row.attempts⟩), { db with codes })

def consumeEmailCode (email codeHash : String) : Bool × Database :=
  let (row, codes) := db.codes.deleteReturning email (fun row => row.codeHash = codeHash)
  (row.isSome, { db with codes })

-----------------------------------------------------------------------------------------
-- Trusted devices
-----------------------------------------------------------------------------------------

/-- `revoked_at IS NULL AND idle_expires_at > now AND absolute_expires_at > now`. -/
def deviceLive (now : Millis) (row : DeviceRecord) : Bool :=
  row.revokedAt.isNone && row.idleExpiresAt > now && row.absoluteExpiresAt > now

/-- Refused when the id is taken: the statement violates the primary key and throws. -/
def createDevice (record : DeviceRecord) : Option Database :=
  (db.devices.insert { record with revokedAt := none }).map
    (fun devices => { db with devices })

def findDevice (deviceId : String) : Option DeviceRecord := db.devices.find deviceId

def touchDevice (deviceId : String) (now idleExpiresAt : Millis) : Option Millis × Database :=
  let (row, devices) := db.devices.updateReturning deviceId (deviceLive now)
    (fun row =>
      { row with lastUsedAt := now, idleExpiresAt := min idleExpiresAt row.absoluteExpiresAt })
  (row.map (·.idleExpiresAt), { db with devices })

def listDevices (accountId : String) (now : Millis) : List DeviceInfo :=
  ((db.devices.rows.filter (fun row => row.accountId = accountId && deviceLive now row)).insertionSort
      (fun first second => first.createdAt ≤ second.createdAt)).map
    (fun row =>
      {
        deviceId := row.deviceId
        accountId := row.accountId
        label := row.label
        createdAt := row.createdAt
        lastUsedAt := row.lastUsedAt
        idleExpiresAt := row.idleExpiresAt
        absoluteExpiresAt := row.absoluteExpiresAt
      })

def revokeDevice (accountId deviceId : String) (now : Millis) : Bool × Database :=
  let (row, devices) := db.devices.updateReturning deviceId
    (fun row => row.accountId = accountId && row.revokedAt.isNone)
    (fun row => { row with revokedAt := some now }) (DeviceRecord.deviceId_revoked now)
  (row.isSome, { db with devices })

/-- The rows both bulk revocations select; `device_id IS NOT NULL` holds of every row. -/
def otherDevice (accountId : String) (exceptDeviceId : Option String) (row : DeviceRecord) : Bool :=
  row.accountId = accountId && row.revokedAt.isNone && some row.deviceId ≠ exceptDeviceId

def revokeAllDevices (accountId : String) (now : Millis) (exceptDeviceId : Option String)
    : Nat × Database :=
  (
    db.devices.countWhere (otherDevice accountId exceptDeviceId),
    {
      db with
      devices := db.devices.updateWhere (otherDevice accountId exceptDeviceId)
        (fun row => { row with revokedAt := some now }) (DeviceRecord.deviceId_revoked now)
    }
  )

-----------------------------------------------------------------------------------------
-- Credentials
-----------------------------------------------------------------------------------------

/-- `account_id = ? AND type = ? AND revoked_at IS NULL`. -/
def activeCredential (accountId : String) (type : CredentialType) (row : CredentialRow) : Bool :=
  row.accountId = accountId && row.type = type && row.revokedAt.isNone

def getActiveCredential (accountId : String) (type : CredentialType) : Option CredentialRecord :=
  ((db.creds.rows.filter (activeCredential accountId type)).insertionSort
      (fun first second => first.createdAt ≥ second.createdAt)).head?.map
    (·.toCredentialRecord)

/-- `UPDATE guards SET failed_count = 0, locked_at = NULL`. -/
def clearGuard (accountId : String) (now : Millis) : Database :=
  {
    db with
    guards := db.guards.updateWhere (fun row => row.accountId = accountId)
      (fun row => { row with failedCount := 0, lockedAt := none, updatedAt := now })
  }

/-- The first statement of a replacement: the other devices, if it replaces anything. -/
def revokeOthers (record : CredentialRecord) (options : ReplaceCredentialOptions)
    (replaced : Bool)
    : Nat × Database :=
  match options.revokeOtherDevices with
  | some exceptDeviceId =>
      if replaced then db.revokeAllDevices record.accountId record.updatedAt exceptDeviceId
      else (0, db)
  | none => (0, db)

/-- One batch. The devices are revoked while the old credential is still live, then the
old credential is revoked, then the new one is inserted. A taken credential id fails the
insert and with it the whole batch.
-/
def replaceCredential (record : CredentialRecord) (options : ReplaceCredentialOptions)
    : Option (ReplaceCredentialResult × Database) :=
  let active := activeCredential record.accountId record.type
  let replaced : Bool := db.creds.countWhere active > 0
  let (devicesRevoked, revoked) := db.revokeOthers record options replaced
  let creds := revoked.creds.updateWhere active
    (fun row => { row with revokedAt := some record.updatedAt, updatedAt := record.updatedAt })
  (creds.insert ⟨{ record with lastUsedAt := none }, none⟩).map
    (fun creds =>
      let inserted := { revoked with creds }
      (
        { replaced, devicesRevoked },
        if options.resetLoginGuard then inserted.clearGuard record.accountId record.updatedAt
        else inserted
      ))

def markCredentialUsed (credentialId : String) (now : Millis) (material : Option JsonObject)
    : Database :=
  {
    db with
    creds := db.creds.updateWhere
      (fun row => row.credentialId = credentialId && row.revokedAt.isNone)
      (fun row =>
        match material with
        | some material => { row with lastUsedAt := some now, updatedAt := now, material }
        | none => { row with lastUsedAt := some now })
      (by intro row; cases material <;> rfl)
  }

-----------------------------------------------------------------------------------------
-- Login guards
-----------------------------------------------------------------------------------------

def reserveLoginAttempt (accountId : String) (maxAttempts : Nat) (now : Millis)
    : Option Nat × Database :=
  let (row, guards) := db.guards.upsertReturning ⟨accountId, 1, none, now⟩
    (fun row => row.failedCount < maxAttempts && row.lockedAt.isNone)
    (fun row => { row with failedCount := row.failedCount + 1, updatedAt := now })
  (row.map (·.failedCount), { db with guards })

def lockAccount (accountId : String) (maxAttempts : Nat) (now : Millis) : Database :=
  {
    db with
    guards := db.guards.updateWhere
      (fun row => row.accountId = accountId && row.failedCount ≥ maxAttempts)
      (fun row => { row with lockedAt := some (row.lockedAt.getD now), updatedAt := now })
  }

def readLoginGuard (accountId : String) : Option GuardState :=
  (db.guards.find accountId).map (fun row => ⟨row.failedCount, row.lockedAt⟩)

/-- One batch: the state before, then the clearing. -/
def resetLoginGuard (accountId : String) (now : Millis) : Option GuardState × Database :=
  (db.readLoginGuard accountId, db.clearGuard accountId now)

-----------------------------------------------------------------------------------------
-- Cleanup
-----------------------------------------------------------------------------------------

/-- One batch of deletions; answers how many rows they removed. -/
def cleanup (now rateLimitHorizonMs : Millis) : Nat × Database :=
  let codes := db.codes.deleteWhere (fun row => row.expiresAt ≤ now)
  let devices :=
    ((db.devices.deleteWhere (fun row => row.absoluteExpiresAt ≤ now)).deleteWhere
      (fun row => row.idleExpiresAt ≤ now)).deleteWhere (fun row => row.revokedAt.isSome)
  let creds := db.creds.deleteWhere (fun row => row.revokedAt.isSome)
  let limits := db.limits.deleteWhere (fun row => row.windowStart ≤ now - rateLimitHorizonMs)
  (
    (db.codes.rows.length - codes.rows.length) + (db.devices.rows.length - devices.rows.length)
      + (db.creds.rows.length - creds.rows.length) + (db.limits.rows.length - limits.rows.length),
    { db with codes, devices, creds, limits }
  )

-----------------------------------------------------------------------------------------
-- The statements on codes, row by row
-----------------------------------------------------------------------------------------

/-- A stored code is reserved when it has attempts left and is unexpired. -/
theorem reserveEmailCodeAttempt_fst (email : String) (now : Millis) (maxAttempts : Nat)
    : (db.reserveEmailCodeAttempt email now maxAttempts).1
      = ((db.codes.find email).filter
          (fun row => row.attempts < maxAttempts && row.expiresAt > now)).map
        (fun row => ⟨row.codeHash, row.keyId, row.attempts + 1⟩) := by
  change Option.map _ (Table.updateReturning ..).1 = _
  rw [Table.updateReturning_fst, Option.map_map]
  rfl

/-- It is counted on that row and on no other. -/
theorem find_reserveEmailCodeAttempt (email other : String) (now : Millis) (maxAttempts : Nat)
    : (db.reserveEmailCodeAttempt email now maxAttempts).2.codes.find other
      = if other = email then
          (db.codes.find other).map (fun row =>
            if row.attempts < maxAttempts && row.expiresAt > now then
              { row with attempts := row.attempts + 1 }
            else row)
        else db.codes.find other :=
  Table.find_updateReturning ..

/-- A code is consumed when the stored one has the hash that was compared. -/
theorem consumeEmailCode_fst (email codeHash : String)
    : (db.consumeEmailCode email codeHash).1
      = ((db.codes.find email).filter (fun row => row.codeHash = codeHash)).isSome :=
  congrArg Option.isSome (Table.deleteReturning_fst ..)

/-- Then that row is gone and no other. -/
theorem find_consumeEmailCode (email other codeHash : String)
    : (db.consumeEmailCode email codeHash).2.codes.find other
      = if other = email then (db.codes.find other).filter (fun row => !(row.codeHash = codeHash))
        else db.codes.find other :=
  Table.find_deleteReturning ..

end Database

end WorkersAuth.DeviceAuth

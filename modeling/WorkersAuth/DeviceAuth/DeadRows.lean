import WorkersAuth.DeviceAuth.Frame
import WorkersAuth.DeviceAuth.Routes
import WorkersAuth.Tables.Hidden

/-! The rows that `cleanup` may delete.
Expired codes, dead devices, revoked credentials and counters whose window has passed may stand in the
tables or not: no statement that matters answers differently. Each lemma follows one statement from two
databases that differ in such rows only.
-/

namespace WorkersAuth.DeviceAuth

open Tables

-----------------------------------------------------------------------------------------
-- Databases that differ in dead rows only
-----------------------------------------------------------------------------------------

/-- The databases differ in dead rows only, where no counter uses a window longer than `longest`. -/
structure Alike (longest now : Millis) (first second : Database) : Prop where
  codes : ∀ email, (first.codes.find email).filter (fun row => now < row.expiresAt)
    = (second.codes.find email).filter (fun row => now < row.expiresAt)
  devices : first.devices.AlikeBut (fun row => !Database.deviceLive now row) second.devices
  creds : first.creds.AlikeBut (fun row => row.revokedAt.isSome) second.creds
  guards : first.guards = second.guards
  limits : ∀ bucket, (first.limits.find bucket).filter (fun row => !Database.lapsed longest now row)
    = (second.limits.find bucket).filter (fun row => !Database.lapsed longest now row)

variable {longest now moment : Millis} {first second : Database}

theorem Alike.refl (db : Database) : Alike longest now db db :=
  ⟨fun _ => rfl, .refl _, .refl _, rfl, fun _ => rfl⟩

theorem Alike.symm (alike : Alike longest now first second) : Alike longest now second first :=
  ⟨fun email => (alike.codes email).symm, alike.devices.symm, alike.creds.symm, alike.guards.symm,
    fun bucket => (alike.limits bucket).symm⟩

theorem Alike.trans {third : Database} (front : Alike longest now first second)
    (back : Alike longest now second third)
    : Alike longest now first third :=
  ⟨fun email => (front.codes email).trans (back.codes email), front.devices.trans back.devices,
    front.creds.trans back.creds, front.guards.trans back.guards,
    fun bucket => (front.limits bucket).trans (back.limits bucket)⟩

/-- A narrower filter agrees where a wider one does. -/
theorem filter_congr_of_le {α : Type} {one other : Option α} {wide narrow : α → Bool}
    (agree : one.filter wide = other.filter wide) (le : ∀ value, narrow value = true → wide value = true)
    : one.filter narrow = other.filter narrow := by
  have nested (found : Option α) : found.filter narrow = (found.filter wide).filter narrow := by
    rw [Option.filter_filter]
    congr 1
    funext value
    cases small : narrow value with
    | false => simp
    | true => simp [le value small]
  rw [nested one, nested other, agree]

/-- A dead device stays dead as time passes. -/
theorem deviceLive_of_later (late : now ≤ moment) {row : DeviceRecord}
    (live : Database.deviceLive moment row = true)
    : Database.deviceLive now row = true := by
  simp only [Database.deviceLive, Bool.and_eq_true, decide_eq_true_eq] at live ⊢
  exact ⟨⟨live.1.1, late.trans_lt live.1.2⟩, late.trans_lt live.2⟩

/-- Dead rows stay dead as time passes. -/
theorem Alike.later (alike : Alike longest now first second) (late : now ≤ moment)
    : Alike longest moment first second where
  codes email := by
    refine filter_congr_of_le (alike.codes email) (fun row live => ?_)
    simp only [decide_eq_true_eq] at live ⊢
    exact late.trans_lt live
  devices := by
    refine alike.devices.mono (fun row dead => ?_)
    cases live : Database.deviceLive moment row with
    | false => rfl
    | true => simp [deviceLive_of_later late live] at dead
  creds := alike.creds
  guards := alike.guards
  limits bucket := by
    refine filter_congr_of_le (alike.limits bucket) (fun row counts => ?_)
    simp only [Database.lapsed, Bool.not_eq_true', decide_eq_false_iff_not, not_le] at counts ⊢
    linarith

/-- A cleanup deletes dead rows only, when its horizon is no shorter than any window. -/
theorem cleanup_alike (db : Database) {horizon : Millis} (covers : longest ≤ horizon)
    : Alike longest now (db.cleanup now horizon).2 db where
  codes email := by
    simp only [Database.cleanup, Table.find_deleteWhere, Option.filter_filter]
    congr 1
    funext row
    simp [not_le]
  devices := by
    refine (Table.alikeBut_deleteWhere _ (fun row revoked => ?_)).trans
      ((Table.alikeBut_deleteWhere _ (fun row idle => ?_)).trans
        (Table.alikeBut_deleteWhere _ (fun row old => ?_)))
    · simp [Database.deviceLive, revoked]
    · have past : ¬row.idleExpiresAt > now := not_lt.mpr (of_decide_eq_true idle)
      simp [Database.deviceLive, past]
    · have past : ¬row.absoluteExpiresAt > now := not_lt.mpr (of_decide_eq_true old)
      simp [Database.deviceLive, past]
  creds := Table.alikeBut_deleteWhere _ (fun _ => id)
  guards := rfl
  limits bucket := by
    simp only [Database.cleanup, Table.find_deleteWhere, Option.filter_filter]
    congr 1
    funext row
    simp only [Database.lapsed]
    by_cases old : row.windowStart ≤ now - longest
    · simp [old]
    · have still : ¬row.windowStart ≤ now - horizon := by
        rw [not_le] at old ⊢
        linarith
      simp [old, still]

-----------------------------------------------------------------------------------------
-- Counters
-----------------------------------------------------------------------------------------

/-- What is written for a bucket, whose row has it as its key; no failures but the breaker's are counted. -/
def Counts (bucket : String) (row : RateLimitRow) : Prop :=
  row.bucket = bucket ∧ (bucket ≠ cbBucket → row.failures = 0)

/-- The rows of a database count so. -/
def CountsWell (db : Database) : Prop :=
  ∀ bucket row, db.limits.find bucket = some row → Counts bucket row

variable {windowMs : Millis} {bucket : String}

/-- A window that has passed has passed for every counter. -/
theorem lapsed_shorter (short : windowMs ≤ longest) {row : RateLimitRow}
    (old : Database.lapsed longest now row = true)
    : Database.lapsed windowMs now row = true := by
  simp only [Database.lapsed, decide_eq_true_eq] at old ⊢
  linarith

/-- A hit on a lapsed row leaves what a first hit leaves. -/
theorem countOne_lapsed {found : Option RateLimitRow} (short : windowMs ≤ longest)
    (counts : ∀ row, found = some row → Counts bucket row) (own : bucket ≠ cbBucket)
    : (found.map (Database.countOne windowMs now)).getD ⟨bucket, now, 1, 0⟩
      = ((found.filter (fun row => !Database.lapsed longest now row)).map
          (Database.countOne windowMs now)).getD ⟨bucket, now, 1, 0⟩ := by
  cases found with
  | none => rfl
  | some row =>
      cases old : Database.lapsed longest now row with
      | false => simp [Option.filter, old]
      | true =>
          obtain ⟨same, none_⟩ := counts row rfl
          simp [Option.filter, old, Database.countOne, lapsed_shorter short old, same, none_ own]

/-- So does a hit of the breaker. -/
theorem countHit_lapsed {found : Option RateLimitRow} (short : windowMs ≤ longest) (failure : Nat)
    (counts : ∀ row, found = some row → Counts bucket row)
    : (found.map (Database.countHit windowMs now failure)).getD ⟨bucket, now, 1, failure⟩
      = ((found.filter (fun row => !Database.lapsed longest now row)).map
          (Database.countHit windowMs now failure)).getD ⟨bucket, now, 1, failure⟩ := by
  cases found with
  | none => rfl
  | some row =>
      cases old : Database.lapsed longest now row with
      | false => simp [Option.filter, old]
      | true =>
          simp [Option.filter, old, Database.countHit, lapsed_shorter short old, (counts row rfl).1]

/-- Where one bucket's row is the same and the others are alike, the counters are alike. -/
theorem Alike.write_limit (alike : Alike longest now first second)
    {limits image : Table String RateLimitRow (fun row => row.bucket)} (bucket : String)
    (written : RateLimitRow)
    (one : ∀ other, limits.find other = if other = bucket then some written else first.limits.find other)
    (two : ∀ other, image.find other = if other = bucket then some written else second.limits.find other)
    : Alike longest now { first with limits } { second with limits := image } where
  codes := alike.codes
  devices := alike.devices
  creds := alike.creds
  guards := alike.guards
  limits other := by
    simp only [one, two]
    split
    · rfl
    · exact alike.limits other

/-- What a hit writes is the same in both. -/
theorem Alike.countOne_eq (alike : Alike longest now first second) (firstCounts : CountsWell first)
    (secondCounts : CountsWell second) (short : windowMs ≤ longest) (own : bucket ≠ cbBucket)
    : ((first.limits.find bucket).map (Database.countOne windowMs now)).getD ⟨bucket, now, 1, 0⟩
      = ((second.limits.find bucket).map (Database.countOne windowMs now)).getD ⟨bucket, now, 1, 0⟩ := by
  rw [countOne_lapsed short (firstCounts bucket) own, alike.limits bucket,
    ← countOne_lapsed short (secondCounts bucket) own]

theorem hitRateLimit_alike (alike : Alike longest now first second) (firstCounts : CountsWell first)
    (secondCounts : CountsWell second) (short : windowMs ≤ longest) (own : bucket ≠ cbBucket)
    : (first.hitRateLimit bucket windowMs now).1 = (second.hitRateLimit bucket windowMs now).1
      ∧ Alike longest now (first.hitRateLimit bucket windowMs now).2
          (second.hitRateLimit bucket windowMs now).2 := by
  have same := alike.countOne_eq firstCounts secondCounts short own
  constructor
  · simp [Database.hitRateLimit, Table.upsertReturning_fst, same]
  · refine alike.write_limit bucket
      (((first.limits.find bucket).map (Database.countOne windowMs now)).getD ⟨bucket, now, 1, 0⟩)
      (fun other => ?_) (fun other => ?_)
    · exact (Table.find_upsertReturning ..).trans (by simp)
    · exact (Table.find_upsertReturning ..).trans (by simp [same])

/-- A reservation is granted in both or refused in both. -/
theorem reserveRateLimit_alike (alike : Alike longest now first second) (firstCounts : CountsWell first)
    (secondCounts : CountsWell second) (short : windowMs ≤ longest) (own : bucket ≠ cbBucket) (max : Nat)
    : (first.reserveRateLimit bucket windowMs now max).1 = (second.reserveRateLimit bucket windowMs now max).1
      ∧ Alike longest now (first.reserveRateLimit bucket windowMs now max).2
          (second.reserveRateLimit bucket windowMs now max).2 := by
  let applies (row : RateLimitRow) : Bool := Database.lapsed windowMs now row || row.count < max
  have same := alike.countOne_eq firstCounts secondCounts short own
  have lapsed_applies (found : Option RateLimitRow)
      : found.all applies
        = (found.filter (fun row => !Database.lapsed longest now row)).all applies := by
    cases found with
    | none => rfl
    | some row =>
        cases old : Database.lapsed longest now row with
        | false => simp [Option.filter, old]
        | true => simp [Option.filter, old, applies, lapsed_shorter short old]
  have granted : (first.limits.find bucket).all applies = (second.limits.find bucket).all applies := by
    rw [lapsed_applies, alike.limits bucket, ← lapsed_applies]
  constructor
  · simp only [Database.reserveRateLimit, Table.upsertReturning_fst]
    change Option.map _ (if (first.limits.find bucket).all applies = true then _ else _)
      = Option.map _ (if (second.limits.find bucket).all applies = true then _ else _)
    rw [granted, same]
  · cases fits : (second.limits.find bucket).all applies with
    | true =>
        refine alike.write_limit bucket
          (((first.limits.find bucket).map (Database.countOne windowMs now)).getD ⟨bucket, now, 1, 0⟩)
          (fun other => ?_) (fun other => ?_)
        · refine (Table.find_upsertReturning ..).trans ?_
          simp only [applies] at granted fits
          simp [granted, fits]
        · refine (Table.find_upsertReturning ..).trans ?_
          simp only [applies] at fits
          simp [fits, same]
    | false =>
        have kept {db : Database} (refused : (db.limits.find bucket).all applies = false)
            : (db.reserveRateLimit bucket windowMs now max).2 = db := by
          simp only [applies] at refused
          simp [Database.reserveRateLimit, Table.upsertReturning, refused]
        rw [kept (granted.trans fits), kept fits]
        exact alike

/-- A window that still counts is read in both. -/
theorem Alike.read_limit (alike : Alike longest now first second) (short : windowMs ≤ longest)
    (bucket : String)
    : (first.limits.find bucket).filter (fun row => row.windowStart > now - windowMs)
      = (second.limits.find bucket).filter (fun row => row.windowStart > now - windowMs) := by
  refine filter_congr_of_le (alike.limits bucket) (fun row counts => ?_)
  simp only [Database.lapsed, Bool.not_eq_true', decide_eq_false_iff_not, not_le, decide_eq_true_eq] at counts ⊢
  linarith

theorem readRateLimit_alike (alike : Alike longest now first second) (short : windowMs ≤ longest)
    : first.readRateLimit bucket windowMs now = second.readRateLimit bucket windowMs now := by
  simp only [Database.readRateLimit, alike.read_limit short bucket]

theorem readCircuitBreaker_alike (alike : Alike longest now first second) (short : windowMs ≤ longest)
    : first.readCircuitBreaker bucket windowMs now = second.readCircuitBreaker bucket windowMs now := by
  simp only [Database.readCircuitBreaker, alike.read_limit short bucket]

theorem hitCircuitBreaker_alike (alike : Alike longest now first second) (firstCounts : CountsWell first)
    (secondCounts : CountsWell second) (short : windowMs ≤ longest) (failed : Bool)
    : (first.hitCircuitBreaker bucket windowMs now failed).1
        = (second.hitCircuitBreaker bucket windowMs now failed).1
      ∧ Alike longest now (first.hitCircuitBreaker bucket windowMs now failed).2
          (second.hitCircuitBreaker bucket windowMs now failed).2 := by
  let failure : Nat := if failed then 1 else 0
  have same : ((first.limits.find bucket).map (Database.countHit windowMs now failure)).getD
        ⟨bucket, now, 1, failure⟩
      = ((second.limits.find bucket).map (Database.countHit windowMs now failure)).getD
        ⟨bucket, now, 1, failure⟩ := by
    rw [countHit_lapsed short failure (firstCounts bucket), alike.limits bucket,
      ← countHit_lapsed short failure (secondCounts bucket)]
  simp only [failure] at same
  constructor
  · simp [Database.hitCircuitBreaker, Table.upsertReturning_fst, same]
  · refine alike.write_limit bucket (((first.limits.find bucket).map
      (Database.countHit windowMs now failure)).getD ⟨bucket, now, 1, failure⟩)
      (fun other => ?_) (fun other => ?_)
    · exact (Table.find_upsertReturning ..).trans (by simp [failure])
    · exact (Table.find_upsertReturning ..).trans (by simp [failure, same])

/-- A refund keeps the window. -/
theorem refundRateLimit_alike (alike : Alike longest now first second) (windowStart : Millis)
    : Alike longest now (first.refundRateLimit bucket windowStart)
        (second.refundRateLimit bucket windowStart) where
  codes := alike.codes
  devices := alike.devices
  creds := alike.creds
  guards := alike.guards
  limits other := by
    have visible (db : Database)
        : ((db.refundRateLimit bucket windowStart).limits.find other).filter
            (fun row => !Database.lapsed longest now row)
          = ((db.limits.find other).filter (fun row => !Database.lapsed longest now row)).map
              (fun row => if row.bucket = bucket && row.windowStart = windowStart && row.count > 0 then
                { row with count := row.count - 1 } else row) := by
      rw [Database.refundRateLimit, Table.find_updateWhere]
      cases db.limits.find other with
      | none => rfl
      | some row =>
          have window : Database.lapsed longest now
              (if row.bucket = bucket && row.windowStart = windowStart && row.count > 0 then
                { row with count := row.count - 1 } else row) = Database.lapsed longest now row := by
            split <;> rfl
          cases old : Database.lapsed longest now row <;> simp only [Option.map_some, Option.filter, window, old] <;> rfl
    rw [visible first, visible second, alike.limits other]

-----------------------------------------------------------------------------------------
-- Email codes
-----------------------------------------------------------------------------------------

/-- The attempts on a code are forgotten no later than it expires. -/
def AttemptsEnd (db : Database) : Prop :=
  ∀ email row, db.codes.find email = some row → row.attemptsResetAt ≤ row.expiresAt

/-- A code that is sent now replaces an expired one as if there were none. -/
theorem putEmailCode_alike (alike : Alike longest now first second) (firstEnds : AttemptsEnd first)
    (secondEnds : AttemptsEnd second) {record : EmailCodeRecord} (sent : record.createdAt = now)
    : Alike longest now (first.putEmailCode record) (second.putEmailCode record) where
  codes email := by
    have visible {db : Database} (ends : AttemptsEnd db)
        : ((db.codes.find record.email).map (Database.resend record)).getD ⟨record, 0⟩
          = (((db.codes.find record.email).filter (fun row => now < row.expiresAt)).map
              (Database.resend record)).getD ⟨record, 0⟩ := by
      cases found : db.codes.find record.email with
      | none => rfl
      | some row =>
          by_cases live : now < row.expiresAt
          · simp [Option.filter, live]
          · have past : ¬row.attemptsResetAt > record.createdAt := by
              rw [sent, not_lt]
              exact (ends _ _ found).trans (not_lt.mp live)
            simp [Option.filter, live, Database.resend, past, Table.key_of_find found]
    have after (db : Database)
        : (db.putEmailCode record).codes.find email
          = if email = record.email then
              some (((db.codes.find record.email).map (Database.resend record)).getD ⟨record, 0⟩)
            else db.codes.find email :=
      Table.find_upsert ..
    rw [after first, after second]
    split
    · rw [visible firstEnds, alike.codes record.email, ← visible secondEnds]
    · exact alike.codes email
  devices := alike.devices
  creds := alike.creds
  guards := alike.guards
  limits := alike.limits

theorem reserveEmailCodeAttempt_alike (alike : Alike longest now first second) (email : String)
    (maxAttempts : Nat)
    : (first.reserveEmailCodeAttempt email now maxAttempts).1
        = (second.reserveEmailCodeAttempt email now maxAttempts).1
      ∧ Alike longest now (first.reserveEmailCodeAttempt email now maxAttempts).2
          (second.reserveEmailCodeAttempt email now maxAttempts).2 := by
  constructor
  · rw [Database.reserveEmailCodeAttempt_fst, Database.reserveEmailCodeAttempt_fst]
    congr 1
    refine filter_congr_of_le (alike.codes email) (fun row reserved => ?_)
    simp only [Bool.and_eq_true, decide_eq_true_eq] at reserved ⊢
    exact reserved.2
  · refine ⟨fun other => ?_, alike.devices, alike.creds, alike.guards, alike.limits⟩
    have visible (found : Option EmailCodeRow)
        : (found.map (fun row => if row.attempts < maxAttempts && row.expiresAt > now then
              { row with attempts := row.attempts + 1 } else row)).filter (fun row => now < row.expiresAt)
          = (found.filter (fun row => now < row.expiresAt)).map (fun row =>
              if row.attempts < maxAttempts && row.expiresAt > now then
                { row with attempts := row.attempts + 1 } else row) := by
      cases found with
      | none => rfl
      | some row =>
          by_cases live : now < row.expiresAt <;> by_cases left : row.attempts < maxAttempts <;>
            simp [Option.filter, live, left]
    rw [Database.find_reserveEmailCodeAttempt, Database.find_reserveEmailCodeAttempt]
    split
    · rw [visible, visible, alike.codes other]
    · exact alike.codes other

/-- A live code is consumed in both or in neither; an expired one is no longer there to be. -/
theorem consumeEmailCode_alike (alike : Alike longest now first second) (email codeHash : String)
    : Alike longest now (first.consumeEmailCode email codeHash).2
        (second.consumeEmailCode email codeHash).2 := by
  refine ⟨fun other => ?_, alike.devices, alike.creds, alike.guards, alike.limits⟩
  rw [Database.find_consumeEmailCode, Database.find_consumeEmailCode]
  split
  · have swapped (found : Option EmailCodeRow)
        : (found.filter (fun row => !(row.codeHash = codeHash))).filter (fun row => now < row.expiresAt)
          = (found.filter (fun row => now < row.expiresAt)).filter (fun row => !(row.codeHash = codeHash)) := by
      rw [Option.filter_filter, Option.filter_filter]
      congr 1
      funext row
      exact Bool.and_comm ..
    rw [swapped, swapped, alike.codes other]
  · exact alike.codes other

/-- The code that is stored for the address and has not expired has this hash. -/
def HasCode (now : Millis) (email codeHash : String) (db : Database) : Prop :=
  ∃ row, db.codes.find email = some row ∧ now < row.expiresAt ∧ row.codeHash = codeHash

/-- What is reserved is a code that has not expired, and it stays there. -/
theorem hasCode_of_reserved {db : Database} {email : String} {maxAttempts : Nat}
    {reserved : ReservedEmailCode}
    (granted : (db.reserveEmailCodeAttempt email now maxAttempts).1 = some reserved)
    : HasCode now email reserved.codeHash (db.reserveEmailCodeAttempt email now maxAttempts).2 := by
  rw [Database.reserveEmailCodeAttempt_fst, Option.map_eq_some_iff] at granted
  obtain ⟨row, found, rfl⟩ := granted
  obtain ⟨stored, live⟩ := Option.filter_eq_some_iff.mp found
  refine ⟨{ row with attempts := row.attempts + 1 }, ?_, ?_, rfl⟩
  · rw [Database.find_reserveEmailCodeAttempt, if_pos rfl, stored, Option.map_some, if_pos live]
  · simp only [Bool.and_eq_true, decide_eq_true_eq] at live
    exact live.2

/-- It is consumed. -/
theorem consumed_of_hasCode {db : Database} {email codeHash : String} (has : HasCode now email codeHash db)
    : (db.consumeEmailCode email codeHash).1 = true := by
  obtain ⟨row, found, _, same⟩ := has
  rw [Database.consumeEmailCode_fst, found]
  simp [Option.filter, same]

theorem HasCode.alike {email codeHash : String} (has : HasCode now email codeHash first)
    (alike : Alike longest now first second)
    : HasCode now email codeHash second := by
  obtain ⟨row, found, live, same⟩ := has
  have shown := alike.codes email
  rw [found, Option.filter_some, if_pos (by simpa using live)] at shown
  obtain ⟨stored, _⟩ := Option.filter_eq_some_iff.mp shown.symm
  exact ⟨row, stored, live, same⟩

-----------------------------------------------------------------------------------------
-- Devices
-----------------------------------------------------------------------------------------

/-- The devices may be updated where no dead one is selected to live. -/
theorem Alike.update_devices (alike : Alike longest now first second) {selects : DeviceRecord → Bool}
    {change : DeviceRecord → DeviceRecord} {keeps : ∀ row, (change row).deviceId = row.deviceId}
    (stays : ∀ row, Database.deviceLive now row = false → selects row = true →
      Database.deviceLive now (change row) = false)
    : Alike longest now { first with devices := first.devices.updateWhere selects change keeps }
        { second with devices := second.devices.updateWhere selects change keeps } where
  codes := alike.codes
  devices := by
    refine alike.devices.updateWhere keeps (fun row dead => ?_)
    simp only [Bool.not_eq_true'] at dead ⊢
    split
    · next selected => exact stays row dead selected
    · exact dead
  creds := alike.creds
  guards := alike.guards
  limits := alike.limits

/-- A device that is live is found in both or in neither. -/
theorem Alike.find_device (alike : Alike longest now first second) (deviceId : String)
    : (first.devices.find deviceId).filter (Database.deviceLive now)
      = (second.devices.find deviceId).filter (Database.deviceLive now) := by
  simpa only [Bool.not_not] using alike.devices.find_eq deviceId

theorem touchDevice_alike (alike : Alike longest now first second) (deviceId : String)
    (idleExpiresAt : Millis)
    : (first.touchDevice deviceId now idleExpiresAt).1 = (second.touchDevice deviceId now idleExpiresAt).1
      ∧ Alike longest now (first.touchDevice deviceId now idleExpiresAt).2
          (second.touchDevice deviceId now idleExpiresAt).2 := by
  constructor
  · simp only [Database.touchDevice, Table.updateReturning_fst, alike.find_device deviceId]
  · refine alike.update_devices (fun row dead selected => ?_)
    simp [dead] at selected

theorem listDevices_alike (alike : Alike longest now first second) (accountId : String)
    : first.listDevices accountId now = second.listDevices accountId now := by
  let listed (row : DeviceRecord) : Bool := row.accountId = accountId && Database.deviceLive now row
  have same : first.devices.rows.filter listed = second.devices.rows.filter listed := by
    refine alike.devices.filter_eq (fun row chosen => ?_)
    simp only [listed, Bool.and_eq_true] at chosen
    simp [chosen.2]
  simp only [listed] at same
  simp only [Database.listDevices, same]

/-- A revoked device is dead. -/
theorem deviceLive_revoked (row : DeviceRecord) (revokedAt : Millis)
    : Database.deviceLive now { row with revokedAt := some revokedAt } = false := by
  simp [Database.deviceLive]

theorem revokeDevice_alike (alike : Alike longest now first second) (accountId deviceId : String)
    (revokedAt : Millis)
    : Alike longest now (first.revokeDevice accountId deviceId revokedAt).2
        (second.revokeDevice accountId deviceId revokedAt).2 :=
  alike.update_devices (fun row _ _ => deviceLive_revoked row revokedAt)

theorem revokeAllDevices_alike (alike : Alike longest now first second) (accountId : String)
    (revokedAt : Millis) (exceptDeviceId : Option String)
    : Alike longest now (first.revokeAllDevices accountId revokedAt exceptDeviceId).2
        (second.revokeAllDevices accountId revokedAt exceptDeviceId).2 :=
  alike.update_devices (fun row _ _ => deviceLive_revoked row revokedAt)

/-- A new device is registered in both, when its id is new. -/
theorem createDevice_alike (alike : Alike longest now first second) {record : DeviceRecord}
    {after : Database} (created : first.createDevice record = some after)
    (free : second.devices.find record.deviceId = none)
    : ∃ image, second.createDevice record = some image ∧ Alike longest now after image := by
  obtain ⟨devices, inserted, rfl⟩ := Option.map_eq_some_iff.mp created
  obtain ⟨image, added, still⟩ := alike.devices.insert inserted free
  refine ⟨{ second with devices := image }, by rw [Database.createDevice, added, Option.map_some], ?_⟩
  exact ⟨alike.codes, still, alike.creds, alike.guards, alike.limits⟩

-----------------------------------------------------------------------------------------
-- Credentials
-----------------------------------------------------------------------------------------

/-- An active credential is not revoked. -/
theorem unrevoked_of_active {accountId : String} {type : CredentialType} {row : CredentialRow}
    (active : Database.activeCredential accountId type row = true)
    : row.revokedAt.isSome = false := by
  simp only [Database.activeCredential, Bool.and_eq_true] at active
  simpa using active.2

theorem getActiveCredential_alike (alike : Alike longest now first second) (accountId : String)
    (type : CredentialType)
    : first.getActiveCredential accountId type = second.getActiveCredential accountId type := by
  simp only [Database.getActiveCredential, alike.creds.filter_eq (fun _ => unrevoked_of_active)]

/-- A credential that was replaced is used no more. -/
theorem markCredentialUsed_alike (alike : Alike longest now first second) (credentialId : String)
    (usedAt : Millis) (material : Option JsonObject)
    : Alike longest now (first.markCredentialUsed credentialId usedAt material)
        (second.markCredentialUsed credentialId usedAt material) where
  codes := alike.codes
  devices := alike.devices
  creds := by
    refine alike.creds.updateWhere (by intro row; cases material <;> rfl) (fun row revoked => ?_)
    split
    · next selected =>
        simp only [Bool.and_eq_true] at selected
        simp [Option.isNone_iff_eq_none.mp selected.2] at revoked
    · exact revoked
  guards := alike.guards
  limits := alike.limits

/-- Where the guards are the same they may be changed in the same way. -/
theorem Alike.write_guards (alike : Alike longest now first second)
    (guards : Table String GuardRow (fun row => row.accountId))
    : Alike longest now { first with guards } { second with guards } :=
  ⟨alike.codes, alike.devices, alike.creds, rfl, alike.limits⟩

theorem clearGuard_alike (alike : Alike longest now first second) (accountId : String) (clearedAt : Millis)
    : Alike longest now (first.clearGuard accountId clearedAt) (second.clearGuard accountId clearedAt) := by
  simp only [Database.clearGuard, alike.guards]
  exact alike.write_guards _

theorem revokeOthers_alike (alike : Alike longest now first second) (record : CredentialRecord)
    (options : ReplaceCredentialOptions) (replaced : Bool)
    : Alike longest now (first.revokeOthers record options replaced).2
        (second.revokeOthers record options replaced).2 := by
  unfold Database.revokeOthers
  split
  · split
    · exact revokeAllDevices_alike alike ..
    · exact alike
  · exact alike

/-- The database with its other devices revoked and these credentials, and the guard cleared if asked. -/
def Database.replacedBy (db : Database) (record : CredentialRecord) (options : ReplaceCredentialOptions)
    (creds : Table String CredentialRow (fun row => row.credentialId))
    : Database :=
  if options.resetLoginGuard then
    Database.clearGuard { db with creds } record.accountId record.updatedAt
  else { db with creds }

/-- A replacement replaces in both or in neither, when the id of the new credential is new. -/
theorem replaceCredential_alike (alike : Alike longest now first second) {record : CredentialRecord}
    {options : ReplaceCredentialOptions} {result : ReplaceCredentialResult} {after : Database}
    (ran : first.replaceCredential record options = some (result, after))
    (free : second.creds.find record.credentialId = none)
    : ∃ shown image, second.replaceCredential record options = some (shown, image)
        ∧ shown.replaced = result.replaced ∧ Alike longest now after image := by
  let active := Database.activeCredential record.accountId record.type
  let replaced : Bool := first.creds.countWhere active > 0
  have counted : decide (second.creds.countWhere active > 0) = replaced := by
    simp only [replaced, alike.creds.countWhere_eq (fun _ => unrevoked_of_active), active]
  have others := revokeOthers_alike alike record options replaced
  obtain ⟨creds, inserted, same⟩ := Option.map_eq_some_iff.mp ran
  have after_eq : (first.revokeOthers record options replaced).2.replacedBy record options creds = after :=
    congrArg Prod.snd same
  let retire (row : CredentialRow) : CredentialRow :=
    { row with revokedAt := some record.updatedAt, updatedAt := record.updatedAt }
  have keeps (row : CredentialRow) : (retire row).credentialId = row.credentialId := rfl
  have updated : Table.AlikeBut (fun row : CredentialRow => row.revokedAt.isSome)
      ((first.revokeOthers record options replaced).2.creds.updateWhere active retire keeps)
      ((second.revokeOthers record options replaced).2.creds.updateWhere active retire keeps) := by
    refine others.creds.updateWhere keeps (fun row revoked => ?_)
    split
    · rfl
    · exact revoked
  obtain ⟨image, added, still⟩ := updated.insert inserted (by
    rw [Table.find_updateWhere, (revokeOthers_frame second record options replaced).2.1, free]
    rfl)
  rw [← counted] at added
  refine ⟨_, _, Option.map_eq_some_iff.mpr ⟨image, added, rfl⟩, ?_, ?_⟩
  · exact counted.trans (congrArg ReplaceCredentialResult.replaced (congrArg Prod.fst same))
  · change Alike longest now after ((second.revokeOthers record options
      (decide (second.creds.countWhere active > 0))).2.replacedBy record options image)
    rw [counted, ← after_eq]
    have inserted : Alike longest now
        { (first.revokeOthers record options replaced).2 with creds }
        { (second.revokeOthers record options replaced).2 with creds := image } :=
      ⟨others.codes, others.devices, still, others.guards, others.limits⟩
    unfold Database.replacedBy
    split
    · exact clearGuard_alike inserted ..
    · exact inserted

end WorkersAuth.DeviceAuth
